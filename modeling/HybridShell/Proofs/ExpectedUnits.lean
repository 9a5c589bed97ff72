import HybridShell.Proofs.ExpectedReadings

/-!
# Units and expectations

A unit is read as what its readers wait for says: its tokens are refused where
the reading has an error that more tokens cannot mend.
-/

namespace HybridShell

open Expectation Meets

namespace UnitReader

variable {readers : BodyReaders} {stack : List Expectation}

theorem standing_dropWhile {top : Expectation} {test : Token → Bool}
    (takes : ∀ token, test token = true → top.reply readers token.kind = .takes [top])
    (tokens : List Token) :
    standing readers (top :: stack) (tokens.map Token.kind) =
      standing readers (top :: stack) ((tokens.dropWhile test).map Token.kind) := by
  induction tokens with
  | nil => rfl
  | cons token rest ih =>
    rw [List.dropWhile_cons]
    split
    · next passed => rw [List.map_cons, standing_of_takes (takes token passed), ← ih]; rfl
    · rfl

variable {token : Token}

theorem takes_of_isSeparator {inBlock : Bool} (separates : isSeparator token = true) :
    (Expectation.statements inBlock).reply readers token.kind = .takes [.statements inBlock] :=
  if_pos separates

theorem standing_simple (depth : Int) (tokens : List Token) :
    standing readers (.simple depth :: stack) (tokens.map Token.kind) =
      standing readers stack ((tokens.drop (statementLength depth tokens)).map Token.kind) := by
  induction tokens generalizing depth with
  | nil => exact standing_of_isOptional rfl
  | cons token rest ih =>
    rw [statementLength]
    split
    · next ends => exact standing_of_leaves (if_pos ends)
    · next goesOn =>
      have taken : (Expectation.simple depth).reply readers token.kind =
          .takes [.simple (depth + bracketChange token.kind)] := if_neg goesOn
      rw [List.drop_succ_cons, ← ih, List.map_cons]
      exact standing_of_takes taken

variable {rest next : List Token}

theorem standing_parameters (unclosed : ¬ token.kind.isPunct .rparen = true) :
    standing readers (.parameters :: stack) ((token :: rest).map Token.kind) =
      standing readers (.name :: .parameterEnd :: stack) ((token :: rest).map Token.kind) := by
  simp only [List.map_cons, standing, feed, Expectation.reply, if_neg unclosed]
  by_cases named : Expectation.isName token.kind = true <;> simp only [named] <;> rfl

/-- Where no comma follows a parameter, the closing bracket has to. -/
theorem parameterEnd_meets {least : Nat} {result : Parsed (List String)}
    (notComma : ¬ token.kind.isPunct .comma = true)
    (meets : Meets readers least [.punct .rparen] [] (token :: rest) result) :
    Meets readers least [.parameterEnd] [] (token :: rest) result :=
  meets.of_eq fun stack => by
    simp only [List.map_cons, List.singleton_append, standing, feed, Expectation.reply,
      if_neg notComma]

theorem parameters_meets (readers : BodyReaders) (tokens : List Token) :
    Meets readers 1 [.parameters] [] tokens (parameters tokens) := by
  generalize size : tokens.length = count
  induction count using Nat.strongRecOn generalizing tokens with
  | ind count ih =>
    cases tokens with
    | nil => exact starved rfl
    | cons token rest =>
      unfold parameters
      split
      · next closed => exact takes (if_pos closed) pure
      · next unclosed =>
        suffices both : Meets readers 1 [.name, .parameterEnd] [] (token :: rest) _ from
          both.of_eq fun stack => standing_parameters unclosed
        refine (expectName_meets readers (token :: rest)).weaken.bind fun name next ok _ => ?_
        obtain rfl := eq_of_expectName ok
        cases next with
        | nil => exact starved rfl
        | cons comma after =>
          simp only [List.length_cons] at size
          dsimp only
          split
          · next isComma =>
            have others := ih after.length (by omega) after rfl
            refine mono ?_ (Nat.zero_le 2)
            exact (others.map (name :: ·)).takesAlone (if_pos isComma)
          · next notComma =>
            refine mono (parameterEnd_meets notComma ?_) (Nat.zero_le 1)
            exact expectPunct_meets fun final _ => pure

section InWord

variable {readers : BodyReaders} {least : Nat} {expected after : List Expectation}
  {tokens : List Token}

variable {α : Type}

theorem inWord_meets {result : Parsed α} (isIn : startsWithWord tokens "in" = true)
    (meets : Meets readers least expected after (tokens.drop 1) result) :
    Meets readers (least + 1) (.inWord :: expected) after tokens result := by
  cases tokens with
  | nil => cases isIn
  | cons token rest =>
    have taken : Expectation.inWord.reply readers token.kind = .takes [] := if_pos isIn
    exact meets.takes taken

theorem inWord_meets_error (notIn : ¬ startsWithWord tokens "in" = true) :
    Meets readers least (.inWord :: expected) after tokens
      (.error (unexpected tokens) : Parsed α) := by
  cases tokens with
  | nil => exact starved rfl
  | cons token rest => exact refuses (if_neg notIn)

end InWord

section

variable (source : List Char)

/-- With steps enough, the readers of a unit end as what they wait for. -/
structure MeetsExpectations (readers : BodyReaders) (fuel : Nat) : Prop where
  statements : ∀ (inBlock : Bool) (tokens : List Token), 4 * tokens.length + 1 ≤ fuel →
    Meets readers 0 [.statements inBlock] [] tokens
      (statements source readers fuel inBlock tokens)
  block : ∀ tokens : List Token, 4 * tokens.length + 2 ≤ fuel →
    Meets readers 1 Expectation.block [] tokens (block source readers fuel tokens)
  guarded : ∀ tokens : List Token, 4 * tokens.length + 3 ≤ fuel →
    Meets readers 1 Expectation.guarded [] tokens (guarded source readers fuel tokens)
  alternatives : ∀ (inBlock : Bool) (tokens : List Token), 4 * tokens.length + 3 ≤ fuel →
    Meets readers 0 [.alternatives] [.statements inBlock] tokens
      (alternatives source readers fuel tokens)
  statement : ∀ (inBlock : Bool) (first : Token) (rest : List Token),
    4 * rest.length + 4 ≤ fuel →
      Meets readers 0 (afterStatement first.kind) [.statements inBlock] rest
        (statement source readers fuel first rest)

end

section Step

variable {source : List Char} {fuel : Nat} (inner : MeetsExpectations source readers fuel)

include inner

variable {after : List Expectation} (tokens : List Token) (inBlock : Bool)

theorem statements_meets (tokens : List Token) (enough : 4 * tokens.length + 1 ≤ fuel + 1) :
    Meets readers 0 [.statements inBlock] [] tokens
      (statements source readers (fuel + 1) inBlock tokens) := by
  suffices dropped : Meets readers 0 [.statements inBlock] [] (tokens.dropWhile isSeparator)
      (statements source readers (fuel + 1) inBlock tokens) from
    dropped.of_dropWhile fun stack => standing_dropWhile (fun _ => takes_of_isSeparator) tokens
  have shorter := (List.dropWhile_suffix isSeparator (l := tokens)).length_le
  simp only [statements]
  split
  · next found =>
    rw [found]
    cases inBlock with
    | true => exact starved rfl
    | false => exact ended rfl
  · next token rest found =>
    have goesOn : ¬ Expectation.isSeparator token.kind = true := by
      have first := List.head?_dropWhile_not isSeparator tokens
      rw [found] at first
      exact Bool.eq_false_iff.mp first
    rw [found]
    rw [found, List.length_cons] at shorter
    split
    · next isBrace =>
      split
      · next inside =>
        exact leaves (by
          rw [Expectation.reply, if_neg goesOn, if_pos isBrace, if_pos inside])
      · next outside =>
        refine refuses ?_
        rw [Expectation.reply, if_neg goesOn, if_pos isBrace, if_neg outside]
    · next notBrace =>
      have taken : (Expectation.statements inBlock).reply readers token.kind =
          .takes (afterStatement token.kind ++ [.statements inBlock]) := by
        rw [Expectation.reply, if_neg goesOn, if_neg notBrace]
      refine mono (takesAlone taken ?_) (Nat.zero_le 1)
      refine (inner.statement inBlock token rest (by omega)).bind fun first after _ fewer => ?_
      exact (inner.statements inBlock after (by omega)).map (first :: ·)

theorem block_meets (enough : 4 * tokens.length + 2 ≤ fuel + 1) :
    Meets readers 1 Expectation.block [] tokens (block source readers (fuel + 1) tokens) := by
  refine expectPunct_meets fun rest shorter => ?_
  refine (inner.statements true rest (by omega)).weaken.bind fun body after _ _ => ?_
  exact mono (expectPunct_meets fun final _ => pure) (Nat.zero_le 1)

theorem guarded_meets (enough : 4 * tokens.length + 3 ≤ fuel + 1) :
    Meets readers 1 Expectation.guarded [] tokens (guarded source readers (fuel + 1) tokens) := by
  refine (ExpressionReader.expression_meets readers tokens).weaken.bind
    fun condition rest _ shorter => ?_
  exact ((inner.block rest (by omega)).map (condition, ·)).mono (Nat.zero_le 1)

omit inner in
theorem standing_alternatives :
    standing readers (.alternatives :: stack) (tokens.map Token.kind) =
      standing readers (.alternatives :: stack)
        ((tokens.dropWhile (·.kind.isNewline)).map Token.kind) := by
  refine standing_dropWhile (fun token newline => ?_) tokens
  exact if_pos newline

omit inner in
/-- Without further branches, the statements go on, whether at a line end or after it. -/
theorem standing_alternatives_over {inBlock : Bool} {tokens : List Token}
    (ended : ∀ token ∈ (tokens.dropWhile (·.kind.isNewline)).head?,
      ¬ token.kind.isWord "elif" = true ∧ ¬ token.kind.isWord "else" = true) :
    standing readers (.alternatives :: .statements inBlock :: stack) (tokens.map Token.kind) =
      standing readers (.statements inBlock :: stack) (tokens.map Token.kind) := by
  have separates (token : Token) (newline : token.kind.isNewline = true) :
      (Expectation.statements inBlock).reply readers token.kind = .takes [.statements inBlock] :=
    if_pos (by rw [Expectation.isSeparator, newline]; rfl)
  rw [standing_alternatives, standing_dropWhile separates]
  refine standing_skip rfl fun kind first => ?_
  rw [List.head?_map] at first
  obtain ⟨token, isFirst, rfl⟩ := Option.map_eq_some_iff.mp first
  obtain ⟨notElif, notElse⟩ := ended token isFirst
  have notNewline : ¬ token.kind.isNewline = true := by
    have last := List.head?_dropWhile_not (·.kind.isNewline) tokens
    rw [isFirst] at last
    exact Bool.eq_false_iff.mp last
  rw [Expectation.reply, if_neg notNewline, if_neg notElif, if_neg notElse]

theorem alternatives_meets (tokens : List Token) (enough : 4 * tokens.length + 3 ≤ fuel + 1) :
    Meets readers 0 [.alternatives] [.statements inBlock] tokens
      (alternatives source readers (fuel + 1) tokens) := by
  have shorter := (List.dropWhile_suffix (·.kind.isNewline) (l := tokens)).length_le
  have past {least : Nat} {result : Parsed Alternatives}
      (meets : Meets readers least [.alternatives] [.statements inBlock]
        (tokens.dropWhile (·.kind.isNewline)) result) :
      Meets readers 0 [.alternatives] [.statements inBlock] tokens result :=
    (meets.mono (Nat.zero_le _)).of_dropWhile fun stack => standing_alternatives tokens
  have atEnd (ended : ∀ token ∈ (tokens.dropWhile (·.kind.isNewline)).head?,
      ¬ token.kind.isWord "elif" = true ∧ ¬ token.kind.isWord "else" = true) :
      Meets readers 0 [.alternatives] [.statements inBlock] tokens
        (.ok (.none, tokens) : Parsed Alternatives) :=
    pure.of_eq fun stack => standing_alternatives_over ended
  cases found : tokens.dropWhile (·.kind.isNewline) with
  | nil =>
    simp only [alternatives, found]
    exact atEnd (by rw [found]; rintro _ ⟨⟩)
  | cons token rest =>
    have notNewline : ¬ token.kind.isNewline = true := by
      have last := List.head?_dropWhile_not (·.kind.isNewline) tokens
      simp_all
    rw [found] at past atEnd
    rw [found, List.length_cons] at shorter
    simp only [alternatives, found, List.drop_one, List.tail_cons]
    split
    · next isElif =>
      have taken : Expectation.alternatives.reply readers token.kind =
          .takes (Expectation.guarded ++ [.alternatives]) := by
        rw [Expectation.reply, if_neg notNewline]
        exact if_pos isElif
      refine past (((inner.guarded rest (by omega)).weaken.bind
        fun branch after _ fewer => ?_).takesAlone taken)
      exact (inner.alternatives inBlock after (by omega)).map (Alternatives.branch branch.1 branch.2)
    · next notElif =>
      split
      · next isElse =>
        have taken : Expectation.alternatives.reply readers token.kind =
            .takes Expectation.block := by
          rw [Expectation.reply, if_neg notNewline]
          exact (if_neg notElif).trans (if_pos isElse)
        exact past (((inner.block rest (by omega)).map Alternatives.otherwise).weaken.takesAlone taken)
      · next notElse =>
        refine atEnd fun first isFirst => ?_
        cases isFirst
        exact ⟨notElif, notElse⟩

omit inner in
theorem keywordAlone_meets (alone : Statement) (tokens : List Token) :
    Meets readers 0 [.statementEnd] after tokens (keywordAlone alone tokens) := by
  rw [keywordAlone]
  cases tokens with
  | nil => exact ended rfl
  | cons token rest =>
    split
    · next ends => exact leaves (if_pos ends)
    · next goesOn => exact refuses (if_neg goesOn)

omit inner in
theorem returnValue_meets {α : Type} (goesOn : ¬ atStatementEnd tokens = true)
    {result : Parsed α}
    (meets : Meets readers 1 [.level .disjunction] after tokens result) :
    Meets readers 1 [.returnValue] after tokens result := by
  refine meets.of_eq fun stack => ?_
  cases tokens with
  | nil => exact absurd rfl goesOn
  | cons token rest =>
    have taken : Expectation.returnValue.reply readers token.kind =
        (Expectation.level .disjunction).reply readers token.kind := if_neg goesOn
    simp only [List.map_cons, List.singleton_append, standing, feed, taken]

theorem statement_meets (first : Token) (rest : List Token)
    (enough : 4 * rest.length + 4 ≤ fuel + 1) :
    Meets readers 0 (afterStatement first.kind) [.statements inBlock] rest
      (statement source readers (fuel + 1) first rest) := by
  replace enough := Nat.le_of_succ_le_succ enough
  simp only [statement]
  split
  · next isIf =>
    rw [isIf]
    refine mono ?_ (Nat.zero_le 1)
    refine (inner.guarded rest enough).weaken.bind fun branch after _ shorter => ?_
    exact (inner.alternatives inBlock after (by omega)).map
      fun others => Statement.conditional (.branch branch.1 branch.2 others)
  · next isWhile =>
    rw [isWhile]
    have loop := (inner.guarded rest enough).map fun branch => Statement.whileLoop branch.1 branch.2
    exact loop.weaken.mono (Nat.zero_le 1)
  · next isFor =>
    rw [isFor]
    refine mono ?_ (Nat.zero_le 1)
    refine (expectName_meets readers rest).weaken.bind fun name after _ shorter => ?_
    split
    · next isIn =>
      have fewer : (after.drop 1).length ≤ after.length := (List.drop_suffix 1 after).length_le
      have loop := (inner.guarded (after.drop 1) (by omega)).map
        fun branch => Statement.forLoop name branch.1 branch.2
      exact (inWord_meets isIn loop.weaken).mono (Nat.zero_le _)
    · next notIn => exact inWord_meets_error notIn
  · next isDef =>
    rw [isDef]
    refine mono ?_ (Nat.zero_le 1)
    refine (expectName_meets readers rest).weaken.bind fun name after _ shorter => ?_
    refine mono ?_ (Nat.zero_le 1)
    refine expectPunct_meets fun inside less => mono ?_ (Nat.zero_le 1)
    refine (parameters_meets readers inside).weaken.bind fun names next _ fewer => ?_
    exact (((inner.block next (by omega)).map _).weaken).mono (Nat.zero_le 1)
  · next isReturn =>
    rw [isReturn]
    split
    · next ends =>
      cases rest with
      | nil => exact ended rfl
      | cons token later => exact leaves (if_pos ends)
    · next goesOn =>
      have value := (ExpressionReader.expression_meets readers rest).map
        fun value => Statement.returnValue (some value)
      exact (returnValue_meets rest goesOn value.weaken).mono (Nat.zero_le 1)
  · next isBreak =>
    rw [isBreak]
    exact keywordAlone_meets .breakLoop rest
  · next isContinue =>
    rw [isContinue]
    exact keywordAlone_meets .continueLoop rest
  · next isPass =>
    rw [isPass]
    exact keywordAlone_meets .pass rest
  · have simple : afterStatement first.kind = [.simple (bracketChange first.kind)] := by
      unfold afterStatement
      split <;> first | rfl | contradiction
    rw [simple]
    refine ⟨⟨?_, List.drop_suffix _ _⟩, fun stack => standing_simple _ rest⟩
    simp

end Step

theorem meetsExpectations (source : List Char) (readers : BodyReaders) (fuel : Nat) :
    MeetsExpectations source readers fuel := by
  induction fuel with
  | zero => constructor <;> intros <;> omega
  | succ fuel inner =>
    exact ⟨statements_meets inner, block_meets inner, guarded_meets inner,
      alternatives_meets inner, statement_meets inner⟩

theorem unit_meets (source : List Char) (readers : BodyReaders) (tokens : List Token) :
    Meets readers 0 [.statements false] [] tokens
      (statements source readers (steps tokens.length) false tokens) := by
  refine (meetsExpectations source readers _).statements false tokens ?_
  rw [steps]
  omega

def standing (readers : BodyReaders) (tokens : List Token) : Standing :=
  Expectation.standing readers [.statements false] (tokens.map Token.kind)

section Unit

variable {source : List Char} {tokens : List Token}

theorem standing_eq_finished_iff :
    standing readers tokens = .finished ↔
      ∃ unit rest, statements source readers (steps tokens.length) false tokens =
        .ok (unit, rest) := by
  have meets := unit_meets source readers tokens
  constructor
  · intro finished
    cases found : statements source readers (steps tokens.length) false tokens with
    | ok pair => exact ⟨pair.1, pair.2, rfl⟩
    | error error =>
      rw [found] at meets
      obtain ⟨stands, explains, same⟩ := meets
      cases (same []).symm.trans finished
      exact explains.elim
  · rintro ⟨unit, rest, ok⟩
    rw [ok] at meets
    cases (UnitGrammar.reads_of_isRead (.statements _ _) ok).eq_nil
    exact meets.2 []

theorem explains_of_statements {error : ParseError}
    (failed : statements source readers (steps tokens.length) false tokens = .error error) :
    (standing readers tokens).Explains readers tokens error := by
  have meets := unit_meets source readers tokens
  rw [failed] at meets
  obtain ⟨stands, explains, same⟩ := meets
  rwa [standing, show Expectation.standing readers [.statements false] _ = stands from same []]

end Unit

end UnitReader

end HybridShell
