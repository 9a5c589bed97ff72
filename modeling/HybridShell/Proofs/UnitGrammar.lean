import HybridShell.Proofs.ExpressionReading
import HybridShell.Proofs.UnitReadings

/-!
# The grammar of units

How tokens are divided among the statements of a unit: a relation between what
is read, the tokens that it is read from and those that are left.  It says of
every statement, at any depth, where its last token stands, so that a rule
about what follows a statement can be demanded of all of them.

Statements are separated by line ends and semicolons, but no separator is
demanded after the value of a return.
-/

namespace HybridShell

namespace Statement

def endsWithBlock : Statement → Bool
  | .conditional _ | .whileLoop _ _ | .forLoop _ _ _ | .define _ _ _ _ => true
  | _ => false

def returnsExpression : Statement → Bool
  | .returnValue (some _) => true
  | _ => false

end Statement

namespace UnitGrammar

open UnitReader ExpressionGrammar

/-! ### What follows a statement -/

def isEnd (inBlock : Bool) : List Token → Bool
  | [] => !inBlock
  | token :: _ => isSeparator token || (inBlock && token.kind.isPunct .rbrace)

namespace Ending

/-- Every statement that does not end with a block stands before an end. -/
def separated : Ending :=
  fun inBlock written after => written.endsWithBlock = false → isEnd inBlock after = true

def separatedReturns : Ending :=
  fun inBlock written after => written.returnsExpression = true → isEnd inBlock after = true

/-- Every statement that neither ends with a block nor returns a value stands before an end. -/
def separatedOthers : Ending :=
  fun inBlock written after =>
    written.endsWithBlock = false → written.returnsExpression = false → isEnd inBlock after = true

variable {inBlock : Bool} {written : Statement} {after : List Token}

theorem separatedReturns_of_separated (rule : separated inBlock written after) :
    separatedReturns inBlock written after := by
  intro returns
  refine rule ?_
  cases written with
  | returnValue value => rfl
  | _ => cases returns

theorem separated_of_both (returns : separatedReturns inBlock written after)
    (others : separatedOthers inBlock written after) : separated inBlock written after := by
  intro noBlock
  cases value : written.returnsExpression with
  | true => exact returns value
  | false => exact others noBlock value

end Ending

def Divides (ending : Ending) (source : String) (tokens : List Token) (unit : List Statement) :
    Prop :=
  Reads source.toList (.forText source.toList) ending (.statements false unit) tokens []

/-! ### Statements stand before an end -/

theorem atStatementEnd_drop_statementLength (depth : Int) (tokens : List Token) :
    atStatementEnd (tokens.drop (statementLength depth tokens)) = true := by
  induction tokens generalizing depth with
  | nil => rfl
  | cons token rest ih =>
    rw [statementLength]
    split
    · next ends =>
      rw [endsStatement, Bool.and_eq_true] at ends
      exact ends.2
    · exact ih _

section

variable {source : List Char} {readers : BodyReaders} {ending : Ending}

variable {tokens rest : List Token}

/-- After a statement, what the statements go on with tells a closing brace from a stray one. -/
theorem isEnd_of_atStatementEnd {inBlock : Bool} {others : List Statement}
    (ends : atStatementEnd tokens = true)
    (more : Reads source readers ending (.statements inBlock others) tokens rest) :
    isEnd inBlock tokens = true := by
  cases tokens with
  | nil =>
    cases more with
    | done => rfl
    | closed ended => cases ended
    | cons starts => cases starts
  | cons token after =>
    have ends : (isSeparator token || token.kind.isPunct .rbrace) = true := ends
    rw [isEnd]
    cases separates : isSeparator token with
    | true => rfl
    | false =>
      rw [separates, Bool.false_or] at ends
      rw [ends]
      have starts : (token :: after).dropWhile isSeparator = token :: after := by
        rw [List.dropWhile_cons, if_neg (Bool.eq_false_iff.mp separates)]
      cases more with
      | done ended => rw [starts] at ended; cases ended
      | closed => rfl
      | cons begins notBrace =>
        rw [starts] at begins
        cases begins
        exact absurd (TokenKind.isPunct_eq_true_iff.mp ends) notBrace

theorem atStatementEnd_of_reads {first : Token} {written : Statement}
    (one : Reads source readers ending (.statement first written) tokens rest)
    (noBlock : written.endsWithBlock = false) (noValue : written.returnsExpression = false) :
    atStatementEnd rest = true := by
  cases one with
  | conditional | whileLoop | forLoop | define => cases noBlock
  | returnValue => cases noValue
  | returnNothing keyword ends | alone keyword known ends => exact ends
  | undecided => exact atStatementEnd_drop_statementLength _ _

/-- A rule may be changed to one that follows where statements are read. -/
theorem Reads.imp {other : Ending} {part : Part}
    (weaker : ∀ {inBlock written after}, ending inBlock written after →
      Ending.separatedOthers inBlock written after → other inBlock written after)
    (reads : Reads source readers ending part tokens rest) :
    Reads source readers other part tokens rest := by
  induction reads with
  | done ended => exact .done ended
  | closed ended isBrace => exact .closed ended isBrace
  | cons starts notBrace one ends more ihOne ihMore =>
    refine .cons starts notBrace ihOne (weaker ends fun noBlock noValue => ?_) ihMore
    exact isEnd_of_atStatementEnd (atStatementEnd_of_reads one noBlock noValue) more
  | block opens _ closes ih => exact .block opens ih closes
  | guarded guard _ ih => exact .guarded guard ih
  | noBranch notElif notElse => exact .noBranch notElif notElse
  | otherwise starts isElse _ ih => exact .otherwise starts isElse ih
  | branch starts isElif _ _ ihTaken ihOthers => exact .branch starts isElif ihTaken ihOthers
  | conditional keyword _ _ ihTaken ihOthers => exact .conditional keyword ihTaken ihOthers
  | whileLoop keyword _ ih => exact .whileLoop keyword ih
  | forLoop keyword named isIn _ ih => exact .forLoop keyword named isIn ih
  | define keyword named listed _ ih => exact .define keyword named listed ih
  | returnNothing keyword ends => exact .returnNothing keyword ends
  | returnValue keyword goesOn given => exact .returnValue keyword goesOn given
  | alone keyword known ends => exact .alone keyword known ends
  | undecided notKeyword => exact .undecided notKeyword

end

/-! ### What is divided is read -/

/-- The steps that the part takes besides four for each of its tokens. -/
def Part.extraSteps : Part → Nat
  | .statements _ _ => 1
  | .block _ => 2
  | .guarded _ _ | .alternatives _ => 3
  | .statement _ _ => 4

section

variable {source : List Char} {readers : BodyReaders} {ending : Ending} {tokens rest : List Token}

theorem expectPunct_of_kind {token : Token} {punct : Punct} (same : token.kind = .punct punct) :
    expectPunct punct (token :: rest) = .ok rest :=
  if_pos (TokenKind.isPunct_eq_true_iff.mpr same)

theorem length_of_dropWhile {test : Token → Bool} {first : Token}
    (starts : tokens.dropWhile test = first :: rest) : rest.length < tokens.length :=
  (suffix_of_dropWhile starts).length_le

/-- What is divided among the tokens is read, within the steps for them and the extra ones. -/
theorem Reads.isRead {part : Part} (fuel : Nat)
    (reads : Reads source readers ending part tokens rest)
    (enough : 4 * tokens.length + part.extraSteps ≤ fuel) :
    part.IsRead source readers fuel tokens rest := by
  induction fuel generalizing part tokens rest with
  | zero => cases part <;> cases enough
  | succ fuel ih =>
    cases reads with
    | done ended => simp only [Part.IsRead, statements, ended, Bool.false_eq_true, if_false]
    | closed ended isBrace =>
      have isBrace := TokenKind.isPunct_eq_true_iff.mpr isBrace
      simp only [Part.IsRead, statements, ended, isBrace, if_true]
    | cons starts notBrace one _ more =>
      have shorter := one.suffix.length_le
      have fewer := length_of_dropWhile starts
      simp only [Part.extraSteps] at enough
      have notBrace := mt TokenKind.isPunct_eq_true_iff.mp notBrace
      simp only [Part.IsRead, statements, starts, notBrace, Bool.false_eq_true, if_false]
      refine Except.bind_eq_ok_iff.mpr ⟨_, ih one (show _ + 4 ≤ fuel by omega), ?_⟩
      exact Except.bind_eq_ok_iff.mpr ⟨_, ih more (show _ + 1 ≤ fuel by omega), rfl⟩
    | block opens inside closes =>
      simp only [Part.extraSteps, List.length_cons] at enough
      refine Except.bind_eq_ok_iff.mpr ⟨_, expectPunct_of_kind opens, ?_⟩
      refine Except.bind_eq_ok_iff.mpr ⟨_, ih inside (show _ + 1 ≤ fuel by omega), ?_⟩
      exact Except.bind_eq_ok_iff.mpr ⟨_, expectPunct_of_kind closes, rfl⟩
    | guarded guard governed =>
      have fewer := (shorter_of_expression guard).1
      refine Except.bind_eq_ok_iff.mpr ⟨_, guard, ?_⟩
      exact Except.bind_eq_ok_iff.mpr ⟨_, ih governed (show _ + 2 ≤ fuel by omega), rfl⟩
    | noBranch notElif notElse =>
      simp only [Part.IsRead, alternatives, notElif, notElse, Bool.false_eq_true, if_false]
    | @otherwise word _ _ _ _ starts isElse last =>
      have fewer := length_of_dropWhile starts
      have notElif : word.kind.isWord "elif" = false := by
        rw [isElse]
        rfl
      simp only [Part.IsRead, alternatives, starts, startsWithWord, List.head?_cons,
        Option.any_some, notElif, TokenKind.isWord_eq_true_iff.mpr isElse, Bool.false_eq_true,
        if_false, if_true]
      exact Except.bind_eq_ok_iff.mpr ⟨_, ih last (show _ + 2 ≤ fuel by omega), rfl⟩
    | branch starts isElif taken others =>
      have shorter := taken.suffix.length_le
      have fewer := length_of_dropWhile starts
      simp only [Part.IsRead, alternatives, starts, startsWithWord, List.head?_cons,
        Option.any_some, TokenKind.isWord_eq_true_iff.mpr isElif, if_true]
      refine Except.bind_eq_ok_iff.mpr ⟨_, ih taken (show _ + 3 ≤ fuel by omega), ?_⟩
      exact Except.bind_eq_ok_iff.mpr ⟨_, ih others (show _ + 3 ≤ fuel by omega), rfl⟩
    | conditional keyword taken others =>
      have shorter := taken.suffix.length_le
      simp only [Part.extraSteps] at enough
      simp only [Part.IsRead, statement, keyword]
      refine Except.bind_eq_ok_iff.mpr ⟨_, ih taken (show _ + 3 ≤ fuel by omega), ?_⟩
      exact Except.bind_eq_ok_iff.mpr ⟨_, ih others (show _ + 3 ≤ fuel by omega), rfl⟩
    | whileLoop keyword loop =>
      simp only [Part.extraSteps] at enough
      simp only [Part.IsRead, statement, keyword]
      exact Except.bind_eq_ok_iff.mpr ⟨_, ih loop (show _ + 3 ≤ fuel by omega), rfl⟩
    | forLoop keyword named isIn loop =>
      have fewer := (shorter_of_expectName named).1
      rw [List.length_cons] at fewer
      simp only [Part.IsRead, statement, keyword]
      refine Except.bind_eq_ok_iff.mpr ⟨_, named, ?_⟩
      simp only [startsWithWord, List.head?_cons, Option.any_some,
        TokenKind.isWord_eq_true_iff.mpr isIn, if_true]
      exact Except.bind_eq_ok_iff.mpr ⟨_, ih loop (show _ + 3 ≤ fuel by omega), rfl⟩
    | define keyword named listed inner =>
      have fewer := (shorter_of_expectName named).1
      have listFewer := (shorter_of_parameters listed).1
      obtain ⟨_, opened, listed⟩ := Except.bind_eq_ok_iff.mp listed
      simp only [Part.IsRead, statement, keyword]
      refine Except.bind_eq_ok_iff.mpr ⟨_, named, Except.bind_eq_ok_iff.mpr ⟨_, opened, ?_⟩⟩
      refine Except.bind_eq_ok_iff.mpr ⟨_, listed, ?_⟩
      exact Except.bind_eq_ok_iff.mpr ⟨_, ih inner (show _ + 2 ≤ fuel by omega), rfl⟩
    | returnNothing keyword ends => simp only [Part.IsRead, statement, keyword, ends, if_true]
    | returnValue keyword goesOn given => simp_all [Part.IsRead, statement]
    | alone keyword known ends =>
      simp only [loneKeywords, List.mem_cons, Prod.mk.injEq, List.not_mem_nil, or_false] at known
      obtain ⟨rfl, rfl⟩ | ⟨rfl, rfl⟩ | ⟨rfl, rfl⟩ := known
      all_goals
        simp only [Part.IsRead, statement, keyword]
        exact keywordAlone_eq_ok_iff.mpr ⟨ends, rfl, rfl⟩
    | undecided notKeyword => exact statement_of_notKeyword notKeyword fuel _

end

/-! ### Units -/

variable {source : String} {unit : List Statement}

theorem parseUnit_eq_ok_iff_divides :
    parseUnit source = .ok unit ↔
      ∃ tokens, lex source = .ok tokens ∧ Divides .free source tokens unit := by
  rw [parseUnit_eq_ok_iff]
  constructor
  · rintro ⟨tokens, rest, lexed, read⟩
    have reads := reads_of_isRead (.statements _ _) read
    cases reads.eq_nil
    exact ⟨tokens, lexed, reads⟩
  · rintro ⟨tokens, lexed, divided⟩
    refine ⟨tokens, [], lexed, divided.isRead _ ?_⟩
    rw [Part.extraSteps, steps]
    omega

theorem divides_separatedOthers_iff :
    Divides .separatedOthers source tokens unit ↔ Divides .free source tokens unit := by
  constructor
  · exact Reads.imp fun _ _ => trivial
  · exact Reads.imp fun _ others => others

theorem divides_separated_iff :
    Divides .separated source tokens unit ↔ Divides .separatedReturns source tokens unit := by
  constructor
  · exact Reads.imp fun all _ => Ending.separatedReturns_of_separated all
  · exact Reads.imp Ending.separated_of_both

/-- A returned value that stands before more tokens keeps a unit from being separated. -/
theorem not_divides_separated {first : Token} {next after : List Token} {value : Expr}
    (keyword : first.kind = .name "return") (goesOn : atStatementEnd next = false)
    (given : ExpressionReader.expression (.forText source.toList) next = .ok (value, after))
    (noEnd : isEnd false after = false) : ¬ Divides .separated source (first :: next) unit := by
  intro divided
  have starts : (first :: next).dropWhile isSeparator = first :: next := by
    rw [List.dropWhile_cons, isSeparator, keyword]
    rfl
  cases divided with
  | done ended => simp_all
  | cons begins notBrace one ends more =>
    rw [starts] at begins
    cases begins
    cases one with
    | conditional other | whileLoop other | forLoop other | define other =>
      simp [keyword] at other
    | returnNothing _ stops => simp_all
    | returnValue _ _ found =>
      rw [given] at found
      cases found
      rw [ends rfl] at noEnd
      cases noEnd
    | alone other known => simp_all
    | undecided notKeyword =>
      have isReturn := notKeyword "return" (by simp [UnitReader.keywords])
      rw [keyword] at isReturn
      cases isReturn

end UnitGrammar

/--
Reading a unit divides its tokens so that every statement without a block, at any depth, stands
before a separator or where its block or the unit ends, but for the return of a value; and all
of them do just if every returned value does.
-/
theorem statements_are_separated_iff_returned_values_are (source : String)
    (unit : List Statement) :
    (parseUnit source = .ok unit ↔
      ∃ tokens, lex source = .ok tokens ∧
        UnitGrammar.Divides .separatedOthers source tokens unit) ∧
    ∀ tokens, UnitGrammar.Divides .separated source tokens unit ↔
      UnitGrammar.Divides .separatedReturns source tokens unit := by
  refine ⟨?_, fun _ => UnitGrammar.divides_separated_iff⟩
  simp only [UnitGrammar.divides_separatedOthers_iff]
  exact UnitGrammar.parseUnit_eq_ok_iff_divides

/-- Two statements on one line, with nothing between the value that the first returns and the
second. -/
theorem returned_value_before_another_statement :
    (parseUnit "return 1 2").isOk = true ∧
      ¬ ∃ tokens unit, lex "return 1 2" = .ok tokens ∧
        UnitGrammar.Divides .separated "return 1 2" tokens unit := by
  refine ⟨by decide +kernel, ?_⟩
  rintro ⟨tokens, unit, lexed, divided⟩
  have known : lex "return 1 2" = .ok [⟨.name "return", ⟨0, 6, 1⟩⟩, ⟨.int 1, ⟨7, 8, 1⟩⟩,
      ⟨.int 2, ⟨9, 10, 1⟩⟩] := by
    with_unfolding_all rfl
  cases known.symm.trans lexed
  exact UnitGrammar.not_divides_separated rfl rfl rfl rfl divided

end HybridShell
