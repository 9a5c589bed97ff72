import HybridShell.Proofs.Expectations
import HybridShell.Proofs.NestedReaders

/-!
# Readings and expectations

The readers of a unit end as its tokens stand to what the readers wait for.
They succeed where the expectations are met, they meet the end of the tokens
where something is still expected, and any other error is at a token that is
refused.  In particular they never run out of steps.
-/

namespace HybridShell

open Expectation ExpressionReader

/-- How tokens stand to the expectations of a reading that ends with an error at one of them. -/
def Standing.Explains (readers : BodyReaders) (tokens : List Token) (error : ParseError) :
    Standing → Prop
  | .refused .kind => ∃ token ∈ tokens, ∃ fault, error = .malformed token.span.line fault
  | .refused .body => ∃ token ∈ tokens, ∃ capture body nested,
    token.kind = .subprocess capture body ∧ readers.chain body.toList = .error nested ∧
      error = nested.relocate token.span.line
  | .unfinished => error = .unexpectedEnd
  | .finished => False

/--
A reading ends as the tokens stand to its expectations, in front of some others: it takes at
least so many tokens and meets them, or the tokens explain its error.
-/
def Meets {α : Type} (readers : BodyReaders) (least : Nat) (expected after : List Expectation)
    (tokens : List Token) : Parsed α → Prop
  | .ok (_, rest) =>
    (rest.length + least ≤ tokens.length ∧ rest <:+ tokens) ∧
      ∀ stack, standing readers (expected ++ (after ++ stack)) (tokens.map Token.kind) =
        standing readers (after ++ stack) (rest.map Token.kind)
  | .error error =>
    ∃ found : Standing, found.Explains readers tokens error ∧
      ∀ stack, standing readers (expected ++ (after ++ stack)) (tokens.map Token.kind) = found

namespace Meets

variable {α β : Type} {readers : BodyReaders} {least more : Nat}
  {expected other after : List Expectation} {tokens rest : List Token} {value : α}
  {result : Parsed α}

theorem explains_mono {found : Standing} {error : ParseError}
    (explains : found.Explains readers rest error) (among : rest <:+ tokens) :
    found.Explains readers tokens error := by
  cases found with
  | refused reason =>
    cases reason <;> exact explains.imp fun _ => .imp_left fun member => among.subset member
  | unfinished | finished => exact explains

theorem shorter (meets : Meets readers least expected after tokens result)
    (ok : result = .ok (value, rest)) : rest.length + least ≤ tokens.length ∧ rest <:+ tokens := by
  rw [ok] at meets
  exact meets.1

/-- Only how tokens stand to the expectations matters, of all the tokens or of a rest of them. -/
theorem transfer (meets : Meets readers least other after rest result)
    (same : ∀ stack, standing readers (expected ++ (after ++ stack)) (tokens.map Token.kind) =
      standing readers (other ++ (after ++ stack)) (rest.map Token.kind))
    (shorter : rest.length + more ≤ tokens.length + least) (among : rest <:+ tokens) :
    Meets readers more expected after tokens result := by
  cases result with
  | error error =>
    obtain ⟨found, explains, stands⟩ := meets
    exact ⟨found, explains_mono explains among, fun stack => (same stack).trans (stands stack)⟩
  | ok pair =>
    refine ⟨⟨?_, meets.1.2.trans among⟩, fun stack => (same stack).trans (meets.2 stack)⟩
    have := meets.1.1
    omega

theorem mono (meets : Meets readers least expected after tokens result) (fewer : more ≤ least) :
    Meets readers more expected after tokens result :=
  meets.transfer (fun _ => rfl) (by omega) (List.suffix_rfl)

theorem of_eq (meets : Meets readers least other after tokens result)
    (same : ∀ stack, standing readers (expected ++ (after ++ stack)) (tokens.map Token.kind) =
      standing readers (other ++ (after ++ stack)) (tokens.map Token.kind)) :
    Meets readers least expected after tokens result :=
  meets.transfer same (Nat.le_refl _) (List.suffix_rfl)

theorem of_dropWhile {test : Token → Bool}
    (meets : Meets readers least other after (tokens.dropWhile test) result)
    (same : ∀ stack, standing readers (expected ++ (after ++ stack)) (tokens.map Token.kind) =
      standing readers (other ++ (after ++ stack)) ((tokens.dropWhile test).map Token.kind)) :
    Meets readers least expected after tokens result :=
  have dropped := List.dropWhile_suffix (l := tokens) test
  meets.transfer same (Nat.add_le_add_right dropped.length_le _) dropped

theorem weaken (meets : Meets readers least expected [] tokens result) :
    Meets readers least expected after tokens result := by
  cases result with
  | error error =>
    obtain ⟨found, explains, stands⟩ := meets
    exact ⟨found, explains, fun stack => stands (after ++ stack)⟩
  | ok pair => exact ⟨meets.1, fun stack => meets.2 (after ++ stack)⟩

variable {next : α × List Token → Parsed β} {level : Level}

/-- An error ends the readings that would have followed, too. -/
theorem bind (meets : Meets readers least expected other tokens result)
    (later : ∀ value rest, result = .ok (value, rest) → rest.length + least ≤ tokens.length →
      Meets readers 0 other after rest (next (value, rest))) :
    Meets readers least (expected ++ other) after tokens (result.bind next) := by
  cases result with
  | error error =>
    obtain ⟨found, explains, stands⟩ := meets
    refine ⟨found, explains, fun stack => ?_⟩
    simp_all
  | ok pair =>
    refine (later pair.1 pair.2 rfl meets.1.1).transfer (fun stack => ?_) meets.1.1 meets.1.2
    rw [List.append_assoc]
    exact meets.2 (after ++ stack)

/-- What a reading gives does not matter, only what it leaves. -/
theorem map (meets : Meets readers least expected after tokens result) (given : α → β) :
    Meets readers least expected after tokens
      (result.bind fun found => .ok (given found.1, found.2)) := by
  cases result with
  | error error => exact meets
  | ok pair => exact meets

/-- Operators of a level follow an operand of the next tighter one. -/
theorem groups (opens : ∀ kind, afterOperand readers level kind =
      (afterOperand readers level.tighter kind).map (· ++ [.operators level]))
    (meets : Meets readers least [.level level.tighter, .operators level] after tokens result) :
    Meets readers least [.level level] after tokens result :=
  meets.of_eq fun _ => standing_level fun kind _ => opens kind

theorem compares
    (meets : Meets readers least [.level .sum, .comparison] after tokens result) :
    Meets readers least [.level .comparison] after tokens result :=
  meets.of_eq fun _ => standing_level fun _ _ => rfl

theorem suffixed (meets : Meets readers least [.atom, .suffixes] after tokens result) :
    Meets readers least [.level .suffix] after tokens result :=
  meets.of_eq fun _ => standing_atom

/-- Without its sign, a level is the next tighter one. -/
theorem unsigned (opens : ∀ kind, afterOperand readers level kind =
      if (level.before? kind).isSome then .ok [.level level]
      else afterOperand readers level.tighter kind)
    (absent : tokens.head?.bind (level.before? ·.kind) = none)
    (meets : Meets readers least [.level level.tighter] after tokens result) :
    Meets readers least [.level level] after tokens result := by
  refine meets.of_eq fun stack => ?_
  have same : ∀ kind ∈ (tokens.map Token.kind).head?, afterOperand readers level kind =
      (afterOperand readers level.tighter kind).map (· ++ []) := by
    intro kind first
    rw [List.head?_map] at first
    obtain ⟨token, isFirst, rfl⟩ := Option.map_eq_some_iff.mp first
    rw [isFirst, Option.bind_some] at absent
    rw [opens, absent]
    cases afterOperand readers level.tighter token.kind <;> simp [Except.map]
  exact standing_level same

section Token

variable {top : Expectation} {token : Token} {next : List Expectation}

theorem takes (reply : top.reply readers token.kind = .takes next)
    (meets : Meets readers least (next ++ expected) after rest result) :
    Meets readers (least + 1) (top :: expected) after (token :: rest) result := by
  refine meets.transfer (fun stack => ?_) ?_ (List.suffix_cons _ _)
  · rw [List.append_assoc]
    exact standing_of_takes reply
  · grind

theorem takesAlone (reply : top.reply readers token.kind = .takes next)
    (meets : Meets readers least next after rest result) :
    Meets readers (least + 1) [top] after (token :: rest) result :=
  takes reply (by rwa [List.append_nil])

theorem signed {change : Expr → Expr}
    (opens : ∀ kind, afterOperand readers level kind =
      if (level.before? kind).isSome then .ok [.level level]
      else afterOperand readers level.tighter kind)
    (isSign : level.before? token.kind = some change)
    (meets : Meets readers least [.level level] after rest result) :
    Meets readers least [.level level] after (token :: rest) result := by
  have taken : (Expectation.level level).reply readers token.kind = .takes [.level level] := by
    rw [Expectation.reply, opens, isSign]
    rfl
  exact (meets.takesAlone taken).mono (Nat.le_succ least)

theorem refuses {fault : GrammarFault} (reply : top.reply readers token.kind = .refuses .kind) :
    Meets readers least (top :: expected) after (token :: rest)
      (.error (.malformed token.span.line fault) : Parsed α) :=
  ⟨.refused .kind, ⟨token, List.mem_cons_self, fault, rfl⟩, fun _ => standing_of_refuses reply⟩

theorem leaves (reply : top.reply readers token.kind = .leaves) :
    Meets readers 0 [top] after (token :: rest) (.ok (value, token :: rest) : Parsed α) :=
  ⟨⟨Nat.le_refl _, List.suffix_rfl⟩, fun _ => standing_of_leaves reply⟩

theorem ended (optional : top.isOptional = true) :
    Meets readers 0 [top] after [] (.ok (value, []) : Parsed α) :=
  ⟨⟨Nat.le_refl _, List.suffix_rfl⟩, fun _ => standing_of_isOptional optional⟩

theorem starved (required : top.isOptional = false) :
    Meets readers least (top :: expected) after [] (.error .unexpectedEnd : Parsed α) :=
  ⟨.unfinished, rfl, fun _ => standing_of_required required⟩

theorem pure : Meets readers 0 [] after tokens (.ok (value, tokens) : Parsed α) :=
  ⟨⟨Nat.le_refl _, List.suffix_rfl⟩, fun _ => rfl⟩

end Token

end Meets

section

variable (readers : BodyReaders)

variable {punct : Punct} {tokens : List Token}

theorem expectPunct_meets {readers : BodyReaders} {α : Type} {next : List Token → Parsed α}
    {expected after : List Expectation}
    (later : ∀ rest, rest.length < tokens.length → Meets readers 0 expected after rest (next rest)) :
    Meets readers 1 (.punct punct :: expected) after tokens
      ((expectPunct punct tokens).bind next) := by
  cases tokens with
  | nil => exact Meets.starved rfl
  | cons token rest =>
    rw [expectPunct]
    split
    · next isPunct => exact (later rest (Nat.lt_succ_self _)).takes (if_pos isPunct)
    · next other => exact Meets.refuses (if_neg other)

theorem expectName_meets (tokens : List Token) :
    Meets readers 1 [.name] [] tokens (expectName tokens) := by
  cases tokens with
  | nil => exact Meets.starved rfl
  | cons token rest =>
    unfold expectName
    split
    · next text span after same =>
      cases same
      split
      · next reserved => exact Meets.refuses (if_neg (by simp [isName, reserved]))
      · next free => exact Meets.takes (if_pos (by simp [isName, free])) Meets.pure
    · next other =>
      refine Meets.refuses (if_neg fun isName => ?_)
      obtain ⟨kind, span⟩ := token
      cases kind with
      | name text => exact other text span rest rfl
      | _ => cases isName

end

namespace ExpressionReader

open ExpressionGrammar (rank rank_le)

/-- With steps enough, the readers of an expression end as what they wait for. -/
structure MeetsExpectations (readers : BodyReaders) (fuel : Nat) : Prop where
  atLevel : ∀ (level : Level) (tokens : List Token), 16 * tokens.length + rank level + 1 ≤ fuel →
    Meets readers 1 [.level level] [] tokens (atLevel readers fuel level tokens)
  operators : ∀ (level : Level) (left : Expr) (tokens : List Token),
    16 * tokens.length + 1 ≤ fuel →
      Meets readers 0 [.operators level] [] tokens (operators readers fuel level left tokens)
  suffixes : ∀ (base : Expr) (tokens : List Token), 16 * tokens.length + 1 ≤ fuel →
    Meets readers 0 [.suffixes] [] tokens (suffixes readers fuel base tokens)
  items : ∀ (closing : Punct) (tokens : List Token), 16 * tokens.length + 10 ≤ fuel →
    Meets readers 1 [.items closing] [] tokens (items readers fuel closing tokens)
  atom : ∀ tokens : List Token, 16 * tokens.length + 1 ≤ fuel →
    Meets readers 1 [.atom] [] tokens (atom readers fuel tokens)

variable {fuel : Nat}

section Step

variable {readers : BodyReaders} (inner : MeetsExpectations readers fuel)

include inner

theorem atLevel_meets (level : Level) (tokens : List Token)
    (enough : 16 * tokens.length + rank level + 1 ≤ fuel + 1) :
    Meets readers 1 [.level level] [] tokens (atLevel readers (fuel + 1) level tokens) := by
  replace enough := Nat.le_of_succ_le_succ enough
  unfold atLevel
  cases level with
  | suffix =>
    refine Meets.suffixed ((inner.atom tokens enough).weaken.bind fun base rest _ shorter => ?_)
    exact inner.suffixes base rest (by omega)
  | disjunction | conjunction | sum | product =>
    refine Meets.groups (fun _ => rfl)
      ((inner.atLevel _ tokens (by exact enough)).weaken.bind fun left rest _ shorter => ?_)
    exact inner.operators _ left rest (by omega)
  | comparison =>
    refine Meets.compares
      ((inner.atLevel .sum tokens enough).weaken.bind fun left rest _ shorter => ?_)
    dsimp only
    cases rest with
    | nil => exact Meets.ended rfl
    | cons token rest =>
      rw [List.length_cons] at shorter
      rw [List.head?_cons, Option.bind_some]
      split
      · next join joins =>
        have taken : Expectation.comparison.reply readers token.kind = .takes [.level .sum] := by
          rw [Expectation.reply, joins]
          rfl
        have right := inner.atLevel .sum rest (by rw [rank]; omega)
        exact ((right.map (join left)).takesAlone taken).mono (Nat.zero_le _)
      · next absent => exact Meets.leaves (by rw [Expectation.reply, absent]; rfl)
  | negation | minus =>
    dsimp only
    split
    · next change isSign =>
      cases tokens with
      | nil => cases isSign
      | cons token rest =>
        rw [List.length_cons] at enough
        refine Meets.signed (fun _ => rfl) isSign ?_
        exact (inner.atLevel _ rest (by rw [rank]; omega)).map change
    · next absent => exact Meets.unsigned (fun _ => rfl) absent (inner.atLevel _ tokens enough)

theorem operators_meets (level : Level) (left : Expr) (tokens : List Token)
    (enough : 16 * tokens.length + 1 ≤ fuel + 1) :
    Meets readers 0 [.operators level] [] tokens
      (operators readers (fuel + 1) level left tokens) := by
  unfold operators
  cases tokens with
  | nil => exact Meets.ended rfl
  | cons token rest =>
    rw [List.length_cons] at enough
    rw [List.head?_cons, Option.bind_some]
    split
    · next absent => exact Meets.leaves (by rw [Expectation.reply, absent]; rfl)
    · next join joins =>
      have bounded := rank_le level.tighter
      have taken : (Expectation.operators level).reply readers token.kind =
          .takes [.level level.tighter, .operators level] := by
        rw [Expectation.reply, joins]
        rfl
      refine Meets.mono (Meets.takesAlone taken ?_) (Nat.zero_le 2)
      refine (inner.atLevel level.tighter rest (by omega)).weaken.bind fun right after _ shorter => ?_
      exact inner.operators level (join left right) after (by omega)

theorem suffixes_meets (base : Expr) (tokens : List Token)
    (enough : 16 * tokens.length + 1 ≤ fuel + 1) :
    Meets readers 0 [.suffixes] [] tokens (suffixes readers (fuel + 1) base tokens) := by
  cases tokens with
  | nil => exact Meets.ended rfl
  | cons token rest =>
    rw [List.length_cons] at enough
    have passes {next : List Expectation} {result : Parsed Expr}
        (opens : afterSuffix token.kind = some next) (meets : Meets readers 1 next [] rest result) :
        Meets readers 0 [.suffixes] [] (token :: rest) result :=
      (meets.takesAlone (by rw [Expectation.reply, opens]; rfl)).mono (Nat.zero_le _)
    rw [suffixes]
    split
    · next isCall =>
      refine passes (by rw [isCall]; rfl) ?_
      refine (inner.items .rparen rest (by omega)).weaken.bind fun values after _ shorter => ?_
      exact inner.suffixes (.call base values) after (by omega)
    · next isIndex =>
      refine passes (by rw [isIndex]; rfl) ?_
      refine (inner.atLevel .disjunction rest (by rw [rank]; omega)).weaken.bind
        fun value after _ shorter => ?_
      refine Meets.mono (expectPunct_meets fun final less => ?_) (Nat.zero_le 1)
      exact inner.suffixes (.index base value) final (by omega)
    · next isMember =>
      refine passes (by rw [isMember]; rfl) ?_
      refine (expectName_meets readers rest).weaken.bind fun name after _ shorter => ?_
      exact inner.suffixes (.member base name) after (by omega)
    · have absent : afterSuffix token.kind = none := by simp [afterSuffix]
      exact Meets.leaves (by rw [Expectation.reply, absent]; rfl)

theorem items_meets (closing : Punct) (tokens : List Token)
    (enough : 16 * tokens.length + 10 ≤ fuel + 1) :
    Meets readers 1 [.items closing] [] tokens (items readers (fuel + 1) closing tokens) := by
  unfold items
  split
  · next closed =>
    cases tokens with
    | nil => cases closed
    | cons token rest => exact Meets.takes (if_pos closed) Meets.pure
  · next unclosed =>
    suffices both : Meets readers 1 [.level .disjunction, .separator closing] [] tokens _ from
      both.of_eq fun stack => standing_items (by
        rw [List.head?_map, Option.any_map]
        exact Bool.eq_false_iff.mpr unclosed)
    refine (inner.atLevel .disjunction tokens (Nat.le_of_succ_le_succ enough)).weaken.bind
      fun first rest _ shorter => ?_
    dsimp only
    split
    · next comma =>
      cases rest with
      | nil => cases comma
      | cons token after =>
        rw [List.length_cons] at shorter
        have taken : (Expectation.separator closing).reply readers token.kind =
            .takes [.items closing] := if_pos comma
        have others := inner.items closing after (by omega)
        exact ((others.map (first :: ·)).takesAlone taken).mono (Nat.zero_le _)
    · next last =>
      suffices closes : Meets readers 0 [.punct closing] [] rest _ from
        closes.of_eq fun stack => standing_separator (by
          rw [List.head?_map, Option.any_map]
          exact Bool.eq_false_iff.mpr last)
      exact Meets.mono (expectPunct_meets fun final _ => Meets.pure) (Nat.zero_le 1)

theorem atom_meets (tokens : List Token) (enough : 16 * tokens.length + 1 ≤ fuel + 1) :
    Meets readers 1 [.atom] [] tokens (atom readers (fuel + 1) tokens) := by
  cases tokens with
  | nil => exact Meets.starved rfl
  | cons token rest =>
    rw [List.length_cons] at enough
    have passes {next : List Expectation} {result : Parsed Expr}
        (opens : afterAtom readers token.kind = .ok next)
        (meets : Meets readers 0 next [] rest result) :
        Meets readers 1 [.atom] [] (token :: rest) result :=
      meets.takesAlone (by rw [Expectation.reply, opens]; rfl)
    have refused (opens : afterAtom readers token.kind = .error .kind) :
        Expectation.atom.reply readers token.kind = .refuses .kind := by
      rw [Expectation.reply, opens]
      rfl
    rw [atom]
    split
    case h_5 text named =>
      split
      · next constant found => exact passes (by simp [named, afterAtom, found]) Meets.pure
      · next absent =>
        split
        · next reserved =>
          exact Meets.refuses (refused (by simp [named, afterAtom, absent, reserved]))
        · next free => exact passes (by simp [named, afterAtom, free]) Meets.pure
    case h_6 isGroup =>
      refine passes (by rw [isGroup]; rfl) (Meets.mono ?_ (Nat.zero_le 1))
      refine (inner.atLevel .disjunction rest (by rw [rank]; omega)).weaken.bind
        fun value after _ shorter => ?_
      exact Meets.mono (expectPunct_meets fun final _ => Meets.pure) (Nat.zero_le 1)
    case h_7 isList =>
      refine passes (by rw [isList]; rfl) (Meets.mono ?_ (Nat.zero_le 1))
      exact (inner.items .rbracket rest (by omega)).map Expr.list
    case h_8 capture body isBody =>
      cases read : readers.chain body.toList with
      | error error =>
        refine ⟨.refused .body, ⟨token, List.mem_cons_self, capture, body, error, isBody, read, rfl⟩,
          fun stack => standing_of_refuses ?_⟩
        rw [Expectation.reply, isBody, afterAtom, read]
        rfl
      | ok chain =>
        refine passes ?_ Meets.pure
        rw [isBody, afterAtom, read]
        rfl
    case h_9 =>
      refine Meets.refuses (refused ?_)
      unfold afterAtom
      split <;> first | rfl | simp_all
    all_goals
      next isLiteral => exact passes (by rw [isLiteral]; rfl) Meets.pure

end Step

theorem meetsExpectations (readers : BodyReaders) (fuel : Nat) :
    MeetsExpectations readers fuel := by
  induction fuel with
  | zero => constructor <;> intros <;> omega
  | succ fuel inner =>
    exact ⟨atLevel_meets inner, operators_meets inner, suffixes_meets inner, items_meets inner,
      atom_meets inner⟩

theorem expression_meets (readers : BodyReaders) (tokens : List Token) :
    Meets readers 1 [.level .disjunction] [] tokens (expression readers tokens) := by
  refine (meetsExpectations readers _).atLevel .disjunction tokens ?_
  rw [steps, rank]
  omega

end ExpressionReader

end HybridShell
