import HybridShell.Proofs.DecisionSettles
import HybridShell.Proofs.ExpectedUnits

/-!
# The open statements of a unit

Every open statement that reading a unit leaves, at any depth, holds the two
readings of a stretch of its tokens.  So its host reading is a statement
without a keyword, and its command reading is a command line.
-/

namespace HybridShell

namespace UnitGrammar

open UnitReader

/-- Something was read from a stretch of some tokens, in both languages. -/
def AreReadings (source : List Char) (readers : BodyReaders) (tokens : List Token)
    (found : Readings) : Prop :=
  ∃ first others, (first :: others).Sublist tokens ∧ found = readings source readers first others

def Part.openReadings : Part → List Readings
  | .statements _ body | .block body | .guarded _ body => OpenReadings.ofBlock body
  | .alternatives branches => OpenReadings.ofAlternatives branches
  | .statement _ written => OpenReadings.ofStatement written

/-- The tokens that a part is read from, with the first one of a statement. -/
def Part.whole (tokens : List Token) : Part → List Token
  | .statement first _ => first :: tokens
  | _ => tokens

def ReadFromTokens (source : List Char) (readers : BodyReaders) (tokens : List Token)
    (found : List Readings) : Prop :=
  ∀ readings ∈ found, AreReadings source readers tokens readings

section

variable {source : List Char} {readers : BodyReaders} {ending : Ending} {tokens rest : List Token}
  {part : Part}

namespace ReadFromTokens

variable {first second : List Readings}

theorem nil : ReadFromTokens source readers tokens [] := by
  intro readings member
  cases member

theorem append (inFirst : ReadFromTokens source readers tokens first)
    (inSecond : ReadFromTokens source readers tokens second) :
    ReadFromTokens source readers tokens (first ++ second) := by
  intro readings member
  rcases List.mem_append.mp member with member | member
  · exact inFirst readings member
  · exact inSecond readings member

theorem mono (inRest : ReadFromTokens source readers rest first) (among : rest <:+ tokens) :
    ReadFromTokens source readers tokens first := by
  intro readings member
  obtain ⟨token, others, within, same⟩ := inRest readings member
  exact ⟨token, others, within.trans among.sublist, same⟩

end ReadFromTokens

theorem suffix_of_dropWhile {test : Token → Bool} {first : Token}
    (starts : tokens.dropWhile test = first :: rest) : first :: rest <:+ tokens :=
  starts ▸ List.dropWhile_suffix test

theorem shorter_of_expression {value : Expr}
    (read : ExpressionReader.expression readers tokens = .ok (value, rest)) :
    rest.length < tokens.length ∧ rest <:+ tokens :=
  (ExpressionReader.expression_meets readers tokens).shorter read

theorem shorter_of_expectName {name : String} (named : expectName tokens = .ok (name, rest)) :
    rest.length < tokens.length ∧ rest <:+ tokens :=
  (expectName_meets (.forText []) tokens).shorter named

theorem shorter_of_parameters {names : List String}
    (listed : (expectPunct .lparen tokens).bind parameters = .ok (names, rest)) :
    rest.length < tokens.length ∧ rest <:+ tokens := by
  have meets : Meets (.forText []) 1 [.punct .lparen, .parameters] [] tokens
      ((expectPunct .lparen tokens).bind parameters) :=
    expectPunct_meets fun inside _ => (parameters_meets _ inside).mono (Nat.zero_le 1)
  exact meets.shorter listed

theorem Reads.suffix (reads : Reads source readers ending part tokens rest) : rest <:+ tokens := by
  have next (token : Token) (tokens : List Token) : tokens <:+ token :: tokens :=
    List.suffix_cons token tokens
  induction reads with
  | done => exact List.nil_suffix
  | closed ended => exact suffix_of_dropWhile ended
  | cons starts _ _ _ _ ihOne ihMore =>
    exact ihMore.trans (ihOne.trans ((next _ _).trans (suffix_of_dropWhile starts)))
  | block _ _ _ ih => exact (next _ _).trans (ih.trans (next _ _))
  | guarded guard _ ih => exact ih.trans (shorter_of_expression guard).2
  | noBranch | returnNothing | alone => exact List.suffix_rfl
  | otherwise starts _ _ ih => exact ih.trans ((next _ _).trans (suffix_of_dropWhile starts))
  | branch starts _ _ _ ihTaken ihOthers =>
    exact ihOthers.trans (ihTaken.trans ((next _ _).trans (suffix_of_dropWhile starts)))
  | conditional _ _ _ ihTaken ihOthers => exact ihOthers.trans ihTaken
  | whileLoop _ _ ih => exact ih
  | forLoop _ named _ _ ih => exact ih.trans ((next _ _).trans (shorter_of_expectName named).2)
  | define _ named listed _ ih =>
    exact ih.trans ((shorter_of_parameters listed).2.trans (shorter_of_expectName named).2)
  | returnValue _ _ given => exact (shorter_of_expression given).2
  | undecided => exact List.drop_suffix _ _

theorem Reads.readFromTokens (reads : Reads source readers ending part tokens rest) :
    ReadFromTokens source readers (part.whole tokens) part.openReadings := by
  have next (token : Token) (tokens : List Token) : tokens <:+ token :: tokens :=
    List.suffix_cons token tokens
  induction reads with
  | done | closed | noBranch | returnNothing | returnValue => exact .nil
  | cons starts _ one _ _ ihOne ihMore =>
    have within := suffix_of_dropWhile starts
    exact (ihOne.mono within).append (ihMore.mono (one.suffix.trans ((next _ _).trans within)))
  | block _ _ _ ih | whileLoop _ _ ih => exact ih.mono (next _ _)
  | guarded guard _ ih => exact ih.mono (shorter_of_expression guard).2
  | otherwise starts _ _ ih => exact ih.mono ((next _ _).trans (suffix_of_dropWhile starts))
  | branch starts _ taken _ ihTaken ihOthers =>
    have within := (next _ _).trans (suffix_of_dropWhile starts)
    exact (ihTaken.mono within).append (ihOthers.mono (taken.suffix.trans within))
  | conditional _ taken _ ihTaken ihOthers =>
    exact (ihTaken.mono (next _ _)).append (ihOthers.mono (taken.suffix.trans (next _ _)))
  | forLoop _ named _ _ ih =>
    exact ih.mono ((next _ _).trans ((shorter_of_expectName named).2.trans (next _ _)))
  | define _ named listed _ ih =>
    have within := (shorter_of_parameters listed).2.trans (shorter_of_expectName named).2
    exact ih.mono (within.trans (next _ _))
  | alone _ known =>
    simp only [loneKeywords, List.mem_cons, Prod.mk.injEq, List.not_mem_nil, or_false] at known
    obtain ⟨_, rfl⟩ | ⟨_, rfl⟩ | ⟨_, rfl⟩ := known <;> exact .nil
  | undecided =>
    intro readings member
    rw [Part.openReadings, OpenReadings.ofStatement, List.mem_singleton] at member
    exact ⟨_, _, (List.take_sublist _ _).cons_cons _, member⟩

end

end UnitGrammar

variable {source : String} {unit : List Statement}

theorem parseUnit_eq_ok_iff :
    parseUnit source = .ok unit ↔
      ∃ tokens rest, lex source = .ok tokens ∧
        UnitReader.statements source.toList (.forText source.toList)
          (UnitReader.steps tokens.length) false tokens = .ok (unit, rest) := by
  constructor
  · intro ok
    obtain ⟨tokens, tokensOk, ok⟩ := Except.bind_eq_ok_iff.mp ok
    obtain ⟨⟨found, rest⟩, unitOk, ok⟩ := Except.bind_eq_ok_iff.mp ok
    cases ok
    exact ⟨tokens, rest, Except.mapError_eq_ok_iff.mp tokensOk, unitOk⟩
  · rintro ⟨tokens, rest, lexOk, unitOk⟩
    refine Except.bind_eq_ok_iff.mpr ⟨tokens, Except.mapError_eq_ok_iff.mpr lexOk, ?_⟩
    exact Except.bind_eq_ok_iff.mpr ⟨(unit, rest), unitOk, rfl⟩

theorem areReadings_of_parseUnit (ok : parseUnit source = .ok unit) {readings : Readings}
    (member : readings ∈ OpenReadings.ofBlock unit) :
    ∃ tokens, lex source = .ok tokens ∧
      UnitGrammar.AreReadings source.toList (.forText source.toList) tokens readings := by
  obtain ⟨tokens, rest, lexed, unitOk⟩ := parseUnit_eq_ok_iff.mp ok
  have reads := UnitGrammar.reads_of_isRead (.statements _ _) unitOk
  exact ⟨tokens, lexed, reads.readFromTokens readings member⟩

namespace Readings

/-- Both readings are statements without a keyword, the second a command line. -/
structure IsPlain (readings : Readings) : Prop where
  host : ∀ {statement}, readings.host = .ok statement → ∃ simple, statement = .simple simple
  command : ∀ {statement}, readings.command = .ok statement →
    ∃ chain, statement = .simple (.commandLine chain)

end Readings

theorem UnitReader.isPlain_readings (source : List Char) (readers : BodyReaders)
    (first : Token) (others : List Token) : (readings source readers first others).IsPlain where
  host := by
    intro statement ok
    obtain ⟨simple, _, rfl⟩ := Except.map_eq_ok_iff.mp ok
    exact ⟨simple, rfl⟩
  command := by
    intro statement ok
    obtain ⟨chain, _, rfl⟩ := Except.map_eq_ok_iff.mp ok
    exact ⟨chain, rfl⟩

theorem isPlain_of_parseUnit (ok : parseUnit source = .ok unit) :
    ∀ readings ∈ OpenReadings.ofBlock unit, readings.IsPlain := by
  intro readings member
  obtain ⟨tokens, _, first, others, _, rfl⟩ := areReadings_of_parseUnit ok member
  exact UnitReader.isPlain_readings _ _ first others

end HybridShell
