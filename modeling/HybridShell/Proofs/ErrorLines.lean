import HybridShell.Proofs.UnitReadings

/-!
# The lines of errors

Every text in brackets counts its lines from one.  The errors of its grammar
are moved to the lines of the text around it, so that they point into the
statement in which they are found, however deep the brackets nest.  The errors
of the lexer are not moved: they count from the start of the text that was
lexed, which may be far from where the statement starts.
-/

namespace HybridShell

namespace ParseError

def line? : ParseError → Option Nat
  | malformed line _ => some line
  | lexical cause => some cause.line
  | unexpectedEnd | exhausted => none

def grammarLine? : ParseError → Option Nat
  | malformed line _ => some line
  | _ => none

theorem grammarLine?_eq_some_iff {error : ParseError} {line : Nat} :
    error.grammarLine? = some line ↔ ∃ fault, error = .malformed line fault := by
  cases error <;> simp [grammarLine?]

/--
An error points into a text that starts on a line.  If it comes from the lexer, then it is that of
some text in there instead.
-/
def Within (start : Nat) (text : List Char) : ParseError → Prop
  | malformed line _ => start ≤ line ∧ line ≤ start + text.count '\n'
  | lexical cause => ∃ body, body <:+: text ∧ Lexer.tokensFrom .start 0 body = .error cause
  | unexpectedEnd | exhausted => True

variable {start : Nat} {text body : List Char} {error : ParseError}

theorem Within.mono (within : error.Within 1 body) (inside : body <:+: text) :
    error.Within 1 text := by
  cases error with
  | malformed line fault =>
    exact ⟨within.1, within.2.trans (Nat.add_le_add_left (inside.sublist.count_le _) 1)⟩
  | lexical cause =>
    obtain ⟨lexed, among, failed⟩ := within
    exact ⟨lexed, among.trans inside, failed⟩
  | unexpectedEnd | exhausted => trivial

/-- An error of a body that starts somewhere in a text is moved to its place there. -/
theorem Within.relocate {before chunk after : List Char} (within : error.Within 1 body)
    (inside : body <:+: chunk) :
    (error.relocate (start + before.count '\n')).Within start (before ++ (chunk ++ after)) := by
  have fewer := inside.sublist.count_le '\n'
  cases error with
  | malformed line fault => grind [ParseError.relocate, Within]
  | lexical cause =>
    obtain ⟨lexed, among, failed⟩ := within
    exact ⟨lexed, among.trans (inside.trans ⟨before, after, by simp⟩), failed⟩
  | unexpectedEnd | exhausted => trivial

end ParseError

theorem Lexer.line_of_error {position : Position} {depth : Nat} {text : List Char}
    {cause : LexError} (failed : tokensFrom position depth text = .error cause) :
    position.line ≤ cause.line ∧ cause.line ≤ position.line + text.count '\n' := by
  obtain ⟨before, tokens, final, first, tail, rfl, reaches, isFault⟩ :=
    exists_reaches_of_error failed
  rw [reaches.tokensFrom, tokensFrom_error isFault] at failed
  have line : (position.past before).line = cause.line :=
    congrArg LexError.line (Except.error.inj failed)
  rw [← line]
  simp only [Position.past, List.count_append]
  omega

/-- The errors of readers point into the texts that they read. -/
structure BodyReaders.PointWithin (readers : BodyReaders) : Prop where
  chain : ∀ {text error}, readers.chain text = .error error → error.Within 1 text
  expression : ∀ {text error}, readers.expression text = .error error → error.Within 1 text

/-! ### Host text -/

section Host

variable {readers : BodyReaders} {start : Nat} {text : List Char} {tokens rest : List Token}
  {error : ParseError}

theorem Lexer.StandsIn.within {token : Token} (stands : StandsIn start text token)
    (fault : GrammarFault) : (ParseError.malformed token.span.line fault).Within start text := by
  obtain ⟨before, chunk, after, rfl, line, _⟩ := stands
  rw [line]
  refine ⟨Nat.le_add_right _ _, ?_⟩
  simp

variable (stand : ∀ token ∈ tokens, Lexer.StandsIn start text token)

include stand

theorem within_unexpected (among : rest <:+ tokens) : (unexpected rest).Within start text := by
  cases rest with
  | nil => trivial
  | cons token later => exact (stand token (among.subset List.mem_cons_self)).within _

theorem within_leftOver {α : Type} {value : α}
    (failed : (match rest with
      | [] => pure value
      | _ :: _ => throw (unexpected rest) : Except ParseError α) = .error error)
    (among : rest <:+ tokens) : error.Within start text := by
  split at failed
  · cases failed
  · cases failed
    exact within_unexpected stand among

variable (pointWithin : readers.PointWithin)

include pointWithin

theorem Standing.Explains.within {found : Standing} (explains : found.Explains readers tokens error) :
    error.Within start text := by
  cases found with
  | finished => exact explains.elim
  | unfinished =>
    cases explains
    trivial
  | refused reason =>
    cases reason with
    | kind =>
      obtain ⟨token, member, fault, rfl⟩ := explains
      exact (stand token member).within fault
    | body =>
      obtain ⟨token, member, capture, body, nested, isBody, failed, rfl⟩ := explains
      obtain ⟨before, chunk, after, rfl, line, inside⟩ := stand token member
      rw [line]
      exact (pointWithin.chain failed).relocate (inside capture body isBody)

theorem within_expression (among : rest <:+ tokens)
    (failed : ExpressionReader.expression readers rest = .error error) :
    error.Within start text := by
  have meets := ExpressionReader.expression_meets readers rest
  rw [failed] at meets
  obtain ⟨found, explains, _⟩ := meets
  exact explains.within (fun token member => stand token (among.subset member)) pointWithin

theorem within_hostReading {first : Token} {others : List Token} (whole : tokens = first :: others)
    (failed : UnitReader.hostReading readers tokens = .error error) :
    error.Within start text := by
  rw [UnitReader.hostReading] at failed
  obtain failed | ⟨⟨left, rest⟩, read, failed⟩ := Except.bind_eq_error_iff.mp failed
  · exact within_expression stand pointWithin List.suffix_rfl failed
  have among := (UnitGrammar.shorter_of_expression read).2
  dsimp only at failed
  split at failed
  · have later := (List.drop_suffix 1 rest).trans among
    split at failed
    · obtain failed | ⟨⟨value, after⟩, readToo, failed⟩ := Except.bind_eq_error_iff.mp failed
      · exact within_expression stand pointWithin later failed
      · exact within_leftOver stand failed ((UnitGrammar.shorter_of_expression readToo).2.trans later)
    · cases failed
      subst whole
      exact (stand first List.mem_cons_self).within _
  · exact within_leftOver stand failed among

omit stand

theorem within_readWith (failed : ExpressionReader.readWith readers text = .error error) :
    error.Within 1 text := by
  rw [ExpressionReader.readWith] at failed
  obtain failed | ⟨tokens, lexed, failed⟩ := Except.bind_eq_error_iff.mp failed
  · cases tokens : Lexer.tokensFrom .start 0 text with rw [tokens] at failed
    | ok found =>
      cases failed
    | error cause =>
      cases failed
      exact ⟨text, List.infix_rfl, tokens⟩
  obtain ⟨final, reaches⟩ := Lexer.exists_reaches_of_ok (Except.mapError_eq_ok_iff.mp lexed)
  have stand : ∀ token ∈ tokens.filter (!·.kind.isNewline), Lexer.StandsIn 1 text token := by
    intro token member
    obtain ⟨front, chunk, after, whole, _, _, _, line, _, inside⟩ :=
      reaches.exists_place_of_mem (List.mem_of_mem_filter member)
    exact ⟨front, chunk, after, whole, line, inside⟩
  obtain failed | ⟨⟨value, rest⟩, read, failed⟩ := Except.bind_eq_error_iff.mp failed
  · exact within_expression stand pointWithin List.suffix_rfl failed
  · exact within_leftOver stand failed (UnitGrammar.shorter_of_expression read).2

end Host

/-! ### Command text -/

namespace CommandScanner

variable {readers : BodyReaders} {cursor : Cursor} {error : ParseError}

/--
What can be wrong with the text at a cursor: something on a line from there on, or a body in
brackets.
-/
def Cursor.Fails (readers : BodyReaders) (cursor : Cursor) (error : ParseError) : Prop :=
  (∃ count fault, error = .malformed (cursor.advance count).line fault) ∨
    (∃ body, body <:+: cursor.rest ∧
      (readers.chain body = .error error ∨ readers.expression body = .error error)) ∨
    error = .exhausted

namespace Cursor

theorem Fails.of_advance (cursor : Cursor) (count : Nat)
    (fails : (cursor.advance count).Fails readers error) : cursor.Fails readers error := by
  obtain ⟨more, fault, rfl⟩ | ⟨body, inside, failed⟩ | rfl := fails
  · refine .inl ⟨count + more, fault, ?_⟩
    simp only [advance, List.take_add, List.count_append, Nat.add_assoc]
  · exact .inr (.inl ⟨body, inside.trans (List.drop_suffix _ _).isInfix, failed⟩)
  · exact .inr (.inr rfl)

theorem Fails.of_fault {α : Type} {fault : GrammarFault}
    (failed : (cursor.fault fault : Except ParseError α) = .error error) :
    cursor.Fails readers error := by
  cases failed
  exact .inl ⟨0, fault, rfl⟩

theorem Fails.within {text : List Char} (fails : Fails readers ⟨1, text⟩ error)
    (pointWithin : readers.PointWithin) : error.Within 1 text := by
  obtain ⟨count, fault, rfl⟩ | ⟨body, inside, failed⟩ | rfl := fails
  · exact ⟨Nat.le_add_right _ _,
      Nat.add_le_add_left ((List.take_sublist _ _).count_le _) 1⟩
  · exact (failed.elim pointWithin.chain pointWithin.expression).mono inside
  · trivial

end Cursor

theorem body_fails {α β : Type} {opener : String} {read : List Char → Except ParseError α}
    {given : α → Nat → β}
    (refused : ∀ text, read text = .error error →
      readers.chain text = .error error ∨ readers.expression text = .error error)
    (failed : (do
      let (text, taken) ← body cursor opener
      let value ← read text
      Except.ok (given value taken)) = .error error) : cursor.Fails readers error := by
  obtain failed | ⟨⟨text, taken⟩, found, failed⟩ := Except.bind_eq_error_iff.mp failed
  · rw [body] at failed
    split at failed
    · cases failed
    · exact .of_fault failed
  · have inside : text <:+: cursor.rest := by
      rw [body] at found
      split at found
      · cases found
        exact (List.take_prefix _ _).isInfix.trans (List.drop_suffix _ _).isInfix
      · cases found
    obtain failed | ⟨_, _, failed⟩ := Except.bind_eq_error_iff.mp failed
    · exact .inr (.inl ⟨text, inside, refused text failed⟩)
    · cases failed

theorem wordStep_fails {atStart : Bool} {line : Nat} {first : Char} {tail : List Char}
    (failed : wordStep readers atStart line first tail = .error error) :
    Cursor.Fails readers ⟨line, first :: tail⟩ error := by
  unfold wordStep at failed
  split at failed
  case h_1 =>
    dsimp only at failed
    split at failed
    · cases failed
    · exact .of_fault failed
  case h_2 =>
    split at failed
    · split at failed <;> cases failed
    · exact .of_advance ⟨line, '"' :: tail⟩ (tail.length + 1) (.of_fault failed)
  case h_5 | h_7 => exact body_fails (fun _ => .inl) failed
  case h_6 => grind
  case h_8 => exact body_fails (fun _ => .inr) failed
  case h_9 => grind
  all_goals cases failed

theorem wordAtoms_fails {atStart : Bool} {line : Nat} {text : List Char}
    (failed : wordAtoms readers atStart line text = .error error) :
    Cursor.Fails readers ⟨line, text⟩ error := by
  fun_induction wordAtoms readers atStart line text with
  | case1 | case2 => cases failed
  | case3 atStart line first tail _ cause step =>
    cases failed
    exact wordStep_fails step
  | case4 atStart line first tail _ atoms taken _ passed cause later ih =>
    cases failed
    exact .of_advance ⟨line, first :: tail⟩ (taken + 1) (ih later)
  | case5 => cases failed

theorem word_fails (failed : word readers cursor = .error error) : cursor.Fails readers error :=
  wordAtoms_fails (Except.eq_error_of_map failed)

theorem redirection_fails {operator : RedirectOperator}
    (failed : redirection readers cursor operator = .error error) :
    cursor.Fails readers error := by
  rw [redirection] at failed
  split at failed
  · cases failed
  · refine .of_advance cursor operator.length ?_
    refine .of_advance _ (blankLength (cursor.advance operator.length).rest) ?_
    dsimp only at failed
    split at failed
    · exact .of_fault failed
    · exact word_fails (Except.eq_error_of_map failed)

theorem tokenAt_fails (failed : tokenAt readers cursor = .error error) :
    cursor.Fails readers error := by
  unfold tokenAt at failed
  split at failed
  case h_4 => exact redirection_fails (Except.eq_error_of_map failed)
  case h_6 | h_7 | h_8 => exact .of_fault failed
  case h_9 => exact word_fails (Except.eq_error_of_map failed)
  all_goals cases failed

theorem tokensFrom_fails {fuel : Nat} (failed : tokensFrom readers fuel cursor = .error error) :
    cursor.Fails readers error := by
  induction fuel generalizing cursor with
  | zero =>
    cases failed
    exact .inr (.inr rfl)
  | succ fuel ih =>
    rw [tokensFrom] at failed
    split at failed
    · cases failed
    · refine .of_advance cursor (blankLength cursor.rest) ?_
      split at failed
      · next cause given =>
        cases failed
        exact tokenAt_fails given
      · exact .of_advance _ _ (ih (Except.eq_error_of_map failed))

end CommandScanner

namespace ChainReader

variable {tokens : List CommandToken} {error : ParseError}

theorem line_of_command (failed : command tokens = .error error) :
    ∃ fault, error = .malformed 1 fault := by
  grind [command]

theorem line_of_pipeline (failed : pipeline tokens = .error error) :
    ∃ fault, error = .malformed 1 fault := by
  fun_induction pipeline tokens with
  | case1 tokens cause found =>
    cases failed
    exact line_of_command found
  | case2 tokens first rest _ cause later ih => grind
  | case3 | case4 => cases failed

theorem line_of_negation (failed : negation tokens = .error error) :
    ∃ fault, error = .malformed 1 fault := by
  fun_induction negation tokens with
  | case1 => grind
  | case2 token rest _ cause later ih => grind
  | case4 token rest _ cause found =>
    cases failed
    exact line_of_pipeline found
  | case3 | case5 => cases failed

theorem line_of_operators {left : Chain} (failed : operators left tokens = .error error) :
    ∃ fault, error = .malformed 1 fault := by
  fun_induction operators left tokens with
  | case1 | case4 => cases failed
  | case2 left token rest _ cause found =>
    cases failed
    exact line_of_negation found
  | case3 left token rest _ right after _ ih => exact ih failed

theorem line_of_leftOver {chain : Chain} {left : List CommandToken}
    (failed : (match left with
      | [] => pure chain
      | token :: _ => throw (.malformed 1 (.unexpectedMark token.mark)) :
        Except ParseError Chain) = .error error) : ∃ fault, error = .malformed 1 fault := by
  split at failed <;> cases failed
  exact ⟨_, rfl⟩

/-- The grammar of chains knows no lines. -/
theorem line_of_chain (failed : chain tokens = .error error) :
    ∃ fault, error = .malformed 1 fault := by
  rw [chain] at failed
  obtain failed | ⟨⟨first, rest⟩, _, failed⟩ := Except.bind_eq_error_iff.mp failed
  · exact line_of_negation failed
  obtain failed | ⟨⟨whole, after⟩, _, failed⟩ := Except.bind_eq_error_iff.mp failed
  · exact line_of_operators failed
  dsimp only at failed
  split at failed
  · obtain failed | ⟨result, _, failed⟩ := Except.bind_eq_error_iff.mp failed
    · unfold inBackground at failed
      grind
    · exact line_of_leftOver failed
  · exact line_of_leftOver failed

end ChainReader

namespace BodyReaders

theorem pointWithin_ofDepth (depth : Nat) : (ofDepth depth).PointWithin := by
  induction depth with
  | zero => constructor <;> rintro text error ⟨⟩ <;> trivial
  | succ depth ih =>
    refine ⟨fun {text error} failed => ?_, within_readWith ih⟩
    obtain failed | ⟨tokens, _, failed⟩ := Except.bind_eq_error_iff.mp failed
    · exact (CommandScanner.tokensFrom_fails failed).within ih
    · obtain ⟨fault, rfl⟩ := ChainReader.line_of_chain failed
      exact ⟨Nat.le_refl _, Nat.le_add_right _ _⟩

end BodyReaders

/-- The errors of an open statement point into the text of its tokens. -/
theorem UnitReader.within_readings {source : List Char} {depth : Nat} {tokens : List Token}
    (lexed : Lexer.tokensFrom .start 0 source = .ok tokens) {first : Token} {others : List Token}
    (among : (first :: others).Sublist tokens) {error : ParseError}
    (failed : (readings source (.ofDepth depth) first others).host = .error error ∨
      (readings source (.ofDepth depth) first others).command = .error error) :
    0 < first.span.line ∧ error.Within first.span.line (textOf source first others) := by
  obtain ⟨final, reaches⟩ := Lexer.exists_reaches_of_ok lexed
  obtain ⟨before, middle, after, rfl, start, stop, stand⟩ := reaches.exists_stretch among
  have text : textOf (before ++ (middle ++ after)) first others = middle := by
    change Text.slice _ first.span.start _ = _
    rw [start, stop, Text.slice_append]
  rw [text]
  constructor
  · obtain ⟨front, _, _, _, _, _, _, line, _⟩ :=
      reaches.exists_place_of_mem (among.subset List.mem_cons_self)
    omega
  obtain failed | failed := failed
  · exact within_hostReading stand (BodyReaders.pointWithin_ofDepth depth) rfl
      (Except.eq_error_of_map failed)
  · have failed := Except.eq_error_of_map failed
    change Except.mapError _ (parseChain (String.ofList (textOf _ first others))) = _ at failed
    rw [text] at failed
    cases read : parseChain (String.ofList middle) with rw [read] at failed
    | ok chain =>
      cases failed
    | error cause =>
      cases failed
      rw [parseChain, String.toList_ofList] at read
      have within : (cause.relocate (first.span.line + [].count '\n')).Within first.span.line
          ([] ++ (middle ++ [])) :=
        ((BodyReaders.pointWithin_ofDepth _).chain read).relocate List.infix_rfl
      rwa [List.append_nil] at within

variable {source : String} {unit : List Statement} {readings : Readings} {error : ParseError}

/--
The line of an error of a statement is never past the end of the statement.  If the error is one of
the grammar, at any depth of brackets, then it is not before the start either.  An error of the
lexer counts its lines from the start of the text that was lexed.
-/
theorem grammar_errors_point_into_their_statement (ok : parseUnit source = .ok unit)
    (isOpen : readings ∈ OpenReadings.ofBlock unit)
    (failed : readings.host = .error error ∨ readings.command = .error error) :
    let text := Text.slice source.toList readings.span.start readings.span.stop
    (∀ line, error.line? = some line → 1 ≤ line ∧ line ≤ readings.span.line + text.count '\n') ∧
      (∀ line, error.grammarLine? = some line → readings.span.line ≤ line) ∧
      ∀ cause, error = .lexical cause →
        ∃ body, body <:+: text ∧ lex (String.ofList body) = .error cause := by
  obtain ⟨tokens, lexed, first, others, among, rfl⟩ := areReadings_of_parseUnit ok isOpen
  obtain ⟨positive, within⟩ := UnitReader.within_readings lexed among failed
  change let text := UnitReader.textOf source.toList first others
    (∀ line, _ → _ ∧ line ≤ first.span.line + text.count '\n') ∧ _
  cases error with
  | malformed line fault =>
    refine ⟨?_, ?_, by rintro _ ⟨⟩⟩
    · rintro _ ⟨⟩
      exact ⟨positive.trans_le within.1, within.2⟩
    · rintro _ ⟨⟩
      exact within.1
  | lexical cause =>
    obtain ⟨body, inside, lexFailed⟩ := within
    refine ⟨?_, by rintro _ ⟨⟩, ?_⟩
    · rintro _ ⟨⟩
      have bounds := Lexer.line_of_error lexFailed
      have fewer := inside.sublist.count_le '\n'
      have first : Position.start.line = 1 := rfl
      omega
    · rintro _ ⟨⟩
      exact ⟨body, inside, by rwa [lex, String.toList_ofList]⟩
  | unexpectedEnd | exhausted => refine ⟨?_, ?_, ?_⟩ <;> rintro _ ⟨⟩

def Readings.failsFrom (readings : Readings) (start : Nat) (test : ParseError → Bool)
    (reading : Except ParseError Statement) : Bool :=
  match reading with
  | .error error => readings.span.line == start && test error
  | .ok _ => false

theorem Readings.exists_of_failsFrom {start : Nat} {test : ParseError → Bool}
    {reading : Readings → Except ParseError Statement}
    (found : (parseUnit source).toOption.any (fun unit => (OpenReadings.ofBlock unit).any
      fun readings => readings.failsFrom start test (reading readings)) = true) :
    ∃ unit readings error, parseUnit source = .ok unit ∧ readings ∈ OpenReadings.ofBlock unit ∧
      reading readings = .error error ∧ readings.span.line = start ∧ test error = true := by
  obtain ⟨unit, ok, found⟩ := Except.exists_of_toOption_any found
  obtain ⟨readings, isOpen, fails⟩ := List.any_eq_true.mp found
  unfold failsFrom at fails
  grind

/-- A capture that goes on over the end of a line, before a semicolon that cannot stand there. -/
def brokenCapture : String :=
  "\n\nx = $(a\n ; b)"

theorem grammar_errors_point_into_their_statement_brokenCapture :
    ∃ unit readings fault, parseUnit brokenCapture = .ok unit ∧
      readings ∈ OpenReadings.ofBlock unit ∧ readings.host = .error (.malformed 4 fault) ∧
      readings.span.line = 3 ∧ readings.span.line ≤ 4 ∧ 4 ≤ readings.span.line +
        (Text.slice brokenCapture.toList readings.span.start readings.span.stop).count '\n' := by
  have found : ((parseUnit brokenCapture).toOption.any fun unit => (OpenReadings.ofBlock unit).any
      fun readings => readings.failsFrom 3 (·.grammarLine? == some 4) readings.host) = true := by
    decide +kernel
  obtain ⟨unit, readings, error, ok, isOpen, failed, start, line⟩ :=
    Readings.exists_of_failsFrom found
  obtain ⟨fault, rfl⟩ := ParseError.grammarLine?_eq_some_iff.mp (eq_of_beq line)
  obtain ⟨inLines, notBefore, _⟩ :=
    grammar_errors_point_into_their_statement ok isOpen (.inl failed)
  exact ⟨unit, readings, fault, ok, isOpen, failed, start, notBefore 4 rfl, (inLines 4 rfl).2⟩

/-- A number in a splice in a capture on the third line is out of range on the first one. -/
theorem lexical_error_points_before_its_statement :
    ∃ unit readings error, parseUnit "\n\necho $(echo @(99999999999999999999))" = .ok unit ∧
      readings ∈ OpenReadings.ofBlock unit ∧ readings.command = .error error ∧
      readings.span.line = 3 ∧ error.line? = some 1 := by
  have found : ((parseUnit "\n\necho $(echo @(99999999999999999999))").toOption.any fun unit =>
      (OpenReadings.ofBlock unit).any fun readings =>
        readings.failsFrom 3 (·.line? == some 1) readings.command) = true := by
    decide +kernel
  obtain ⟨unit, readings, error, ok, isOpen, failed, start, line⟩ :=
    Readings.exists_of_failsFrom found
  exact ⟨unit, readings, error, ok, isOpen, failed, start, eq_of_beq line⟩

end HybridShell
