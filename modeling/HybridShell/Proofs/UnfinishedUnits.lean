import HybridShell.Prompt.Dialogue
import HybridShell.Proofs.ExpressionReading
import HybridShell.Proofs.UnitReadings

/-!
# Units that are not finished

A session asks for another line where an error says that the end of a text
came too soon, and gives a text up where an error says anything else.  The
main statements say when these two answers are right.  More text can help just
if the tokens so far start a unit: no token is out of place before one that is
open, no command text in closed brackets lacks its end, and no comment ends a
line that has to go on.  The next line can take back an error only by making a
gap of the backslash that the line before it ends in.
-/

namespace HybridShell

open Lexer (Reaches Breaks Opens)

/-- Readers for which a body that cannot be read is an error that more text cannot mend. -/
def BodyReaders.sealed (readers : BodyReaders) : BodyReaders :=
  { readers with
    chain := fun text => (readers.chain text).mapError fun _ => .malformed 1 .emptyCommand }

/--
Whether the tokens of a text start a unit: if reading them fails, then for want of more tokens,
and not inside a command text whose brackets are closed.
-/
def startsUnit (source : String) : Bool :=
  match lex source with
  | .error _ => false
  | .ok tokens =>
    match UnitReader.statements source.toList (.sealed .whole) (UnitReader.steps tokens.length)
      false tokens with
    | .error error => error.isIncomplete
    | .ok _ => true

def endsInComment (source : String) : Bool :=
  (Lexer.finalPiece source.toList).head? == some '#'

/-- Whether a text ends in a backslash that is a token of its own. -/
def endsInBackslash (source : String) : Bool :=
  Lexer.finalPiece source.toList == ['\\']

/-- What has to hold of a text so that more text can make a unit of it. -/
inductive CanGoOn (source : String) : Prop
  | afterPiece (ends : endsInComment source = false) (starts : startsUnit source = true)
  /-- A comment goes on until a line ends. -/
  | afterComment (ends : endsInComment source = true)
      (starts : startsUnit (source ++ "\n") = true)
  /-- A string or a command text is open, and some text closes it. -/
  | insideToken {error : LexError} (opened : lex source = .error error) (closing : String)
      (closes : Lexer.finalPiece (source ++ closing).toList =
        Lexer.finalPiece source.toList ++ closing.toList)
      (starts : startsUnit (source ++ closing) = true)

variable {source : String}

theorem Dialogue.isComplete_eq_false_iff :
    Dialogue.isComplete source = false ↔
      ∃ error, parseUnit source = .error error ∧ error.isIncomplete = true := by
  grind [Dialogue.isComplete]

theorem exists_hard_error (complete : Dialogue.isComplete source = true)
    (failed : (parseUnit source).isOk = false) :
    ∃ error, parseUnit source = .error error ∧ error.isIncomplete = false := by
  rw [Dialogue.isComplete] at complete
  cases result : parseUnit source with
  | ok unit =>
    rw [result] at failed
    cases failed
  | error error => simp_all

section Standings

variable {source : String} {tokens : List Token}

theorem standing_sealed (readers : BodyReaders) (tokens : List Token) :
    UnitReader.standing readers.sealed tokens = UnitReader.standing readers tokens := by
  refine Expectation.standing_congr_readers fun kind _ => ?_
  refine Expectation.readsBody_congr fun capture body _ => ?_
  change ((readers.chain body.toList).mapError _).isOk = (readers.chain body.toList).isOk
  cases readers.chain body.toList <;> rfl

theorem standing_forText (ok : lex source = .ok tokens) :
    UnitReader.standing (.forText source.toList) tokens = UnitReader.standing .whole tokens := by
  refine Expectation.standing_congr_readers fun kind member => ?_
  obtain ⟨token, inside, rfl⟩ := List.mem_map.mp member
  refine Expectation.readsBody_congr fun capture body found => ?_
  have shorter := Lexer.body_shorter_of_mem ok inside found
  have same : (BodyReaders.forText source.toList).chain body.toList =
      BodyReaders.whole.chain body.toList :=
    BodyReaders.chain_ofDepth (Nat.lt_succ_of_lt shorter)
  rw [same]

variable {error : ParseError}

theorem isIncomplete_of_sealed {readers : BodyReaders} {reason : Refusal}
    (explains : (Standing.refused reason).Explains readers.sealed tokens error) :
    error.isIncomplete = false := by
  cases reason with
  | kind =>
    obtain ⟨token, _, fault, rfl⟩ := explains
    rfl
  | body =>
    obtain ⟨token, _, capture, body, nested, _, failed, rfl⟩ := explains
    change (readers.chain body.toList).mapError _ = .error nested at failed
    cases read : readers.chain body.toList <;> rw [read] at failed <;> cases failed
    rfl

theorem startsUnit_eq_true_iff :
    startsUnit source = true ↔
      ∃ tokens, lex source = .ok tokens ∧
        ∀ reason, UnitReader.standing .whole tokens ≠ .refused reason := by
  unfold startsUnit
  cases lexed : lex source with
  | error error => simp
  | ok tokens =>
    have stands := standing_sealed .whole tokens
    simp only [Except.ok.injEq, exists_eq_left']
    cases read : UnitReader.statements source.toList (.sealed .whole)
        (UnitReader.steps tokens.length) false tokens with
    | ok pair =>
      have finished := UnitReader.standing_eq_finished_iff.mpr ⟨pair.1, pair.2, read⟩
      grind
    | error error =>
      have explains := UnitReader.explains_of_statements read
      rw [stands] at explains
      cases standing : UnitReader.standing .whole tokens with rw [standing] at explains
      | finished =>
        exact explains.elim
      | unfinished =>
        simp [show error = .unexpectedEnd from explains, ParseError.isIncomplete]
      | refused reason =>
        have hard : error.isIncomplete = false := isIncomplete_of_sealed explains
        simp [hard]

theorem exists_parseUnit_iff :
    (∃ unit, parseUnit source = .ok unit) ↔
      ∃ tokens, lex source = .ok tokens ∧ UnitReader.standing .whole tokens = .finished := by
  constructor
  · rintro ⟨unit, ok⟩
    obtain ⟨tokens, rest, lexed, read⟩ := parseUnit_eq_ok_iff.mp ok
    refine ⟨tokens, lexed, ?_⟩
    rw [← standing_forText lexed]
    exact UnitReader.standing_eq_finished_iff.mpr ⟨unit, rest, read⟩
  · rintro ⟨tokens, lexed, finished⟩
    rw [← standing_forText lexed] at finished
    obtain ⟨unit, rest, read⟩ := UnitReader.standing_eq_finished_iff.mp finished
    exact ⟨unit, parseUnit_eq_ok_iff.mpr ⟨tokens, rest, lexed, read⟩⟩

theorem parseUnit_eq_error (failed : parseUnit source = .error error) :
    (∃ lexical, lex source = .error lexical ∧ error = .lexical lexical) ∨
      ∃ tokens, lex source = .ok tokens ∧ (UnitReader.standing .whole tokens).Explains
        (.forText source.toList) tokens error := by
  cases lexed : lex source with
  | error lexical =>
    rw [parseUnit, lexed] at failed
    cases failed
    exact .inl ⟨lexical, rfl, rfl⟩
  | ok tokens =>
    refine .inr ⟨tokens, rfl, ?_⟩
    rw [← standing_forText lexed]
    cases read : UnitReader.statements source.toList (.forText source.toList)
        (UnitReader.steps tokens.length) false tokens with
    | ok pair =>
      have ok := parseUnit_eq_ok_iff.mpr ⟨tokens, pair.2, lexed, read⟩
      cases failed.symm.trans ok
    | error other =>
      rw [parseUnit, lexed] at failed
      change Except.bind (UnitReader.statements source.toList (.forText source.toList)
        (UnitReader.steps tokens.length) false tokens) _ = Except.error error at failed
      rw [read] at failed
      cases failed
      exact UnitReader.explains_of_statements read

end Standings

/-! ### Text that finishes a unit -/

def spelling : TokenKind → List Char
  | .name text => text.toList
  | .punct punct => punct.text.toList
  | _ => []

/-- Tokens, each after a blank. -/
def spelled (kinds : List TokenKind) : List Char :=
  kinds.flatMap fun kind => ' ' :: spelling kind

theorem breaks_spelled (kinds : List TokenKind) : Breaks (spelled kinds) := by
  cases kinds <;> rfl

theorem piece_spelling {kind : TokenKind} (closer : Expectation.IsCloser kind) :
    ∃ first chunk, spelling kind = first :: chunk ∧
      Lexer.piece first chunk = .ok (some kind, chunk.length) ∧ first ≠ '#' ∧ first ≠ '\\' ∧
        kind.isNewline = false := by
  obtain rfl | rfl | ⟨bracket, rfl⟩ := closer
  · exact ⟨'x', [], rfl, rfl, by decide, by decide, rfl⟩
  · exact ⟨'i', ['n'], rfl, rfl, by decide, by decide, rfl⟩
  · cases bracket
    all_goals exact ⟨_, _, rfl, rfl, by decide, by decide, rfl⟩

theorem reaches_spelled {kinds : List TokenKind}
    (closers : ∀ kind ∈ kinds, Expectation.IsCloser kind) (position : Position) (depth : Nat) :
    ∃ tokens final, Reaches position depth (spelled kinds) tokens final [] ∧
      tokens.map Token.kind = kinds := by
  induction kinds generalizing position depth with
  | nil => exact ⟨[], depth, .here, rfl⟩
  | cons kind kinds ih =>
    obtain ⟨first, chunk, same, alone, notComment, notEscape, solid⟩ :=
      piece_spelling (closers kind List.mem_cons_self)
    have followed : Lexer.piece first (chunk ++ spelled kinds) = .ok (some kind, chunk.length) :=
      Lexer.piece_append alone (breaks_spelled kinds) (fun isComment => absurd isComment notComment)
        fun isEscape => absurd isEscape notEscape
    obtain ⟨tokens, final, reached, kindsSame⟩ :=
      ih (fun other member => closers other (List.mem_cons_of_mem kind member))
        ((position.past [' ']).past (first :: chunk)) (kind.depthAfter depth)
    have passed : Reaches position depth (' ' :: ([] ++ first :: (chunk ++ spelled kinds)))
        (Lexer.emitted position depth [' '] none ++
          (Lexer.emitted (position.past [' ']) depth (first :: chunk) (some kind) ++ tokens))
        final [] := by
      refine .step (Lexer.piece_gap (.inl rfl)) (.step ?_ reached)
      rwa [List.append_nil]
    have whole : spelled (kind :: kinds) = ' ' :: ([] ++ first :: (chunk ++ spelled kinds)) := by
      simp [spelled, same]
    rw [whole]
    refine ⟨_, final, passed, ?_⟩
    simp [Lexer.emitted, solid, kindsSame]

/-- Tokens that start a unit are finished by more text, unless it would be part of a comment. -/
theorem exists_completion (starts : startsUnit source = true)
    (ends : endsInComment source = false) : ∃ more unit, parseUnit (source ++ more) = .ok unit := by
  obtain ⟨tokens, lexed, alive⟩ := startsUnit_eq_true_iff.mp starts
  have sound : Expectation.Sound [.statements false] := ⟨rfl, trivial⟩
  obtain ⟨kinds, closers, finished⟩ := Expectation.exists_finish sound alive
  obtain ⟨depth, reaches⟩ := Lexer.exists_reaches_of_ok lexed
  have extended : Reaches .start 0 source.toList tokens depth (spelled kinds) := by
    refine reaches.extend (breaks_spelled kinds) (fun comment => ?_) fun _ newline => ?_
    · rw [endsInComment, comment] at ends
      cases ends
    · cases kinds <;> cases newline
  obtain ⟨others, final, reached, kindsSame⟩ :=
    reaches_spelled closers (Position.start.past source.toList) depth
  have rest := reached.tokensFrom
  rw [List.append_nil, Lexer.tokensFrom] at rest
  refine ⟨String.ofList (spelled kinds), exists_parseUnit_iff.mpr ⟨tokens ++ others, ?_, ?_⟩⟩
  · rw [lex, String.toList_append, String.toList_ofList, extended.tokensFrom, rest]
    simp [Except.map]
  · rw [UnitReader.standing, List.map_append, kindsSame]
    exact finished

/-! ### What more text leaves as it is -/

section Continuations

variable {source more : String} {tokens : List Token} {unit : List Statement}

variable {before : List Char} {depth : Nat} {error : LexError}

theorem startsUnit_of_reaches (reaches : Reaches .start 0 before tokens depth [])
    (whole : source.toList = before)
    (alive : ∀ reason, UnitReader.standing .whole tokens ≠ .refused reason) :
    startsUnit source = true := by
  refine startsUnit_eq_true_iff.mpr ⟨tokens, ?_, alive⟩
  have lexed := reaches.tokensFrom
  simp_all [Lexer.tokensFrom, lex, Except.map]

theorem ne_refused_of_reaches {rest : List Char} (ok : parseUnit source = .ok unit)
    (reaches : Reaches .start 0 before tokens depth rest) (whole : source.toList = before ++ rest)
    (reason : Refusal) : UnitReader.standing .whole tokens ≠ .refused reason := by
  intro refused
  obtain ⟨all, lexed, finished⟩ := exists_parseUnit_iff.mp ⟨unit, ok⟩
  rw [lex, whole] at lexed
  obtain ⟨others, _, rfl⟩ := reaches.exists_others lexed
  rw [UnitReader.standing, List.map_append] at finished
  cases (Expectation.standing_append_of_refused refused _).symm.trans finished

theorem ne_body_of_completed (lexed : lex source = .ok tokens)
    (ok : parseUnit (source ++ more) = .ok unit) :
    UnitReader.standing .whole tokens ≠ .refused .body := by
  intro refused
  obtain ⟨before, capture, body, after, kinds, still⟩ :=
    Expectation.exists_body_of_standing refused
  obtain ⟨others, remaining, rfl, rfl, remains⟩ := List.map_eq_append_iff.mp kinds
  obtain ⟨token, later, rfl, isBody, rfl⟩ := List.map_eq_cons_iff.mp remains
  obtain ⟨depth, reaches⟩ := Lexer.exists_reaches_of_ok lexed
  obtain ⟨front, middle, first, chunk, gap, whole, reached, place, given⟩ := reaches.exists_place
  -- The brackets of this command text are closed, so it is the same token whatever follows.
  have opens : Opens first (chunk ++ (gap ++ [])) := by
    rw [isBody] at place
    exact Lexer.opens_of_subprocess place
  obtain ⟨barrier, notNewline, _⟩ := opens.isSolid
  have stillPlace : Lexer.piece first (chunk ++ (gap ++ more.toList)) =
      .ok (some token.kind, chunk.length) := by
    have appended := opens.piece_append place more.toList
    rwa [List.append_nil, List.append_assoc] at appended
  have passed : Reaches .start 0 (front ++ first :: chunk) (others ++ [token])
      (Lexer.depthPast middle (some token.kind)) (gap ++ more.toList) := by
    rw [← given]
    exact (reached.exchange barrier notNewline).trans (.single stillPlace)
  refine ne_refused_of_reaches ok passed ?_ .body ?_
  · simp_all
  · rw [UnitReader.standing, List.map_append, List.map_singleton, isBody]
    exact still

/-- The comment that a text ends in holds no line end. -/
theorem exists_comment (lexed : lex source = .ok tokens) (ends : endsInComment source = true) :
    ∃ front chunk depth, source.toList = front ++ '#' :: chunk ∧ '\n' ∉ chunk ∧
      Reaches .start 0 front tokens depth ('#' :: chunk) := by
  obtain ⟨_, reaches⟩ := Lexer.exists_reaches_of_ok lexed
  have isComment : (Lexer.finalPiece source.toList).head? = some '#' := eq_of_beq ends
  have filled : source.toList ≠ [] := by
    intro empty
    simp_all [Lexer.finalPiece]
  obtain ⟨front, others, depth, first, chunk, found, whole, reached, place, rfl, rfl, final⟩ :=
    reaches.exists_last filled
  rw [final] at isComment
  obtain rfl : first = '#' := Option.some.inj isComment
  obtain ⟨rfl, length⟩ := Prod.mk.inj (Except.ok.inj place)
  have same : chunk.takeWhile (· ≠ '\n') = chunk := (List.takeWhile_prefix _).eq_of_length length
  refine ⟨front, chunk, depth, whole, fun inside => ?_, ?_⟩
  · rw [← same] at inside
    have passes := List.all_eq_true.mp List.all_takeWhile '\n' inside
    cases passes
  · rw [Lexer.emitted, List.append_nil]
    exact reached

theorem reaches_comment {front chunk : List Char}
    (reached : Reaches .start 0 front tokens depth ('#' :: chunk)) (noLineEnd : '\n' ∉ chunk)
    (more : List Char) :
    Reaches .start 0 (front ++ '#' :: (chunk ++ more.takeWhile (· ≠ '\n'))) tokens depth
      (more.dropWhile (· ≠ '\n')) := by
  have passes : ∀ character ∈ chunk, decide (character ≠ '\n') = true :=
    fun _ member => decide_eq_true (ne_of_mem_of_not_mem member noLineEnd)
  have taken : Lexer.piece '#' (chunk ++ more.takeWhile (· ≠ '\n') ++ more.dropWhile (· ≠ '\n')) =
      .ok (none, (chunk ++ more.takeWhile (· ≠ '\n')).length) := by
    rw [Lexer.piece_comment, List.append_assoc, List.takeWhile_append_dropWhile,
      List.takeWhile_append_of_pos passes]
  have passed := (reached.exchange (by decide) (by decide)).trans (.single taken)
  rwa [Lexer.emitted, List.append_nil] at passed

theorem startsUnit_of_comment (lexed : lex source = .ok tokens)
    (ends : endsInComment source = true)
    (unfinished : UnitReader.standing .whole tokens ≠ .finished)
    (ok : parseUnit (source ++ more) = .ok unit) : startsUnit (source ++ "\n") = true := by
  obtain ⟨front, chunk, depth, whole, noLineEnd, reached⟩ := exists_comment lexed ends
  have passed := reaches_comment reached noLineEnd more.toList
  have wholeMore : (source ++ more).toList =
      front ++ '#' :: (chunk ++ more.toList.takeWhile (· ≠ '\n')) ++
        more.toList.dropWhile (· ≠ '\n') := by
    rw [String.toList_append, whole]
    simp
  -- Either all of the added text is comment, or the first token after it is a line end.
  cases after : more.toList.dropWhile (· ≠ '\n') with
  | nil =>
    obtain ⟨all, allLexed, finished⟩ := exists_parseUnit_iff.mp ⟨unit, ok⟩
    rw [lex, wholeMore] at allLexed
    obtain ⟨others, remaining, rfl⟩ := passed.exists_others allLexed
    rw [after, Lexer.tokensFrom] at remaining
    simp_all
  | cons newline rest =>
    have lineEnd : newline = '\n' := by
      have stops := List.head?_dropWhile_not (fun character => decide (character ≠ '\n')) more.toList
      simp_all
    subst lineEnd
    rw [after] at passed wholeMore
    have line := (reaches_comment reached noLineEnd ['\n']).lineEnd
    refine startsUnit_of_reaches line (by simp [whole]) fun reason => ?_
    have alive := ne_refused_of_reaches ok passed.lineEnd (by rw [wholeMore]; simp) reason
    rw [UnitReader.standing, List.map_append] at alive ⊢
    rwa [Lexer.map_kind_emitted]

/-- If a string or a command text is open, a part of the text that completes the unit closes it. -/
theorem canGoOn_of_open (opened : lex source = .error error)
    (incomplete : error.isIncomplete = true) (ok : parseUnit (source ++ more) = .ok unit) :
    CanGoOn source := by
  obtain ⟨front, tokens, depth, first, tail, whole, reaches, failed⟩ :=
    Lexer.exists_reaches_of_error opened
  have opens : Opens first tail := Lexer.opens_of_piece_error failed incomplete
  obtain ⟨barrier, notNewline, _⟩ := opens.isSolid
  have reached : Reaches .start 0 front tokens depth (first :: (tail ++ more.toList)) :=
    reaches.exchange barrier notNewline
  obtain ⟨all, lexed, finished⟩ := exists_parseUnit_iff.mp ⟨unit, ok⟩
  have wholeMore : (source ++ more).toList = front ++ first :: (tail ++ more.toList) := by
    rw [String.toList_append, whole, List.append_assoc, List.cons_append]
  rw [lex, wholeMore] at lexed
  obtain ⟨others, found, rfl⟩ := reached.exists_others lexed
  obtain ⟨kind, chunk, later, divided, place⟩ := Lexer.exists_piece_of_ok found
  -- The piece goes beyond the text so far, or else it would not be open.
  obtain ⟨closing, rfl, rest⟩ | ⟨_, inside, _⟩ := List.append_eq_append_iff.mp divided
  · rw [rest, ← List.append_assoc] at place
    have closed : Lexer.piece first (tail ++ closing) = .ok (kind, (tail ++ closing).length) :=
      (opens.append closing).piece_of_append place (Nat.le_refl _)
    have closes : Reaches .start 0 front tokens depth (first :: (tail ++ closing)) :=
      reaches.exchange barrier notNewline
    have wholeClosing : (source ++ String.ofList closing).toList =
        front ++ first :: (tail ++ closing) := by
      rw [String.toList_append, String.toList_ofList, whole, List.append_assoc, List.cons_append]
    refine .insideToken opened (String.ofList closing) ?_ ?_
    · rw [wholeClosing, Lexer.finalPiece_of_reaches closes (List.cons_ne_nil _ _),
        Lexer.finalPiece_of_ok closed, whole,
        Lexer.finalPiece_of_reaches reaches (List.cons_ne_nil _ _), Lexer.finalPiece_of_error failed,
        String.toList_ofList, List.cons_append]
    · have alone : Lexer.piece first (tail ++ closing ++ []) =
          .ok (kind, (tail ++ closing).length) := by rwa [List.append_nil]
      rw [← List.append_nil (first :: _)] at closes
      refine startsUnit_of_reaches (closes.trans (.single alone)) wholeClosing fun reason => ?_
      rw [rest, ← List.append_assoc] at reached
      refine ne_refused_of_reaches ok (reached.trans (.single place)) ?_ reason
      grind
  · have within : chunk.length ≤ tail.length := by simp_all
    cases failed.symm.trans (opens.piece_of_append place within)

theorem canGoOn_of_completed {error : ParseError} (failed : parseUnit source = .error error)
    (incomplete : error.isIncomplete = true) (ok : parseUnit (source ++ more) = .ok unit) :
    CanGoOn source := by
  obtain ⟨lexical, opened, rfl⟩ | ⟨tokens, lexed, explains⟩ := parseUnit_eq_error failed
  · exact canGoOn_of_open opened incomplete ok
  · cases standing : UnitReader.standing .whole tokens with rw [standing] at explains
    | finished =>
      exact explains.elim
    | refused reason =>
      cases reason with
      | kind =>
        obtain ⟨token, _, fault, rfl⟩ := explains
        cases incomplete
      | body => exact absurd standing (ne_body_of_completed lexed ok)
    | unfinished =>
      have unrefused (reason : Refusal) : UnitReader.standing .whole tokens ≠ .refused reason := by
        simp_all
      have notFinished : UnitReader.standing .whole tokens ≠ .finished := by simp_all
      cases ends : endsInComment source with
      | false => exact .afterPiece ends (startsUnit_eq_true_iff.mpr ⟨tokens, lexed, unrefused⟩)
      | true => exact .afterComment ends (startsUnit_of_comment lexed ends notFinished ok)

theorem endsInComment_newline (starts : startsUnit (source ++ "\n") = true) :
    endsInComment (source ++ "\n") = false := by
  rw [Bool.eq_false_iff]
  intro ends
  obtain ⟨tokens, lexed, _⟩ := startsUnit_eq_true_iff.mp starts
  obtain ⟨front, chunk, _, whole, noLineEnd, _⟩ := exists_comment lexed ends
  grind [String.toList_append, List.getLast?_append]

theorem lex_ne_ok_of_error (failed : lex source = .error error)
    (hard : error.isIncomplete = false) : lex (source ++ "\n" ++ more) ≠ .ok tokens := by
  intro lexed
  obtain ⟨front, others, depth, first, tail, whole, reaches, isFault⟩ :=
    Lexer.exists_reaches_of_error failed
  obtain ⟨line, fault⟩ := error
  cases fault with
  | unterminatedString => cases hard
  | unterminatedSubprocess capture => cases hard
  | numberOutOfRange digits =>
    have breaks : Breaks ('\n' :: more.toList) := rfl
    have passed := reaches.append (List.cons_ne_nil _ _) breaks
    have wholeLine : (source ++ "\n" ++ more).toList =
        front ++ (first :: tail ++ '\n' :: more.toList) := by simp [whole]
    rw [lex, wholeLine] at lexed
    obtain ⟨_, remaining, _⟩ := passed.exists_others lexed
    obtain ⟨_, _, _, _, place⟩ := Lexer.exists_piece_of_ok remaining
    cases place.symm.trans (Lexer.piece_error_append isFault breaks)

/-- A backslash at the end of a line is a gap once the next line is there. -/
theorem startsUnit_of_backslash (lexed : lex source = .ok tokens)
    (ends : endsInBackslash source = true) (ok : parseUnit (source ++ "\n" ++ more) = .ok unit) :
    startsUnit (source ++ "\n") = true := by
  obtain ⟨_, reaches⟩ := Lexer.exists_reaches_of_ok lexed
  have isEscape : Lexer.finalPiece source.toList = ['\\'] := eq_of_beq ends
  have filled : source.toList ≠ [] := by
    intro empty
    simp_all [Lexer.finalPiece]
  obtain ⟨front, others, depth, first, chunk, found, whole, reached, _, _, _, final⟩ :=
    reaches.exists_last filled
  obtain ⟨rfl, rfl⟩ := List.cons.inj (final.symm.trans isEscape)
  have gap (rest : List Char) : Lexer.piece '\\' (['\n'] ++ rest) = .ok (none, 1) :=
    Lexer.piece_continuation rfl
  have continued (rest : List Char) :
      Reaches .start 0 (front ++ ['\\', '\n']) others depth rest := by
    have passed := (reached.exchange (by decide) (by decide)).trans (.single (gap rest))
    rwa [Lexer.emitted, List.append_nil] at passed
  refine startsUnit_of_reaches (continued []) (by simp [whole]) fun reason => ?_
  exact ne_refused_of_reaches ok (continued more.toList) (by simp [whole]) reason

theorem startsUnit_of_completed_line {error : ParseError} (failed : parseUnit source = .error error)
    (hard : error.isIncomplete = false) (ok : parseUnit (source ++ "\n" ++ more) = .ok unit) :
    endsInBackslash source = true ∧ startsUnit (source ++ "\n") = true := by
  obtain ⟨lexical, opened, rfl⟩ | ⟨tokens, lexed, explains⟩ := parseUnit_eq_error failed
  · obtain ⟨all, allLexed, _⟩ := exists_parseUnit_iff.mp ⟨unit, ok⟩
    exact absurd allLexed (lex_ne_ok_of_error opened hard)
  · cases standing : UnitReader.standing .whole tokens with rw [standing] at explains
    | finished =>
      exact explains.elim
    | unfinished =>
      subst explains
      cases hard
    | refused reason =>
      by_cases ends : endsInBackslash source = true
      · exact ⟨ends, startsUnit_of_backslash lexed ends ok⟩
      · obtain ⟨depth, reaches⟩ := Lexer.exists_reaches_of_ok lexed
        have extended : Reaches .start 0 source.toList tokens depth ('\n' :: more.toList) :=
          reaches.extend rfl (fun _ => rfl) fun isEscape => absurd (beq_iff_eq.mpr isEscape) ends
        exact absurd standing (ne_refused_of_reaches ok extended (by simp) reason)

end Continuations

theorem exists_completion_of_canGoOn (goesOn : CanGoOn source) :
    ∃ more unit, parseUnit (source ++ more) = .ok unit := by
  cases goesOn with
  | afterPiece ends starts => exact exists_completion starts ends
  | afterComment _ starts =>
    have ends : endsInComment (source ++ "\n") = false := endsInComment_newline starts
    obtain ⟨more, unit, ok⟩ := exists_completion starts ends
    exact ⟨"\n" ++ more, unit, by rw [← String.append_assoc]; exact ok⟩
  | insideToken opened closing closes starts =>
    have ends : endsInComment (source ++ closing) = false := by
      obtain ⟨front, tokens, depth, first, tail, whole, reaches, failed⟩ :=
        Lexer.exists_reaches_of_error opened
      rw [endsInComment, closes, whole,
        Lexer.finalPiece_of_reaches reaches (List.cons_ne_nil _ _),
        Lexer.finalPiece_of_error failed, Bool.eq_false_iff]
      intro isComment
      obtain rfl : first = '#' := Option.some.inj (eq_of_beq isComment)
      cases failed
    obtain ⟨more, unit, ok⟩ := exists_completion starts ends
    exact ⟨closing ++ more, unit, by rw [← String.append_assoc]; exact ok⟩

/--
A text that fails for want of more can be completed just if it can go on: its tokens start a
unit, a line end keeps that so if the text ends in a comment, and what is open can be closed.
-/
theorem incomplete_unit_is_completed_iff_it_can_go_on {source : String} {error : ParseError}
    (failed : parseUnit source = .error error) (incomplete : error.isIncomplete = true) :
    (∃ more unit, parseUnit (source ++ more) = .ok unit) ↔ CanGoOn source := by
  constructor
  · rintro ⟨more, unit, ok⟩
    exact canGoOn_of_completed failed incomplete ok
  · exact exists_completion_of_canGoOn

theorem incomplete_unit_is_completed_iff_it_can_go_on_openCommand :
    ∃ error, parseUnit "while x \x7b echo $(ls" = .error error ∧ error.isIncomplete = true ∧
      CanGoOn "while x \x7b echo $(ls" ∧
      ∃ more unit, parseUnit ("while x \x7b echo $(ls" ++ more) = .ok unit := by
  obtain ⟨error, failed, incomplete⟩ :=
    Dialogue.isComplete_eq_false_iff.mp
      (show Dialogue.isComplete "while x \x7b echo $(ls" = false by decide +kernel)
  have goesOn : CanGoOn "while x \x7b echo $(ls" := by
    have unlexed : (lex "while x \x7b echo $(ls").isOk = false := by decide +kernel
    cases opened : lex "while x \x7b echo $(ls" with
    | ok tokens =>
      rw [opened] at unlexed
      cases unlexed
    | error lexical => exact .insideToken opened ")" (by decide +kernel) (by decide +kernel)
  exact ⟨error, failed, incomplete, goesOn,
    (incomplete_unit_is_completed_iff_it_can_go_on failed incomplete).mpr goesOn⟩

theorem not_canGoOn_of_lexed (lexed : (lex source).isOk = true)
    (refused : (if endsInComment source then startsUnit (source ++ "\n") else startsUnit source) =
      false) : ¬ CanGoOn source := by
  intro goesOn
  cases goesOn with
  | afterPiece ends starts => simp [ends, starts] at refused
  | afterComment ends starts => simp [ends, starts] at refused
  | insideToken opened closing closes starts =>
    rw [opened] at lexed
    cases lexed

/-- A text that fails for want of more, although nothing completes it. -/
def AsksInVain (source : String) : Prop :=
  (∃ error, parseUnit source = .error error ∧ error.isIncomplete = true) ∧
    ∀ more unit, parseUnit (source ++ more) ≠ .ok unit

theorem asksInVain_of_lexed (asks : Dialogue.isComplete source = false)
    (lexed : (lex source).isOk = true)
    (refused : (if endsInComment source then startsUnit (source ++ "\n") else startsUnit source) =
      false) : AsksInVain source := by
  obtain ⟨error, failed, incomplete⟩ := Dialogue.isComplete_eq_false_iff.mp asks
  refine ⟨⟨error, failed, incomplete⟩, fun more unit ok => ?_⟩
  exact not_canGoOn_of_lexed lexed refused (canGoOn_of_completed failed incomplete ok)

/--
A session asks in vain for more where a closed command text lacks its end, where a header goes
on in a comment, and where a string is open after a token that no unit has there.
-/
theorem incomplete_units_that_nothing_completes :
    AsksInVain "while $(echo @(1 +)) \x7b pass \x7d" ∧ AsksInVain "if x # more" ∧
      AsksInVain "\x7d '" := by
  refine ⟨asksInVain_of_lexed ?_ ?_ ?_, asksInVain_of_lexed ?_ ?_ ?_,
    Dialogue.isComplete_eq_false_iff.mp ?_, fun more unit ok => ?_⟩
  case refine_8 =>
    -- The brace stays the first token, since a blank follows it.
    have brace : Lexer.piece '\x7d' ([] ++ ' ' :: '\'' :: more.toList) =
        .ok (some (.punct .rbrace), 0) :=
      Lexer.piece_append rfl rfl (fun isComment => absurd isComment (by decide))
        fun isEscape => absurd isEscape (by decide)
    exact ne_refused_of_reaches ok (.single brace) (by simp) .kind rfl
  all_goals decide +kernel

/--
An error that more text cannot mend, as the reader says, is final just if the text does not end
in a backslash that the end of the line takes out of a unit that has started.
-/
theorem hard_error_is_final_iff_no_backslash_joins_the_next_line {source : String}
    {error : ParseError} (failed : parseUnit source = .error error)
    (hard : error.isIncomplete = false) :
    (∀ more, ∃ again, parseUnit (source ++ "\n" ++ more) = .error again) ↔
      ¬ (endsInBackslash source = true ∧ startsUnit (source ++ "\n") = true) := by
  constructor
  · rintro final ⟨_, starts⟩
    obtain ⟨more, unit, ok⟩ := exists_completion starts (endsInComment_newline starts)
    obtain ⟨again, failsAgain⟩ := final more
    cases ok.symm.trans failsAgain
  · intro notJoined more
    cases result : parseUnit (source ++ "\n" ++ more) with
    | error again => exact ⟨again, rfl⟩
    | ok unit => exact absurd (startsUnit_of_completed_line failed hard result) notJoined

theorem hard_error_is_final_iff_no_backslash_joins_the_next_line_comment :
    ∃ error, parseUnit "if x y # \\" = .error error ∧ error.isIncomplete = false ∧
      ∀ more, ∃ again, parseUnit ("if x y # \\" ++ "\n" ++ more) = .error again := by
  obtain ⟨error, failed, hard⟩ :=
    exists_hard_error (show Dialogue.isComplete "if x y # \\" = true by decide +kernel)
      (by decide +kernel)
  refine ⟨error, failed, hard, ?_⟩
  exact (hard_error_is_final_iff_no_backslash_joins_the_next_line failed hard).mpr
    (by decide +kernel)

/-- The next line makes a header of one that was given up. -/
theorem hard_error_mended_by_the_next_line :
    ∃ error, parseUnit "if x \\" = .error error ∧ error.isIncomplete = false ∧
      ∃ more unit, parseUnit ("if x \\" ++ "\n" ++ more) = .ok unit := by
  obtain ⟨error, failed, hard⟩ :=
    exists_hard_error (show Dialogue.isComplete "if x \\" = true by decide +kernel)
      (by decide +kernel)
  obtain ⟨unit, ok⟩ := Except.exists_of_isOk
    (show (parseUnit ("if x \\" ++ "\n" ++ "\x7b pass \x7d")).isOk = true by decide +kernel)
  exact ⟨error, failed, hard, _, unit, ok⟩

end HybridShell
