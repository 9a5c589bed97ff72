import HybridShell.Proofs.CommandGrammar
import HybridShell.Proofs.TokenSpans

/-!
# Dividing a text whose end is not there yet

The lexer looks ahead of a piece only as far as the next character that no
token goes on with.  So what stands before such a character is divided in the
same way whatever follows it, except that a string or a command text may be
open, that a comment runs to the end of its line, and that a line end makes a
gap of the backslash before it.
-/

namespace HybridShell

namespace Lexer

open CommandScanner (takeWhile_append_stop takeWhile_ne_append)

/-- Characters that no token goes on with, unless it is open. -/
def isBarrier (character : Char) : Bool :=
  !(isNameCharacter character) && !(['.', '{', '}', '/', '=', '(', '['].contains character)

def Breaks (text : List Char) : Prop :=
  text.head?.all isBarrier = true

variable {character : Char}

theorem isNameCharacter_of_isBarrier (barrier : isBarrier character = true) :
    isNameCharacter character = false := by
  rw [isBarrier, Bool.and_eq_true, Bool.not_eq_true'] at barrier
  exact barrier.1

theorem ne_of_isBarrier (barrier : isBarrier character = true) (other : Char)
    (listed : other ∈ ['.', '{', '}', '/', '=', '(', '[']) : character ≠ other := by
  rintro rfl
  simp_all [isBarrier]

theorem Breaks.stops {rest : List Char} (breaks : Breaks rest) {test : Char → Bool}
    (named : ∀ character, test character = true → isNameCharacter character = true) :
    rest.head?.any test = false := by
  cases rest with
  | nil => rfl
  | cons character rest =>
    rw [List.head?_cons, Option.any_some, Bool.eq_false_iff]
    intro passed
    have barrier := isNameCharacter_of_isBarrier (show isBarrier character = true from breaks)
    exact Bool.false_ne_true (barrier.symm.trans (named character passed))

section Append

variable {first : Char} {front rest : List Char}

theorem head?_bind_append {α : Type} (breaks : Breaks rest) {next : Char → Option α}
    (stops : ∀ character, isBarrier character = true → next character = none) :
    (front ++ rest).head?.bind next = front.head?.bind next := by
  cases front with
  | cons character front => rfl
  | nil =>
    cases rest with
    | nil => rfl
    | cons character rest => exact stops character breaks

theorem head?_append_beq (breaks : Breaks rest) (other : Char)
    (listed : other ∈ ['.', '{', '}', '/', '=', '(', '[']) :
    ((front ++ rest).head? == some other) = (front.head? == some other) := by
  cases front with
  | cons character front => rfl
  | nil =>
    cases rest with
    | nil => rfl
    | cons character rest => simpa using ne_of_isBarrier breaks other listed

theorem any_head?_append {test : Char → Bool} (ends : front.head?.any test = false)
    (endsToo : rest.head?.any test = false) : (front ++ rest).head?.any test = false := by
  cases front with
  | nil => exact endsToo
  | cons character front => exact ends

theorem any_head?_of_append {test : Char → Bool} (ends : (front ++ rest).head?.any test = false) :
    front.head?.any test = false := by
  cases front with
  | nil => rfl
  | cons character front => exact ends

theorem head?_bind_of_append {α : Type} {next : Char → Option α}
    (absent : (front ++ rest).head?.bind next = none) : front.head?.bind next = none := by
  cases front with
  | nil => rfl
  | cons character front => exact absent

variable {text : List Char} {taken : Nat} {character : Char}

theorem captureOf?_of_isBarrier (barrier : isBarrier character = true) :
    captureOf? first character = none := by
  unfold captureOf?
  split <;> first | rfl | contradiction

theorem pairPunct?_of_isBarrier (barrier : isBarrier character = true) :
    pairPunct? first character = none := by
  unfold pairPunct?
  split <;> first | rfl | contradiction

theorem fraction_append (breaks : Breaks rest) : fraction (front ++ rest) = fraction front := by
  have digits := breaks.stops fun _ => isNameCharacter_of_isDigit
  cases front with
  | nil =>
    cases rest with
    | nil => rfl
    | cons character later =>
      have notPoint := ne_of_isBarrier breaks '.' (by decide)
      rw [List.nil_append, fraction, fraction] <;> simp [notPoint]
  | cons character later =>
    by_cases point : character = '.'
    · subst point
      exact takeWhile_append_stop digits
    · rw [List.cons_append, fraction, fraction] <;> simp [point]

theorem fraction_of_append (absent : fraction (front ++ rest) = []) : fraction front = [] := by
  cases front with
  | nil => rfl
  | cons character later =>
    by_cases point : character = '.'
    · cases later <;> simp_all [fraction, List.takeWhile_cons]
    · rw [fraction]
      simp [point]

theorem number_append (breaks : Breaks rest) : number first (front ++ rest) = number first front := by
  obtain ⟨run, later, rfl, digits, ends⟩ := exists_run Char.isDigit front
  have endsToo : (later ++ rest).head?.any Char.isDigit = false :=
    any_head?_append ends (breaks.stops fun _ => isNameCharacter_of_isDigit)
  rw [List.append_assoc, number_run digits endsToo, number_run digits ends, fraction_append breaks]

theorem variableName?_append (breaks : Breaks rest) :
    variableName? (front ++ rest) = variableName? front := by
  have names := breaks.stops fun _ named => named
  by_cases braced : front.head? = some '{'
  · obtain ⟨inner, rfl⟩ := List.head?_eq_some_iff.mp braced
    have within : (inner.takeWhile isNameCharacter).length ≤ inner.length :=
      (List.takeWhile_prefix _).length_le
    rw [List.cons_append, variableName?, variableName?]
    simp only [takeWhile_append_stop names, List.drop_append_of_le_length within,
      head?_append_beq breaks '}' (by decide)]
  · have still : (front ++ rest).head? ≠ some '{' := by
      have same : ((front ++ rest).head? == some '{') = (front.head? == some '{') :=
        head?_append_beq breaks '{' (by decide)
      simp_all
    rw [variableName?_bare still, variableName?_bare braced, takeWhile_append_stop names]

theorem variableName?_of_append (absent : variableName? (front ++ rest) = none) :
    variableName? front = none := by
  rw [← Option.not_isSome_iff_eq_none] at absent ⊢
  refine mt (fun isSome => ?_) absent
  obtain ⟨⟨name, length⟩, found⟩ := Option.isSome_iff_exists.mp isSome
  obtain ⟨spelled, later, rfl, rfl, spells⟩ := variableName?_eq_some_iff.mp found
  refine Option.isSome_iff_exists.mpr ?_
  simp only [Prod.exists, variableName?_eq_some_iff]
  cases spells with
  | @bare first others _ starts =>
    obtain ⟨run, after, whole, named, ends⟩ := exists_run isNameCharacter (others ++ later ++ rest)
    exact ⟨_, _, first :: run, after, congrArg (first :: ·) whole, rfl, .bare starts named ends⟩
  | braced starts named =>
    exact ⟨_, _, _, later ++ rest, List.append_assoc _ _ _, rfl, .braced starts named⟩

variable {kind : TokenKind}

theorem VariableText.append {name : List Char} (spells : VariableText text front name)
    (breaks : Breaks rest) : VariableText text (front ++ rest) name := by
  cases spells with
  | bare starts named ends =>
    exact .bare starts named (any_head?_append ends (breaks.stops fun _ named => named))
  | braced starts named => exact .braced starts named

theorem VariableText.of_append {name : List Char} (spells : VariableText text (front ++ rest) name) :
    VariableText text front name := by
  cases spells with
  | bare starts named ends => exact .bare starts named (any_head?_of_append ends)
  | braced starts named => exact .braced starts named

theorem TokenText.append (spells : TokenText text front kind) (breaks : Breaks rest) :
    TokenText text (front ++ rest) kind := by
  have digits := breaks.stops fun _ => isNameCharacter_of_isDigit
  have names := breaks.stops fun _ named => named
  cases spells with
  | string quotes inside => exact .string quotes inside
  | subprocess opener inside => exact .subprocess opener inside
  | whole digit all ends integral fits =>
    exact .whole digit all (any_head?_append ends digits)
      ((fraction_append breaks).trans integral) fits
  | decimal digit all filled decimal ends =>
    exact .decimal digit all filled decimal (any_head?_append ends digits)
  | name starts named ends => exact .name starts named (any_head?_append ends names)
  | environment spells => exact .environment (spells.append breaks)
  | pair spells => exact .pair spells
  | single spells alone =>
    exact .single spells ((head?_bind_append breaks fun _ => pairPunct?_of_isBarrier).trans alone)
  | unknown lone alone unmarked =>
    exact .unknown ⟨lone.notQuote,
        (head?_bind_append breaks fun _ => captureOf?_of_isBarrier).trans lone.notOpener,
        lone.notDigit, lone.notName,
        fun dollar => (variableName?_append breaks).trans (lone.notVariable dollar)⟩
      ((head?_bind_append breaks fun _ => pairPunct?_of_isBarrier).trans alone) unmarked

theorem TokenText.of_append (spells : TokenText text (front ++ rest) kind) :
    TokenText text front kind := by
  cases spells with
  | string quotes inside => exact .string quotes inside
  | subprocess opener inside => exact .subprocess opener inside
  | whole digit all ends integral fits =>
    exact .whole digit all (any_head?_of_append ends) (fraction_of_append integral) fits
  | decimal digit all filled decimal ends =>
    exact .decimal digit all filled decimal (any_head?_of_append ends)
  | name starts named ends => exact .name starts named (any_head?_of_append ends)
  | environment spells => exact .environment spells.of_append
  | pair spells => exact .pair spells
  | single spells alone => exact .single spells (head?_bind_of_append alone)
  | unknown lone alone unmarked =>
    exact .unknown ⟨lone.notQuote, head?_bind_of_append lone.notOpener, lone.notDigit, lone.notName,
        fun dollar => variableName?_of_append (lone.notVariable dollar)⟩
      (head?_bind_of_append alone) unmarked

theorem token_append (ok : token first front = .ok (kind, taken)) (breaks : Breaks rest) :
    token first (front ++ rest) = .ok (kind, taken) := by
  obtain ⟨chunk, later, rfl, rfl, spells⟩ := exists_tokenText ok
  rw [List.append_assoc]
  exact (spells.append breaks).token_eq

theorem token_of_append (ok : token first (front ++ rest) = .ok (kind, taken))
    (within : taken ≤ front.length) : token first front = .ok (kind, taken) := by
  obtain ⟨chunk, later, whole, rfl, spells⟩ := exists_tokenText ok
  obtain ⟨more, rfl⟩ : chunk <+: front :=
    List.prefix_of_prefix_length_le ⟨later, whole.symm⟩ ⟨rest, rfl⟩ within
  rw [List.append_assoc] at whole
  rw [← List.append_cancel_left whole] at spells
  exact spells.of_append.token_eq

/-- Whether a token is open until its closing quote or bracket. -/
def Opens (first : Char) (tail : List Char) : Prop :=
  (first = '"' ∨ first = '\'') ∨ (tail.head?.bind (captureOf? first)).isSome = true

theorem Opens.cases (opens : Opens first front) :
    (first = '"' ∨ first = '\'') ∨ ¬ (first = '"' ∨ first = '\'') ∧
      ∃ opening body capture, front = opening :: body ∧
        captureOf? first opening = some capture := by
  by_cases isString : first = '"' ∨ first = '\''
  · exact .inl isString
  · obtain ⟨capture, captures⟩ := Option.isSome_iff_exists.mp (opens.resolve_left isString)
    obtain ⟨opening, isFirst, captured⟩ := Option.bind_eq_some_iff.mp captures
    obtain ⟨body, rfl⟩ := List.head?_eq_some_iff.mp isFirst
    exact .inr ⟨isString, opening, body, capture, rfl, captured⟩

theorem Opens.token_append (opens : Opens first front) (ok : token first front = .ok (kind, taken))
    (rest : List Char) : token first (front ++ rest) = .ok (kind, taken) := by
  obtain ⟨chunk, later, rfl, rfl, spells⟩ : ∃ chunk later, front = chunk ++ later ∧
      taken = chunk.length ∧ ∀ after, TokenText (first :: chunk) after kind := by
    obtain isString | ⟨notString, opening, body, capture, rfl, captures⟩ := opens.cases
    · exact exists_tokenText_string isString ok
    · exact exists_tokenText_body notString captures ok
  rw [List.append_assoc]
  exact (spells _).token_eq

theorem token_error_of_not_opens (plain : ¬ Opens first front) {fault : LexFault}
    (failed : token first front = .error fault) :
    first.isDigit = true ∧ ∃ digits, fault = .numberOutOfRange digits := by
  rw [Opens, not_or, Option.not_isSome_iff_eq_none] at plain
  by_cases digit : first.isDigit = true
  · refine ⟨digit, ?_⟩
    obtain ⟨run, later, rfl, digits, ends⟩ := exists_run Char.isDigit front
    rw [token_digit digit, number_run digits ends] at failed
    split at failed
    · cases fits : Reading.word64? (first :: run) with rw [fits] at failed
      | none => exact ⟨_, (Except.error.inj failed).symm⟩
      | some value => cases failed
    · cases failed
  · simp only [token, if_neg plain.1, plain.2, if_neg digit] at failed
    grind

theorem Opens.token_ne_numberOutOfRange (opens : Opens first front) (digits : String) :
    token first front ≠ .error (.numberOutOfRange digits) := by
  intro failed
  obtain isString | ⟨notString, opening, body, capture, rfl, captures⟩ := opens.cases
  · rw [token_string isString] at failed
    cases found : stringBody first front <;> rw [found] at failed <;> cases failed
  · rw [token_body notString captures] at failed
    cases found : bodyLength opening (closingOf opening) .plain 0 body <;>
      rw [found] at failed <;> cases failed

theorem token_error_append {digits : String}
    (failed : token first front = .error (.numberOutOfRange digits)) (breaks : Breaks rest) :
    token first (front ++ rest) = .error (.numberOutOfRange digits) := by
  have plain : ¬ Opens first front := fun opens => opens.token_ne_numberOutOfRange digits failed
  obtain ⟨digit, _⟩ := token_error_of_not_opens plain failed
  rw [token_digit digit] at failed ⊢
  rw [number_append breaks, failed]

end Append

/-! ### Pieces -/

section Pieces

variable {first : Char} {front rest : List Char} {found : Option TokenKind} {taken : Nat}

variable {tail : List Char}

/-- A token that is open starts with a character that no other piece goes on with. -/
theorem Opens.isSolid (opens : Opens first front) :
    isBarrier first = true ∧ first ≠ '\n' ∧ first ≠ '#' ∧ first ≠ '\\' ∧
      ¬ (first = ' ' ∨ first = '\t' ∨ first = '\r') := by
  obtain (rfl | rfl) | ⟨_, opening, body, capture, rfl, captures⟩ := opens.cases
  · decide
  · decide
  · unfold captureOf? at captures
    split at captures
    all_goals first | decide | cases captures

theorem Opens.append (opens : Opens first front) (rest : List Char) :
    Opens first (front ++ rest) := by
  obtain isString | ⟨_, opening, body, capture, rfl, captures⟩ := opens.cases
  · exact .inl isString
  · exact .inr (Option.isSome_iff_exists.mpr ⟨capture, captures⟩)

theorem Opens.piece_eq (opens : Opens first front) :
    piece first front = (token first front).map fun (kind, length) => (some kind, length) := by
  obtain ⟨_, notNewline, notComment, notEscape, notGap⟩ := opens.isSolid
  exact piece_token notGap (fun continued => notEscape continued.1) notComment notNewline

theorem takeWhile_comment_append (later : '\n' ∈ front ∨ rest.head?.all (· == '\n') = true) :
    (front ++ rest).takeWhile (· ≠ '\n') = front.takeWhile (· ≠ '\n') := by
  rcases later with inside | ends
  · obtain ⟨before, after, rfl, absent⟩ := List.eq_append_cons_of_mem inside
    rw [List.append_assoc, List.cons_append, takeWhile_ne_append absent, takeWhile_ne_append absent]
  · refine takeWhile_append_stop ?_
    cases rest with
    | nil => rfl
    | cons character rest => simp_all

theorem alone_append (alone : ¬ (first = '\\' ∧ front.head? = some '\n'))
    (escape : first = '\\' → front = [] → rest.head? ≠ some '\n') :
    ¬ (first = '\\' ∧ (front ++ rest).head? = some '\n') := by
  rintro ⟨isEscape, newline⟩
  cases front with
  | nil => exact escape isEscape rfl newline
  | cons character front => exact alone ⟨isEscape, newline⟩

theorem alone_of_append (alone : ¬ (first = '\\' ∧ (front ++ rest).head? = some '\n')) :
    ¬ (first = '\\' ∧ front.head? = some '\n') := by
  simp_all

/-- A piece is the same before every character that no token goes on with. -/
theorem piece_append (ok : piece first front = .ok (found, taken)) (breaks : Breaks rest)
    (comment : first = '#' → '\n' ∈ front ∨ rest.head?.all (· == '\n') = true)
    (escape : first = '\\' → front = [] → rest.head? ≠ some '\n') :
    piece first (front ++ rest) = .ok (found, taken) := by
  refine piece_eq_ok_iff.mpr ?_
  cases piece_eq_ok_iff.mp ok with
  | gap isGap => exact .gap isGap
  | continuation newline => exact .continuation (by rw [List.head?_append, newline]; rfl)
  | comment =>
    rw [← takeWhile_comment_append (comment rfl)]
    exact .comment
  | newline => exact .newline
  | token notGap alone notComment notNewline found =>
    exact .token notGap (alone_append alone escape) notComment notNewline
      (token_append found breaks)

variable {fault : LexFault} {barrier : Char}

theorem token_of_piece_error (failed : piece first front = .error fault) :
    token first front = .error fault := by
  simp only [piece] at failed
  repeat' split at failed
  any_goals cases failed
  cases result : token first front with rw [result] at failed
  | ok pair =>
    cases failed
  | error other =>
    cases failed
    rfl

theorem piece_of_token_error (failed : token first front = .error fault) :
    piece first front = .error fault := by
  by_cases opens : Opens first front
  · rw [opens.piece_eq, failed]
    rfl
  · obtain ⟨digit, _⟩ := token_error_of_not_opens opens failed
    have differs (other : Char) (noDigit : other.isDigit = false) : first ≠ other := by grind
    have notGap : ¬ (first = ' ' ∨ first = '\t' ∨ first = '\r') := by
      simp [differs ' ' rfl, differs '\t' rfl, differs '\r' rfl]
    rw [piece_token notGap (fun continued => differs '\\' rfl continued.1) (differs '#' rfl)
      (differs '\n' rfl), failed]
    rfl

theorem piece_error_append {digits : String}
    (failed : piece first front = .error (.numberOutOfRange digits)) (breaks : Breaks rest) :
    piece first (front ++ rest) = .error (.numberOutOfRange digits) :=
  piece_of_token_error (token_error_append (token_of_piece_error failed) breaks)

/-- A piece that ends before such a character is a piece without what follows, too. -/
theorem piece_of_append (ok : piece first (front ++ barrier :: rest) = .ok (found, taken))
    (within : taken ≤ front.length) (notLineEnd : barrier ≠ '\n') :
    piece first front = .ok (found, taken) ∧ (first = '#' → '\n' ∈ front) := by
  have sameHead (newline : (front ++ barrier :: rest).head? = some '\n') :
      front.head? = some '\n' := by
    cases front with
    | nil => exact absurd (Option.some.inj newline) notLineEnd
    | cons character front => exact newline
  rw [piece_eq_ok_iff]
  cases piece_eq_ok_iff.mp ok with
  | gap isGap => exact ⟨.gap isGap, fun isComment => by subst isComment; simp at isGap⟩
  | continuation newline =>
    exact ⟨.continuation (sameHead newline), fun isComment => absurd isComment (by decide)⟩
  | comment =>
    have inside : '\n' ∈ front := by
      refine Classical.byContradiction fun absent => ?_
      have passes : ∀ character ∈ front, decide (character ≠ '\n') = true :=
        fun _ member => decide_eq_true (ne_of_mem_of_not_mem member absent)
      rw [List.takeWhile_append_of_pos passes, List.takeWhile_cons,
        if_pos (decide_eq_true notLineEnd), List.length_append, List.length_cons] at within
      omega
    rw [takeWhile_comment_append (.inl inside)]
    exact ⟨.comment, fun _ => inside⟩
  | newline => exact ⟨.newline, fun isComment => absurd isComment (by decide)⟩
  | token notGap alone notComment notNewline found =>
    have found := token_of_append found within
    exact ⟨.token notGap (alone_of_append alone) notComment notNewline found, fun isComment =>
      absurd isComment notComment⟩

theorem piece_exchange {other : List Char}
    (ok : piece first (front ++ barrier :: rest) = .ok (found, taken))
    (within : taken ≤ front.length) (isBarrier : isBarrier barrier = true)
    (notNewline : barrier ≠ '\n') :
    piece first (front ++ barrier :: other) = .ok (found, taken) := by
  obtain ⟨alone, comment⟩ := piece_of_append ok within notNewline
  refine piece_append alone isBarrier (fun isComment => .inl (comment isComment)) fun _ _ => ?_
  exact fun newline => notNewline (Option.some.inj newline)

theorem exists_piece (ok : piece first tail = .ok (found, taken)) :
    ∃ chunk later, tail = chunk ++ later ∧ taken = chunk.length := by
  suffices within : taken ≤ tail.length by
    refine ⟨tail.take taken, tail.drop taken, (List.take_append_drop taken tail).symm, ?_⟩
    rw [List.length_take, Nat.min_eq_left within]
  cases piece_eq_ok_iff.mp ok with
  | gap | newline => exact Nat.zero_le _
  | continuation newline => grind
  | comment => exact (List.takeWhile_prefix _).length_le
  | token notGap _ _ _ found =>
    obtain ⟨chunk, later, rfl, rfl, _⟩ := exists_tokenText found
    simp

theorem Opens.piece_append (opens : Opens first front)
    (ok : piece first front = .ok (found, taken)) (rest : List Char) :
    piece first (front ++ rest) = .ok (found, taken) := by
  rw [opens.piece_eq] at ok
  obtain ⟨⟨kind, length⟩, tokenOk, same⟩ := Except.map_eq_ok_iff.mp ok
  rw [(opens.append rest).piece_eq, opens.token_append tokenOk rest]
  exact congrArg Except.ok same

theorem Opens.piece_of_append (opens : Opens first front)
    (ok : piece first (front ++ rest) = .ok (found, taken)) (within : taken ≤ front.length) :
    piece first front = .ok (found, taken) := by
  rw [(opens.append rest).piece_eq] at ok
  obtain ⟨⟨kind, length⟩, tokenOk, same⟩ := Except.map_eq_ok_iff.mp ok
  cases same
  rw [opens.piece_eq, token_of_append tokenOk within]
  rfl

theorem opens_of_piece_error {error : LexError} (failed : piece first front = .error error.fault)
    (incomplete : error.isIncomplete = true) : Opens first front := by
  refine Classical.byContradiction fun plain => ?_
  obtain ⟨_, digits, isNumber⟩ := token_error_of_not_opens plain (token_of_piece_error failed)
  simp_all [LexError.isIncomplete]

theorem opens_of_subprocess {capture : Capture} {body : String}
    (ok : piece first front = .ok (some (.subprocess capture body), taken)) :
    Opens first front := by
  rcases piece_eq_some ok with ⟨_, newline, _⟩ | tokenOk
  · cases newline
  · obtain ⟨rest, later, rfl, _, spells⟩ := exists_tokenText tokenOk
    cases spells with
    | subprocess opener => exact .inr (Option.isSome_iff_exists.mpr ⟨_, opener.captures.1⟩)

end Pieces

/-! ### Reaching a place -/

/-- The tokens that a piece gives: none for a gap, nor for a line end in brackets. -/
def emitted (position : Position) (depth : Nat) (text : List Char) : Option TokenKind → List Token
  | none => []
  | some kind =>
    if kind.isNewline && depth ≠ 0 then []
    else [⟨kind, ⟨position.offset, (position.past text).offset, position.line⟩⟩]

def depthPast (depth : Nat) (found : Option TokenKind) : Nat :=
  found.elim depth (·.depthAfter depth)

/--
The lexer passes some text in front of another: it gives the tokens of the former and comes to
the latter at the given depth.
-/
inductive Reaches : Position → Nat → List Char → List Token → Nat → List Char → Prop
  | here : Reaches position depth [] [] depth rest
  | step (ok : piece first (chunk ++ (before ++ rest)) = .ok (found, chunk.length))
      (others : Reaches (position.past (first :: chunk)) (depthPast depth found) before tokens
        final rest) :
      Reaches position depth (first :: (chunk ++ before))
        (emitted position depth (first :: chunk) found ++ tokens) final rest

section Reaching

variable {position : Position} {depth final : Nat} {before rest : List Char} {tokens : List Token}

theorem past_nil (position : Position) : position.past [] = position :=
  rfl

theorem map_nil_append (result : Except LexError (List Token)) :
    result.map ([] ++ ·) = result := by
  cases result <;> rfl

theorem map_append_append (first second : List Token) (result : Except LexError (List Token)) :
    (result.map (second ++ ·)).map (first ++ ·) = result.map (first ++ second ++ ·) := by
  cases result with
  | error error => rfl
  | ok others => exact congrArg Except.ok (List.append_assoc first second others).symm

variable {first : Char} {found : Option TokenKind} {text tail later : List Char}
  {others : List Token}

variable {fault : LexFault} {chunk : List Char} {token : Token}

theorem tokensFrom_error (failed : piece first tail = .error fault) :
    tokensFrom position depth (first :: tail) = .error ⟨position.line, fault⟩ := by
  rw [tokensFrom, failed]

theorem tokensFrom_piece {rest : List Char}
    (ok : piece first (chunk ++ rest) = .ok (found, chunk.length)) :
    tokensFrom position depth (first :: (chunk ++ rest)) =
      (tokensFrom (position.past (first :: chunk)) (depthPast depth found) rest).map
        (emitted position depth (first :: chunk) found ++ ·) := by
  rw [tokensFrom]
  simp only [ok, List.take_left, List.drop_left]
  cases found with
  | none =>
    change tokensFrom _ depth rest = (tokensFrom _ depth rest).map _
    cases tokensFrom (position.past (first :: chunk)) depth rest <;> rfl
  | some kind =>
    simp only [depthPast, Option.elim_some]
    cases tokensFrom (position.past (first :: chunk)) (kind.depthAfter depth) rest with
    | error error => rfl
    | ok others =>
      simp only [emitted, Except.map]
      split <;> rfl

theorem Reaches.tokensFrom (reaches : Reaches position depth before tokens final rest) :
    tokensFrom position depth (before ++ rest) =
      (tokensFrom (position.past before) final rest).map (tokens ++ ·) := by
  induction reaches with
  | here =>
    rw [past_nil, List.nil_append]
    exact (map_nil_append _).symm
  | step ok others ih =>
    rw [List.cons_append, List.append_assoc, tokensFrom_piece ok, ih, map_append_append,
      Position.past_append]
    rfl

theorem Reaches.exists_others {all : List Token}
    (reaches : Reaches position depth before tokens final rest)
    (ok : Lexer.tokensFrom position depth (before ++ rest) = .ok all) :
    ∃ others, Lexer.tokensFrom (position.past before) final rest = .ok others ∧
      all = tokens ++ others := by
  rw [reaches.tokensFrom] at ok
  obtain ⟨others, found, same⟩ := Except.map_eq_ok_iff.mp ok
  exact ⟨others, found, same.symm⟩

/-- The lexer comes to the end of a text, or to a place where it fails. -/
theorem exists_reaches (position : Position) (depth : Nat) (text : List Char) :
    ∃ before tokens final rest, text = before ++ rest ∧
      Reaches position depth before tokens final rest ∧
      (rest = [] ∨ ∃ first tail fault, rest = first :: tail ∧ piece first tail = .error fault) := by
  generalize size : text.length = count
  induction count using Nat.strongRecOn generalizing position depth text with
  | ind count ih =>
    cases text with
    | nil => exact ⟨[], [], depth, [], rfl, .here, .inl rfl⟩
    | cons first tail =>
      cases ok : piece first tail with
      | error fault => exact ⟨[], [], depth, first :: tail, rfl, .here, .inr ⟨_, _, _, rfl, ok⟩⟩
      | ok pair =>
        obtain ⟨found, taken⟩ := pair
        obtain ⟨chunk, later, rfl, rfl⟩ := exists_piece ok
        have shorter : later.length < count := by grind
        obtain ⟨before, tokens, final, rest, rfl, reaches, ends⟩ :=
          ih later.length shorter (position.past (first :: chunk)) (depthPast depth found)
            later rfl
        exact ⟨first :: (chunk ++ before), _, final, rest, by simp, .step ok reaches, ends⟩

theorem exists_reaches_of_ok (ok : tokensFrom position depth text = .ok tokens) :
    ∃ final, Reaches position depth text tokens final [] := by
  obtain ⟨before, others, final, rest, rfl, reaches, ends⟩ := exists_reaches position depth text
  rw [reaches.tokensFrom] at ok
  rcases ends with rfl | ⟨first, tail, fault, rfl, failed⟩
  · rw [Lexer.tokensFrom] at ok
    cases ok
    exact ⟨final, by simpa using reaches⟩
  · rw [tokensFrom_error failed] at ok
    cases ok

theorem exists_reaches_of_error {error : LexError}
    (failed : tokensFrom position depth text = .error error) :
    ∃ before tokens final first tail, text = before ++ first :: tail ∧
      Reaches position depth before tokens final (first :: tail) ∧
      piece first tail = .error error.fault := by
  obtain ⟨before, others, final, rest, rfl, reaches, ends⟩ := exists_reaches position depth text
  rw [reaches.tokensFrom] at failed
  rcases ends with rfl | ⟨first, tail, fault, rfl, isFault⟩
  · rw [Lexer.tokensFrom] at failed
    cases failed
  · rw [tokensFrom_error isFault] at failed
    cases failed
    exact ⟨before, others, final, first, tail, rfl, reaches, isFault⟩

theorem exists_piece_of_ok (ok : tokensFrom position depth (first :: tail) = .ok tokens) :
    ∃ found chunk later, tail = chunk ++ later ∧ piece first tail = .ok (found, chunk.length) := by
  cases place : piece first tail with
  | error fault =>
    rw [tokensFrom, place] at ok
    cases ok
  | ok pair =>
    obtain ⟨chunk, later, same, length⟩ := exists_piece place
    exact ⟨pair.1, chunk, later, same, by rw [← length]⟩

theorem Reaches.append (reaches : Reaches position depth before tokens final rest)
    (filled : rest ≠ []) (breaks : Breaks later) :
    Reaches position depth before tokens final (rest ++ later) := by
  induction reaches with
  | here => exact .here
  | @step first chunk before rest found depth tokens final position ok others ih =>
    -- a comment that was passed has met its line end, for some text is left behind it
    refine .step ?_ (ih filled)
    rw [← List.append_assoc before, ← List.append_assoc chunk]
    refine piece_append ok breaks (fun isComment => .inl ?_) fun _ empty => ?_
    · refine Classical.byContradiction fun absent => ?_
      have whole : (chunk ++ (before ++ rest) ++ []).takeWhile (· ≠ '\n') =
          chunk ++ (before ++ rest) ++ [] :=
        List.takeWhile_append_of_pos fun _ member =>
          decide_eq_true (ne_of_mem_of_not_mem member absent)
      simp_all [piece_comment]
    · simp_all

/-- What stands before a character that no token goes on with is passed whatever follows it. -/
theorem Reaches.exchange {barrier : Char} {other : List Char}
    (reaches : Reaches position depth before tokens final (barrier :: later))
    (isBarrier : isBarrier barrier = true) (notLineEnd : barrier ≠ '\n') :
    Reaches position depth before tokens final (barrier :: other) := by
  generalize same : barrier :: later = rest at reaches
  induction reaches with
  | here => exact .here
  | step ok others ih =>
    subst same
    rw [← List.append_assoc] at ok
    refine .step ?_ (ih rfl)
    rw [← List.append_assoc]
    refine piece_exchange ok ?_ isBarrier notLineEnd
    simp

theorem Reaches.trans {middle : Nat}
    (reaches : Reaches position depth before tokens middle (text ++ rest))
    (goesOn : Reaches (position.past before) middle text others final rest) :
    Reaches position depth (before ++ text) (tokens ++ others) final rest := by
  generalize whole : text ++ rest = after at reaches
  induction reaches with
  | here => exact goesOn
  | step ok _ ih =>
    subst whole
    rw [← List.append_assoc _ text] at ok
    rw [← List.cons_append, ← Position.past_append] at goesOn
    rw [List.cons_append, List.append_assoc, List.append_assoc]
    exact .step ok (ih goesOn rfl)

theorem Reaches.single (ok : piece first (chunk ++ rest) = .ok (found, chunk.length)) :
    Reaches position depth (first :: chunk) (emitted position depth (first :: chunk) found)
      (depthPast depth found) rest := by
  have reached : Reaches position depth (first :: (chunk ++ []))
      (emitted position depth (first :: chunk) found ++ []) (depthPast depth found) rest :=
    .step ok .here
  rwa [List.append_nil, List.append_nil] at reached

theorem Reaches.lineEnd (reaches : Reaches position depth before tokens final ('\n' :: rest)) :
    Reaches position depth (before ++ ['\n'])
      (tokens ++ emitted (position.past before) final ['\n'] (some .newline)) final rest :=
  Reaches.trans reaches (.single (piece_newline ([] ++ rest)))

theorem map_kind_emitted (position other : Position) (depth : Nat) (text later : List Char)
    (found : Option TokenKind) :
    (emitted position depth text found).map Token.kind =
      (emitted other depth later found).map Token.kind := by
  cases found with
  | none => rfl
  | some kind =>
    rw [emitted, emitted]
    split <;> rfl

/-- A token of a text belongs to its first piece, or stands after it. -/
theorem emitted_or {later : List Token}
    (same : others ++ token :: later = emitted position depth text found ++ tokens) :
    (others = [] ∧ found = some token.kind ∧ emitted position depth text found = [token]) ∨
      ∃ sooner, others = emitted position depth text found ++ sooner ∧
        sooner ++ token :: later = tokens := by
  by_cases hidden : emitted position depth text found = []
  · simp_all
  · cases found with
    | none => exact absurd rfl hidden
    | some kind =>
      have shown : ¬(kind.isNewline && depth ≠ 0) = true := fun isHidden => hidden (if_pos isHidden)
      rw [emitted, if_neg shown] at same ⊢
      cases others with
      | nil => simp_all
      | cons head others => simp_all

/-- A token stands where the lexer finds a piece, after those of the tokens before it. -/
theorem Reaches.exists_place {later : List Token}
    (reaches : Reaches position depth before (others ++ token :: later) final rest) :
    ∃ front middle first chunk after, before = front ++ first :: (chunk ++ after) ∧
      Reaches position depth front others middle (first :: (chunk ++ (after ++ rest))) ∧
      piece first (chunk ++ (after ++ rest)) = .ok (some token.kind, chunk.length) ∧
      emitted (position.past front) middle (first :: chunk) (some token.kind) = [token] := by
  generalize same : others ++ token :: later = tokens at reaches
  induction reaches generalizing others with
  | here => exact absurd same (by simp)
  | @step first chunk before rest found depth tokens final position ok _ ih =>
    obtain ⟨rfl, rfl, given⟩ | ⟨sooner, rfl, others⟩ := emitted_or same
    · exact ⟨[], depth, first, chunk, before, rfl, .here, ok, given⟩
    · obtain ⟨front, middle, start, inner, after, rfl, reached, place, given⟩ := ih others
      refine ⟨first :: (chunk ++ front), middle, start, inner, after, by simp, ?_, place, ?_⟩
      · exact .step (by simpa using ok) reached
      · rwa [← List.cons_append, ← Position.past_append]

/-- The piece that a text ends in: a gap, a token, or the front of a token that is open. -/
def finalPiece : List Char → List Char
  | [] => []
  | first :: tail =>
    match piece first tail with
    | .error _ => first :: tail
    | .ok (_, taken) =>
      if tail.drop taken = [] then first :: tail else finalPiece (tail.drop taken)
termination_by text => text.length
decreasing_by simp only [List.length_drop, List.length_cons]; omega

theorem finalPiece_of_error (failed : piece first tail = .error fault) :
    finalPiece (first :: tail) = first :: tail := by
  rw [finalPiece, failed]

theorem finalPiece_of_ok (ok : piece first tail = .ok (found, tail.length)) :
    finalPiece (first :: tail) = first :: tail := by
  rw [finalPiece]
  simp only [ok, List.drop_length, if_pos]

theorem finalPiece_of_reaches (reaches : Reaches position depth before tokens final rest)
    (filled : rest ≠ []) : finalPiece (before ++ rest) = finalPiece rest := by
  induction reaches with
  | here => rfl
  | step ok _ ih =>
    rw [List.cons_append, List.append_assoc, finalPiece]
    simp_all

theorem Reaches.exists_last (reaches : Reaches position depth before tokens final [])
    (filled : before ≠ []) :
    ∃ front others middle first chunk found, before = front ++ first :: chunk ∧
      Reaches position depth front others middle (first :: chunk) ∧
      piece first chunk = .ok (found, chunk.length) ∧
      tokens = others ++ emitted (position.past front) middle (first :: chunk) found ∧
      final = depthPast middle found ∧ finalPiece before = first :: chunk := by
  generalize none : [] = rest at reaches
  induction reaches with
  | here => exact absurd rfl filled
  | @step first chunk before rest found depth tokens final position ok others ih =>
    subst none
    by_cases last : before = []
    · subst last
      cases others
      rw [List.append_nil] at ok
      refine ⟨[], [], depth, first, chunk, found, by simp, .here, by simpa using ok, ?_, rfl, ?_⟩
      · rw [List.append_nil]
        rfl
      · rw [List.append_nil] at ok ⊢
        exact finalPiece_of_ok ok
    · obtain ⟨front, sooner, middle, start, inner, kind, rfl, reached, place, rfl, rfl, ends⟩ :=
        ih last rfl
      refine ⟨first :: (chunk ++ front), emitted position depth (first :: chunk) found ++ sooner,
        middle, start, inner, kind, by simp, ?_, place, ?_, rfl, ?_⟩
      · exact .step (by simpa using ok) reached
      · rw [← List.cons_append, ← Position.past_append, List.append_assoc]
      · have passed : Reaches position depth (first :: chunk) _ _ (front ++ start :: inner) :=
          .single (by simpa using ok)
        exact (finalPiece_of_reaches passed last).trans ends

/--
A text is divided alike in front of every other that no token goes on with, unless its last
piece is a comment, or a backslash in front of a line end.
-/
theorem Reaches.extend (reaches : Reaches position depth before tokens final [])
    (breaks : Breaks later)
    (comment : (finalPiece before).head? = some '#' → later.head?.all (· == '\n') = true)
    (escape : finalPiece before = ['\\'] → later.head? ≠ some '\n') :
    Reaches position depth before tokens final later := by
  by_cases filled : before = []
  · subst filled
    cases reaches
    exact .here
  · obtain ⟨front, others, middle, first, chunk, found, rfl, reached, last, rfl, rfl, ends⟩ :=
      reaches.exists_last filled
    rw [ends] at comment escape
    refine (reached.append (List.cons_ne_nil _ _) breaks).trans (.single ?_)
    refine piece_append last breaks (fun isComment => .inr ?_) fun isEscape alone => ?_
    · exact comment (by rw [isComment]; rfl)
    · exact escape (by rw [isEscape, alone])

end Reaching

end Lexer

end HybridShell
