import HybridShell.Proofs.LexerTiling

/-!
# Reading by places

The readers pass lists on.  A reader can also keep its input whole and hold a place in it: a byte
offset in a text, or an index into tokens.  The readers here do so, and have no result where a
place is not in the input or is inside a character, where a number is taken from a smaller one, and
where a loop takes more steps than its input has parts.  `none` stands for all of these.  This module
has what they share, and the lexer.
-/

namespace HybridShell

namespace Text

def cut? : List Char → Nat → Option (List Char × List Char)
  | [], offset => if offset = 0 then some ([], []) else none
  | character :: rest, offset =>
    if offset = 0 then some ([], character :: rest)
    else if character.utf8Size ≤ offset then
      (cut? rest (offset - character.utf8Size)).map fun (front, back) =>
        (character :: front, back)
    else none

variable (text : List Char)

def before? (offset : Nat) : Option (List Char) :=
  (cut? text offset).map Prod.fst

def after? (offset : Nat) : Option (List Char) :=
  (cut? text offset).map Prod.snd

def between? (start stop : Nat) : Option (List Char) :=
  (before? text stop).bind (after? · start)

variable (front back : List Char)

theorem cut?_append : cut? (front ++ back) (byteSize front) = some (front, back) := by
  induction front with
  | nil => cases back <;> rfl
  | cons character rest ih =>
    have filled : character.utf8Size + byteSize rest ≠ 0 := by
      have := Char.utf8Size_pos character
      omega
    simp_all [cut?, byteSize]

theorem before?_append : before? (front ++ back) (byteSize front) = some front := by
  rw [before?, cut?_append]
  rfl

theorem before?_takeWhile (test : Char → Bool) (text : List Char) :
    before? text (byteSize (text.takeWhile test)) = some (text.takeWhile test) := by
  have whole := before?_append (text.takeWhile test) (text.dropWhile test)
  rwa [List.takeWhile_append_dropWhile] at whole

theorem after?_append : after? (front ++ back) (byteSize front) = some back := by
  rw [after?, cut?_append]
  rfl

theorem between?_append (middle : List Char) :
    between? (front ++ (middle ++ back)) (byteSize front) (byteSize front + byteSize middle) =
      some middle := by
  rw [between?, ← byteSize_append, ← List.append_assoc, before?_append]
  exact after?_append front middle

end Text

/-- A difference, if it is not below zero. -/
def minus? (whole part : Nat) : Option Nat :=
  if part ≤ whole then some (whole - part) else none

theorem minus?_of_le {whole part : Nat} (inside : part ≤ whole) :
    minus? whole part = some (whole - part) :=
  if_pos inside

/-- Steps that read at a place and move it. -/
abbrev Strict := StateT Nat (ExceptT ParseError Option)

namespace Strict

def demand {α : Type} (found : Option α) : Strict α :=
  fun place => found.map fun value => .ok (value, place)

def reading {α : Type} (found : Option (Except ParseError α)) : Strict α :=
  fun place => found.map fun result => result.map fun value => (value, place)

def move (width : Nat) : Strict Unit :=
  fun place => some (.ok ((), place + width))

def outcome {α : Type} (step : Strict α) (place : Nat) : Option (Except ParseError α) :=
  Option.map (Except.map Prod.fst) (step place)

section Steps

variable {α β : Type} {first : Strict α} {place next : Nat} {value : α} {error : ParseError}

theorem bind_ok (ran : first place = some (.ok (value, next))) (later : α → Strict β) :
    (first >>= later) place = later value next := by
  change (first place).bind _ = _
  rw [ran]
  rfl

theorem bind_error (failed : first place = some (.error error)) (later : α → Strict β) :
    (first >>= later) place = some (.error error) := by
  change (first place).bind _ = _
  rw [failed]
  rfl

theorem map_ok (ran : first place = some (.ok (value, next))) (change : α → β) :
    (change <$> first) place = some (.ok (change value, next)) := by
  rw [map_eq_pure_bind, bind_ok ran]
  rfl

theorem map_error (failed : first place = some (.error error)) (change : α → β) :
    (change <$> first) place = some (.error error) := by
  rw [map_eq_pure_bind, bind_error failed]

theorem move_bind (width : Nat) (later : Unit → Strict β) :
    (move width >>= later) place = later () (place + width) :=
  rfl

theorem demand_bind (value : α) (later : α → Strict β) :
    (demand (some value) >>= later) place = later value place :=
  rfl

end Steps

/-! ### Source text -/

/--
The bytes of a piece.  Those of a string are counted up to its closing quote, those of a command
text from its opening bracket, and most others from what is left after them.
-/
def pieceWidth? (first : Char) (tail : List Char) : Option TokenKind → Nat → Option Nat
  | none, _ =>
    some (if first = '#' then Text.byteSize ((first :: tail).takeWhile (· ≠ '\n'))
      else if first = '\\' then 2 else 1)
  | some .newline, _ => some 1
  | some (.str _), taken => some (Text.byteSize ((first :: tail).take taken) + 1)
  | some (.subprocess _ body), _ => do
    let after ← Text.after? (first :: tail) 2
    let inner ← Text.before? after (Text.byteSize body.toList)
    some (2 + Text.byteSize inner + 1)
  | some (.unknown character), _ => some character.utf8Size
  | some _, taken => minus? (Text.byteSize (first :: tail)) (Text.byteSize (tail.drop taken))

def tokensFrom (source : List Char) (position : Position) (depth : Nat) :
    Nat → Option (Except LexError (List Token))
  | 0 => none
  | steps + 1 => do
    match ← Text.after? source position.offset with
    | [] => some (.ok [])
    | first :: tail =>
      match Lexer.piece first tail with
      | .error fault => some (.error ⟨position.line, fault⟩)
      | .ok (found, taken) => do
        let width ← pieceWidth? first tail found taken
        let passed ← Text.between? source position.offset (position.offset + width)
        let others ← tokensFrom source
          ⟨position.offset + width, position.line + passed.count '\n'⟩
          (Lexer.depthPast depth found) steps
        some (others.map (Lexer.emitted position depth passed found ++ ·))

def lex (source : List Char) : Option (Except LexError (List Token)) :=
  tokensFrom source .start 0 (source.length + 1)

theorem width_left (text later : List Char) :
    minus? (Text.byteSize (text ++ later)) (Text.byteSize later) = some (Text.byteSize text) := by
  rw [Text.byteSize_append, minus?_of_le (Nat.le_add_left _ _), Nat.add_sub_cancel]

variable {first : Char} {chunk later : List Char}

open Lexer in
theorem tokenWidth?_eq {kind : TokenKind} (spells : TokenText (first :: chunk) later kind) :
    pieceWidth? first (chunk ++ later) (some kind) chunk.length =
      some (Text.byteSize (first :: chunk)) := by
  have left : minus? (Text.byteSize (first :: (chunk ++ later)))
      (Text.byteSize ((chunk ++ later).drop chunk.length)) =
        some (Text.byteSize (first :: chunk)) := by
    rw [List.drop_left]
    exact width_left (first :: chunk) later
  cases spells with
  | @string _ spelled _ _ quotes =>
    have quote : Text.byteSize [first] = 1 := by rcases quotes with rfl | rfl <;> rfl
    have whole : (first :: (spelled ++ [first] ++ later)).take (spelled ++ [first]).length =
        first :: spelled := by
      simp
    rw [pieceWidth?, whole, ← List.cons_append, Text.byteSize_append, quote]
  | @subprocess _ opening closing capture inner _ opens =>
    have opener : Text.byteSize [first, opening] = 2 := by cases opens <;> rfl
    have closer : Text.byteSize [closing] = 1 := by cases opens <;> rfl
    have entered (body : List Char) : Text.after? (first :: opening :: body) 2 = some body := by
      rw [← opener]
      exact Text.after?_append [first, opening] body
    have size : Text.byteSize (first :: opening :: (inner ++ [closing])) =
        2 + Text.byteSize inner + 1 := by
      simp [← opener, ← closer, ← Text.byteSize_append]
    rw [pieceWidth?, List.cons_append, entered, String.toList_ofList, List.append_assoc, size]
    simp only [Option.bind_eq_bind, Option.bind_some, Text.before?_append]
  | unknown => rfl
  | whole | decimal | name | environment | pair | single => exact left

open Lexer in
theorem pieceWidth?_eq {found : Option TokenKind}
    (ok : piece first (chunk ++ later) = .ok (found, chunk.length)) :
    pieceWidth? first (chunk ++ later) found chunk.length = some (Text.byteSize (first :: chunk)) := by
  generalize length : chunk.length = taken at ok ⊢
  cases piece_eq_ok_iff.mp ok with
  | gap isGap =>
    obtain rfl := List.length_eq_zero_iff.mp length
    rcases isGap with rfl | rfl | rfl <;> rfl
  | continuation newline =>
    obtain ⟨character, rfl⟩ := List.length_eq_one_iff.mp length
    obtain rfl : character = '\n' := Option.some.inj newline
    rfl
  | comment =>
    have same : (chunk ++ later).takeWhile (· ≠ '\n') = chunk := by
      rw [← take_takeWhile, ← length, List.take_left]
    rw [pieceWidth?, if_pos rfl, List.takeWhile_cons_of_pos (by decide), same]
  | newline =>
    obtain rfl := List.length_eq_zero_iff.mp length
    rfl
  | token _ _ _ _ found =>
    subst length
    exact tokenWidth?_eq (token_eq_ok_iff.mp found)

theorem tokensFrom_eq {source before rest : List Char} {steps : Nat}
    (whole : source = before ++ rest) (depth : Nat) (enough : rest.length < steps) :
    tokensFrom source (Position.start.past before) depth steps =
      some (Lexer.tokensFrom (Position.start.past before) depth rest) := by
  induction steps generalizing before rest depth with
  | zero => cases enough
  | succ steps ih =>
    have offset : (Position.start.past before).offset = Text.byteSize before := Nat.zero_add _
    have here : Text.after? source (Position.start.past before).offset = some rest := by
      rw [whole, offset, Text.after?_append]
    rw [tokensFrom, here]
    cases rest with
    | nil =>
      rw [Lexer.tokensFrom]
      rfl
    | cons first tail =>
      cases ok : Lexer.piece first tail with
      | error fault =>
        rw [Lexer.tokensFrom_error ok]
        simp only [Option.bind_eq_bind, Option.bind_some, ok]
      | ok pair =>
        obtain ⟨found, taken⟩ := pair
        obtain ⟨chunk, later, rfl, rfl⟩ := Lexer.exists_piece ok
        have longer : source = (before ++ first :: chunk) ++ later := by
          rw [whole, List.append_assoc, List.cons_append]
        have passed : Text.between? source (Position.start.past before).offset
            ((Position.start.past before).offset + Text.byteSize (first :: chunk)) =
              some (first :: chunk) := by
          rw [whole, offset]
          exact Text.between?_append before later (first :: chunk)
        rw [List.length_cons, List.length_append] at enough
        have next := ih longer (Lexer.depthPast depth found) (by omega)
        rw [← Position.past_append] at next
        rw [Lexer.tokensFrom_piece ok]
        simp only [Option.bind_eq_bind, Option.bind_some, ok, pieceWidth?_eq ok, passed]
        simp_all [Position.past]

theorem lex_eq (source : String) : lex source.toList = some (HybridShell.lex source) :=
  tokensFrom_eq (List.nil_append _).symm 0 (Nat.lt_succ_self _)

end Strict

end HybridShell
