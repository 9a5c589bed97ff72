import HybridShell.Proofs.StrictReading

/-!
# Reading command text by places

The scanner of command text with a byte offset for its place.  Each move is by the number of bytes
that was just matched: the width of a character, the fixed widths of openers and operators, or what
a search found.
-/

namespace HybridShell

open Lexer

theorem CommandScanner.body_shortens {cursor : Cursor} {text : List Char} {opener : String}
    {taken : Nat} (filled : cursor.rest ≠ []) (opens : 0 < opener.length)
    (ok : body cursor opener = .ok (text, taken)) : text.length < cursor.rest.length := by
  simp only [body] at ok
  split at ok
  · cases ok
    have nonempty : 0 < cursor.rest.length := List.length_pos_iff.mpr filled
    grind
  · cases ok

namespace Strict

open CommandScanner (Cursor WordAtom RedirectOperator)

/-- Readers for the bodies of brackets. -/
structure Bodies where
  chain : List Char → Option (Except ParseError Chain)
  expression : List Char → Option (Except ParseError Expr)

/-- The name of a variable after `$`, and the bytes from the `$` on. -/
def nameWidth? : List Char → Option (Option (List Char × Nat))
  | '{' :: braced =>
    let inner := braced.takeWhile (· ≠ '}')
    if inner.length < braced.length then do
      let name ← Text.before? braced (Text.byteSize inner)
      some (if name ≠ [] ∧ name.all isNameCharacter then
        some (name, Text.byteSize inner + 3) else none)
    else some none
  | after =>
    let inner := after.takeWhile isNameCharacter
    if Text.byteSize inner = 0 ∨ after.head?.any Char.isDigit then some none
    else do
      let name ← Text.before? after (Text.byteSize inner)
      some (some (name, Text.byteSize inner + 1))

section Scanner

variable (source : List Char)

def rest : Strict (List Char) :=
  fun place => (Text.after? source place).map fun text => .ok (text, place)

/-- Fail at the line of the place. -/
def fault {α : Type} (cause : GrammarFault) : Strict α :=
  fun place =>
    (Text.before? source place).map fun passed => .error (.malformed (passed.count '\n' + 1) cause)

def skipBlanks : Nat → Strict Unit
  | 0 => demand none
  | steps + 1 => do
    match ← rest source with
    | [] => pure ()
    | first :: tail =>
      if Text.isBlank first then do
        move first.utf8Size
        skipBlanks steps
      else if first = '\\' ∧ tail.head? = some '\n' then do
        move 2
        skipBlanks steps
      else pure ()

def variableName? : Strict (Option (List Char)) := do
  let text ← rest source
  match ← demand (nameWidth? text.tail) with
  | some (name, width) => do
    move width
    pure (some name)
  | none => pure none

def doubleQuoted : Nat → Strict (List WordAtom)
  | 0 => demand none
  | steps + 1 => do
    match ← rest source with
    | [] => fault source .unterminatedString
    | '"' :: _ => do
      move 1
      pure []
    | '\\' :: _ => do
      move 1
      match ← rest source with
      | [] => (.quoted '\\' :: ·) <$> doubleQuoted steps
      | escaped :: _ =>
        if ['"', '\\', '$', '\x60'].contains escaped then do
          move 1
          (.quoted escaped :: ·) <$> doubleQuoted steps
        else if escaped = '\n' then do
          move 1
          doubleQuoted steps
        else (.quoted '\\' :: ·) <$> doubleQuoted steps
    | '$' :: _ => do
      match ← variableName? source with
      | some name => (.part (.env (String.ofList name)) :: ·) <$> doubleQuoted steps
      | none => do
        move 1
        (.quoted '$' :: ·) <$> doubleQuoted steps
    | character :: _ => do
      move character.utf8Size
      (.quoted character :: ·) <$> doubleQuoted steps

/-- The body of the bracket whose opener stands here. -/
def balanced (opener : String) : Strict (List Char) := fun place =>
  (Text.after? source (place + opener.length)).bind fun text =>
    match bodyLength '(' ')' .plain 0 text with
    | none => fault source (.unterminatedBody opener) place
    | some length =>
      let width := Text.byteSize (text.take length)
      (Text.before? text width).map fun body =>
        .ok (body, place + (opener.length + width + 1))

variable (bodies : Bodies)

/-- What double quotes stand for; empty ones are a text only where a word starts. -/
def quotedAtoms (atStart : Bool) (atoms : List WordAtom) : List WordAtom :=
  if ¬ atoms.isEmpty then (CommandScanner.joinAtoms atoms).map .part
  else [if atStart then .part (.literal "" true) else .divider]

def wordStep (atStart : Bool) (first : Char) (tail : List Char) : Strict (List WordAtom) :=
  match first, tail with
  | '\'', _ => do
    let body ← demand (Text.after? (first :: tail) 1)
    let inner := body.takeWhile (· ≠ '\'')
    if inner.length < body.length then do
      let text ← demand (Text.before? body (Text.byteSize inner))
      move (Text.byteSize inner + 2)
      pure [.part (.literal (String.ofList text) true)]
    else fault source .unterminatedString
  | '"', _ => do
    move 1
    quotedAtoms atStart <$> doubleQuoted source (source.length + 1)
  | '\\', _ => do
    move 1
    match ← rest source with
    | [] => pure []
    | escaped :: _ => do
      move escaped.utf8Size
      pure [.part (.literal (String.singleton escaped) true)]
  | '$', '(' :: _ => do
    let chain ← reading (bodies.chain (← balanced source "$("))
    pure [.part (.captured chain)]
  | '$', _ => do
    match ← variableName? source with
    | some name => pure [.part (.env (String.ofList name))]
    | none => do
      move 1
      pure [.plain '$']
  | '@', '$' :: '(' :: _ => do
    let chain ← reading (bodies.chain (← balanced source "@$("))
    pure [.part (.splitCaptured chain)]
  | '@', '(' :: _ => do
    let expression ← reading (bodies.expression (← balanced source "@("))
    pure [.part (.splice expression)]
  | '~', _ => do
    let after ← demand (Text.after? (first :: tail) 1)
    move 1
    if atStart && (CommandScanner.atBoundary after || after.head? == some '/') then
      pure [.part .tilde]
    else pure [.plain '~']
  | _, _ => do
    move first.utf8Size
    pure [.plain first]

def wordAtoms (atStart : Bool) : Nat → Strict (List WordAtom)
  | 0 => demand none
  | steps + 1 => do
    match ← rest source with
    | [] => pure []
    | first :: tail =>
      if CommandScanner.isBoundary first then pure []
      else do
        let atoms ← wordStep source bodies atStart first tail
        let others ← wordAtoms (atStart && atoms.isEmpty) steps
        pure (atoms ++ others)

def word : Strict Word :=
  CommandScanner.joinAtoms <$> wordAtoms source bodies true (source.length + 1)

/-- The bytes of the target that names the other output stream, if there is one. -/
def duplicateWidth? (operator : RedirectOperator) (text : List Char) : Option (Option Nat) := do
  let found ← (CommandScanner.duplicateTargets operator).findM? fun target =>
    if target.toList.isPrefixOf text then
      (Text.after? text (Text.byteSize target.toList)).map CommandScanner.atBoundary
    else some false
  some (found.map fun target => Text.byteSize target.toList)

def redirection (operator : RedirectOperator) : Strict Redirect := do
  let arrow := if operator.mode = .append then 2 else 1
  let after := (← rest source).drop operator.source.toList.length
  let target ← demand (Text.after? after arrow)
  let width := Text.byteSize operator.source.toList + arrow
  match ← demand (duplicateWidth? operator target) with
  | some length => do
    move (width + length)
    pure (if operator.stream = .stderr then .errToOut else .outToErr)
  | none => do
    move width
    skipBlanks source (source.length + 1)
    if CommandScanner.atBoundary (← rest source) then fault source .missingRedirectTarget
    else .file operator.stream operator.mode <$> word source bodies

def tokenAt (text : List Char) : Strict CommandToken :=
  match text, CommandScanner.redirectOperator? text with
  | '|' :: '|' :: _, _ => do
    move 2
    pure .or
  | '|' :: _, _ => do
    move 1
    pure .pipe
  | '&' :: '&' :: _, _ => do
    move 2
    pure .and
  | _, some operator => .redirect <$> redirection source bodies operator
  | '&' :: _, none => do
    move 1
    pure .background
  | ';' :: _, none => fault source (.unexpectedSymbol ';')
  | '(' :: _, none => fault source (.unexpectedSymbol '(')
  | ')' :: _, none => fault source (.unexpectedSymbol ')')
  | _, none => .word <$> word source bodies

def commandTokens : Nat → Strict (List CommandToken)
  | 0 => demand none
  | steps + 1 => do
    skipBlanks source (source.length + 1)
    match ← rest source with
    | [] => pure []
    | first :: tail => do
      let token ← tokenAt source bodies (first :: tail)
      let others ← commandTokens steps
      pure (token :: others)

end Scanner

/-! ### Places and cursors -/

def Stands (source : List Char) (place : Nat) (cursor : Cursor) : Prop :=
  ∃ before, source = before ++ cursor.rest ∧ place = Text.byteSize before ∧
    cursor.line = before.count '\n' + 1

/-- A step gives a value and comes to the place after the given number of characters. -/
def Passes {α : Type} (source : List Char) (cursor : Cursor)
    (result : Option (Except ParseError (α × Nat))) (value : α) (count : Nat) : Prop :=
  ∃ place, result = some (.ok (value, place)) ∧ Stands source place (cursor.advance count)

/-- A step ends as a reader of cursors does. -/
inductive Agrees {α : Type} (source : List Char) (cursor : Cursor) :
    Option (Except ParseError (α × Nat)) → Except ParseError (α × Nat) → Prop
  | failed : Agrees source cursor (some (.error error)) (.error error)
  | passed (passes : Passes source cursor result value count) :
      Agrees source cursor result (.ok (value, count))

theorem byteSize_cons (character : Char) (rest : List Char) :
    Text.byteSize (character :: rest) = character.utf8Size + Text.byteSize rest :=
  rfl

/-- The bytes of an opener, what stands after it, and the character that closes it. -/
theorem byteSize_take_closed (opener inner later : List Char) (closing : Char) :
    Text.byteSize ((opener ++ (inner ++ closing :: later)).take (opener.length + inner.length + 1)) =
      Text.byteSize opener + Text.byteSize inner + closing.utf8Size := by
  have whole : opener ++ (inner ++ closing :: later) = (opener ++ inner ++ [closing]) ++ later := by
    simp
  have length : opener.length + inner.length + 1 = (opener ++ inner ++ [closing]).length := by grind
  rw [whole, length, List.take_left, Text.byteSize_append, Text.byteSize_append]
  rfl

section Places

variable {α β : Type} {source : List Char} {place : Nat} {cursor : Cursor}
  {result : Option (Except ParseError (α × Nat))} {value : α} {count : Nat}

theorem Stands.rest_eq (stands : Stands source place cursor) :
    rest source place = some (.ok (cursor.rest, place)) := by
  obtain ⟨before, rfl, rfl, _⟩ := stands
  rw [rest, Text.after?_append]
  rfl

theorem Stands.fault_eq (stands : Stands source place cursor) (cause : GrammarFault) :
    fault source cause place = some (cursor.fault cause : Except ParseError (α × Nat)) := by
  obtain ⟨before, rfl, rfl, line⟩ := stands
  rw [fault, Text.before?_append, Cursor.fault, line]
  rfl

theorem Stands.fault_agrees (stands : Stands source place cursor) (cause : GrammarFault) :
    Agrees source cursor (fault source cause place)
      (cursor.fault cause : Except ParseError (α × Nat)) := by
  rw [stands.fault_eq]
  exact .failed

theorem Stands.advance (stands : Stands source place cursor) (count : Nat) :
    Stands source (place + Text.byteSize (cursor.rest.take count)) (cursor.advance count) := by
  obtain ⟨before, rfl, rfl, line⟩ := stands
  refine ⟨before ++ cursor.rest.take count, ?_, (Text.byteSize_append _ _).symm, ?_⟩
  · rw [List.append_assoc, Cursor.advance, List.take_append_drop]
  · change cursor.line + _ = _
    rw [List.count_append, line, Nat.add_right_comm]

theorem Stands.length_le (stands : Stands source place cursor) :
    cursor.rest.length ≤ source.length := by
  obtain ⟨before, rfl, _, _⟩ := stands
  simp

theorem advance_advance (cursor : Cursor) (first second : Nat) :
    (cursor.advance first).advance second = cursor.advance (first + second) := by
  simp only [Cursor.advance, List.drop_drop, List.take_add, List.count_append, Nat.add_assoc]

variable {first : Nat} {model : Except ParseError (α × Nat)}

theorem Passes.after (passes : Passes source (cursor.advance first) result value count) :
    Passes source cursor result value (count + first) := by
  obtain ⟨place, ran, stands⟩ := passes
  exact ⟨place, ran, by rwa [Nat.add_comm, ← advance_advance]⟩

theorem Agrees.passes (agrees : Agrees source cursor result (.ok (value, count))) :
    Passes source cursor result value count := by
  cases agrees with
  | passed passes => exact passes

theorem Agrees.eq_error {error : ParseError} (agrees : Agrees source cursor result (.error error)) :
    result = some (.error error) := by
  cases agrees with
  | failed => rfl

theorem Agrees.after (agrees : Agrees source (cursor.advance first) result model) :
    Agrees source cursor result (model.map fun (value, count) => (value, count + first)) := by
  cases agrees with
  | failed => exact .failed
  | passed passes => exact .passed passes.after

theorem Agrees.map {step : Strict α} (agrees : Agrees source cursor (step place) model)
    (change : α → β) :
    Agrees source cursor ((change <$> step) place)
      (model.map fun (value, count) => (change value, count)) := by
  generalize ran : step place = result at agrees
  cases agrees with
  | failed =>
    rw [map_error ran]
    exact .failed
  | passed passes =>
    obtain ⟨next, rfl, stands⟩ := passes
    exact .passed ⟨next, map_ok ran change, stands⟩

end Places

/-! ### Blanks and variables -/

section Scanning

variable {source : List Char} {place line steps : Nat} {text : List Char}

theorem Stands.skipBlanks (stands : Stands source place ⟨line, text⟩)
    (enough : text.length < steps) :
    Passes source ⟨line, text⟩ (skipBlanks source steps place) ()
      (CommandScanner.blankLength text) := by
  induction steps generalizing place line text with
  | zero => cases enough
  | succ steps ih =>
    rw [Strict.skipBlanks, bind_ok stands.rest_eq]
    fun_cases CommandScanner.blankLength text with
    | case1 rest => exact (ih (stands.advance 2) (by grind)).after
    | case2 character rest notContinued here =>
      simp only [if_pos here]
      exact (ih (stands.advance 1) (by grind)).after
    | case3 character rest notContinued here =>
      have alone : ¬ (character = '\\' ∧ rest.head? = some '\n') := by
        rintro ⟨escape, newline⟩
        obtain ⟨after, same⟩ := List.head?_eq_some_iff.mp newline
        exact notContinued after escape same
      simp only [if_neg here, if_neg alone]
      exact ⟨place, rfl, stands⟩
    | case4 => exact ⟨place, rfl, stands⟩

variable {tail : List Char}

theorem nameWidth?_bare (bare : tail.head? ≠ some '{') :
    nameWidth? tail =
      if Text.byteSize (tail.takeWhile isNameCharacter) = 0 ∨ tail.head?.any Char.isDigit then
        some none
      else
        some (some (tail.takeWhile isNameCharacter,
          Text.byteSize (tail.takeWhile isNameCharacter) + 1)) := by
  rw [nameWidth?, Text.before?_takeWhile]
  · rfl
  · grind

/-- A name is missing or starts with a digit when what follows the `$` does. -/
theorem isNamed_iff (tail : List Char) :
    (Text.byteSize (tail.takeWhile isNameCharacter) = 0 ∨
        tail.head?.any Char.isDigit = true) ↔
      ¬ (tail.takeWhile isNameCharacter ≠ [] ∧
        ¬ (tail.takeWhile isNameCharacter).head?.any Char.isDigit = true) := by
  cases tail with
  | nil => simp [Text.byteSize]
  | cons first rest =>
    have width := Char.utf8Size_pos first
    by_cases named : isNameCharacter first = true
    · rw [List.takeWhile_cons_of_pos named, byteSize_cons]
      simp
      omega
    · simp_all [Text.byteSize]

theorem nameWidth?_eq (tail : List Char) :
    nameWidth? tail = some ((CommandScanner.variableName? tail).map fun (name, taken) =>
      (name, Text.byteSize ('$' :: tail.take taken))) := by
  by_cases isBraced : tail.head? = some '{'
  · obtain ⟨braced, rfl⟩ := List.head?_eq_some_iff.mp isBraced
    simp only [nameWidth?, CommandScanner.variableName?, Text.before?_takeWhile, Option.bind_eq_bind,
      Option.bind_some]
    by_cases closed : (braced.takeWhile (· ≠ '}')).length < braced.length
    · obtain ⟨character, later, whole, isClosing⟩ := CommandScanner.exists_after_takeWhile closed
      obtain rfl : character = '}' := by simpa using isClosing
      generalize braced.takeWhile (· ≠ '}') = inner at *
      subst whole
      have width : Text.byteSize ('$' :: ('{' :: (inner ++ '}' :: later)).take (inner.length + 2)) =
          Text.byteSize inner + 3 := by
        have sizes := byteSize_take_closed ['$', '{'] inner later '}'
        rw [Nat.add_comm [_, _].length, Nat.add_comm (Text.byteSize [_, _])] at sizes
        exact sizes
      simp_all
    · grind
  · rw [nameWidth?_bare isBraced, CommandScanner.variableName?_bare isBraced]
    simp only [isNamed_iff]
    by_cases named : tail.takeWhile isNameCharacter ≠ [] ∧
        ¬ (tail.takeWhile isNameCharacter).head?.any Char.isDigit = true
    · rw [if_neg (not_not.mpr named), if_pos named, Option.map_some, take_takeWhile,
        byteSize_cons, Nat.add_comm]
      rfl
    · simp_all

theorem Stands.variableName?_eq (stands : Stands source place ⟨line, '$' :: tail⟩) :
    variableName? source place =
      some (.ok ((CommandScanner.variableName? tail).elim (none, place) fun (name, taken) =>
        (some name, place + Text.byteSize ('$' :: tail.take taken)))) := by
  rw [Strict.variableName?, bind_ok stands.rest_eq, List.tail_cons, nameWidth?_eq, demand_bind]
  cases CommandScanner.variableName? tail <;> rfl

/-! ### Words -/

/-- What a reader of double-quoted text gives; it fails at the end of the text. -/
def quotedOutcome (cursor : Cursor) (length : Nat) (found : Option (List WordAtom × Nat)) :
    Except ParseError (List WordAtom × Nat) :=
  found.elim ((cursor.advance length).fault .unterminatedString) .ok

theorem Agrees.quoted {cursor : Cursor} {step : Strict (List WordAtom)} {length first : Nat}
    {found : Option (List WordAtom × Nat)}
    (agrees : Agrees source (cursor.advance first) (step place)
      (quotedOutcome (cursor.advance first) length found))
    (change : List WordAtom → List WordAtom) :
    Agrees source cursor ((change <$> step) place)
      (quotedOutcome cursor (length + first)
        (found.map fun (atoms, taken) => (change atoms, taken + first))) := by
  have moved := (agrees.map change).after
  cases found with
  | none =>
    rw [quotedOutcome, Option.elim_none, advance_advance, Nat.add_comm] at moved
    exact moved
  | some found => exact moved

theorem Stands.past_escape (stands : Stands source place ⟨line, '\\' :: tail⟩) :
    Stands source (place + 1) ⟨line, tail⟩ :=
  stands.advance 1

theorem Stands.doubleQuoted (stands : Stands source place ⟨line, text⟩)
    (enough : text.length < steps) :
    Agrees source ⟨line, text⟩ (doubleQuoted source steps place)
      (quotedOutcome ⟨line, text⟩ text.length (CommandScanner.doubleQuoted text)) := by
  induction steps generalizing place line text with
  | zero => cases enough
  | succ steps ih =>
    rw [Strict.doubleQuoted, bind_ok stands.rest_eq]
    fun_cases CommandScanner.doubleQuoted text with
    | case1 => exact stands.fault_agrees .unterminatedString
    | case2 rest => exact .passed ⟨_, rfl, stands.advance 1⟩
    | case3 after =>
      have next := (ih (stands.advance 2) (by grind)).quoted id
      rw [id_map] at next
      simp only [move_bind]
      rw [bind_ok stands.past_escape.rest_eq]
      exact next
    | case4 escaped after notNewline special =>
      have width : escaped.utf8Size = 1 := by
        revert special
        simp only [List.contains_iff_mem, List.mem_cons, List.not_mem_nil, or_false]
        rintro (rfl | rfl | rfl | rfl) <;> rfl
      have size : Text.byteSize ['\\', escaped] = 2 := by
        rw [byteSize_cons, byteSize_cons, width]
        rfl
      have place : Stands source (place + 2) ⟨line + List.count '\n' ['\\', escaped], after⟩ := by
        rw [← size]
        exact stands.advance 2
      simp only [move_bind]
      rw [bind_ok stands.past_escape.rest_eq]
      simp only [if_pos special, move_bind]
      exact (ih place (by grind)).quoted (.quoted escaped :: ·)
    | case5 escaped after notNewline ordinary =>
      simp only [move_bind]
      rw [bind_ok stands.past_escape.rest_eq]
      simp only [if_neg ordinary, if_neg notNewline]
      exact (ih (stands.advance 1) (by grind)).quoted (.quoted '\\' :: ·)
    | case6 =>
      -- the backslash is kept, and the text ends after it
      have ends := ih (stands.advance 1) (by grind)
      rw [CommandScanner.doubleQuoted.eq_def] at ends
      simp only [move_bind]
      rw [bind_ok stands.past_escape.rest_eq]
      exact ends.quoted (.quoted '\\' :: ·)
    | case7 rest name length named =>
      have next := (ih (stands.advance (length + 1)) (by grind)).quoted
        (.part (.env (String.ofList name)) :: ·)
      have size : (rest.drop length).length + (length + 1) = rest.length + 1 := by
        obtain ⟨_, spelled, later, rfl, rfl, _⟩ := CommandScanner.variableName?_eq_some named
        rw [List.drop_left, List.length_append]
        omega
      dsimp only at next
      rw [List.drop_succ_cons, size] at next
      simp only []
      rw [bind_ok stands.variableName?_eq]
      simp only [named]
      exact next
    | case8 rest unnamed =>
      simp only []
      rw [bind_ok stands.variableName?_eq]
      simp only [unnamed]
      exact (ih (stands.advance 1) (by grind)).quoted (.quoted '$' :: ·)
    | case9 character rest notQuote notEscape notDollar =>
      simp only [move_bind]
      exact (ih (stands.advance 1) (by grind)).quoted (.quoted character :: ·)

end Scanning

/-! ### Tokens -/

/-- Readers of bodies read the same from all texts below a length, and never fail to. -/
structure Bodies.Agree (bodies : Bodies) (readers : BodyReaders) (limit : Nat) : Prop where
  chain : ∀ text : List Char, text.length < limit → bodies.chain text = some (readers.chain text)
  expression : ∀ text : List Char, text.length < limit →
    bodies.expression text = some (readers.expression text)

section Tokens

variable {source : List Char} {place line : Nat} {text : List Char} {cursor : Cursor}
  {bodies : Bodies} {readers : BodyReaders}

theorem Stands.balanced {opener : String} (stands : Stands source place cursor)
    (opens : cursor.rest = opener.toList ++ text)
    (width : Text.byteSize opener.toList = opener.length) :
    Agrees source cursor (balanced source opener place)
      ((CommandScanner.body cursor opener).map fun (text, taken) => (text, taken + 1)) := by
  have entered : Text.after? source (place + opener.length) = some text := by
    obtain ⟨before, rfl, rfl, _⟩ := stands
    rw [opens, ← width, ← Text.byteSize_append, ← List.append_assoc, Text.after?_append]
  have body : cursor.rest.drop opener.length = text := by
    rw [opens, ← String.length_toList, List.drop_left]
  simp only [Strict.balanced, CommandScanner.body, entered, body, Option.bind_some]
  cases closed : bodyLength '(' ')' .plain 0 text with
  | none => exact stands.fault_agrees (.unterminatedBody opener)
  | some length =>
    obtain ⟨inner, later, rfl, rfl, _⟩ := (bodyLength_eq_some_iff (.inl ⟨rfl, rfl⟩)).mp closed
    have moved := stands.advance (opener.length + inner.length + 1)
    rw [opens, ← String.length_toList, byteSize_take_closed, width] at moved
    simp only [List.take_left, Text.before?_append, Option.map_some]
    exact .passed ⟨_, rfl, moved⟩

variable {first : Char} {tail : List Char}

theorem Stands.bodyPart {α : Type} (stands : Stands source place ⟨line, first :: tail⟩)
    (opener : String) (opens : first :: tail = opener.toList ++ text)
    (width : Text.byteSize opener.toList = opener.length) (filled : 0 < opener.length)
    {read : List Char → Option (Except ParseError α)} {model : List Char → Except ParseError α}
    (agree : ∀ text, text.length < source.length → read text = some (model text))
    (part : α → WordPart) :
    Agrees source ⟨line, first :: tail⟩
      ((do
        let value ← reading (read (← Strict.balanced source opener))
        pure [.part (part value)] : Strict (List WordAtom)) place)
      ((do
        let (text, taken) ← CommandScanner.body ⟨line, first :: tail⟩ opener
        let value ← model text
        .ok ([.part (part value)], taken) : Except ParseError (List WordAtom × Nat)).map
          fun (atoms, taken) => (atoms, taken + 1)) := by
  have agrees := Stands.balanced stands opens width
  generalize ran : Strict.balanced source opener place = result at agrees
  cases found : CommandScanner.body ⟨line, first :: tail⟩ opener with
  | error error =>
    rw [found] at agrees
    cases agrees
    exact bind_error ran _ ▸ .failed
  | ok pair =>
    obtain ⟨text, taken⟩ := pair
    have shorter := CommandScanner.body_shortens (List.cons_ne_nil _ _) filled found
    rw [found] at agrees
    cases agrees with
    | passed passes =>
      obtain ⟨next, rfl, moved⟩ := passes
      rw [bind_ok ran, agree text (Nat.lt_of_lt_of_le shorter stands.length_le)]
      change Agrees source _ _ (Except.map _
        (model text >>= fun value => .ok ([WordAtom.part (part value)], taken)))
      cases model text with
      | error error => exact .failed
      | ok value => exact .passed ⟨next, rfl, moved⟩

theorem Stands.quotes (stands : Stands source place ⟨line, '"' :: tail⟩) (atStart : Bool) :
    Agrees source ⟨line, '"' :: tail⟩
      ((quotedAtoms atStart <$> Strict.doubleQuoted source (source.length + 1)) (place + 1))
      (quotedOutcome ⟨line, '"' :: tail⟩ (tail.length + 1)
        ((CommandScanner.doubleQuoted tail).map fun (atoms, taken) =>
          (quotedAtoms atStart atoms, taken + 1))) := by
  have inside : Stands source (place + 1) ⟨line, tail⟩ := stands.advance 1
  have quoted : Agrees source (Cursor.advance ⟨line, '"' :: tail⟩ 1)
      (Strict.doubleQuoted source (source.length + 1) (place + 1))
      (quotedOutcome (Cursor.advance ⟨line, '"' :: tail⟩ 1) tail.length
        (CommandScanner.doubleQuoted tail)) :=
    inside.doubleQuoted (Nat.lt_succ_of_le inside.length_le)
  exact quoted.quoted (quotedAtoms atStart)

theorem Stands.wordStep (agree : bodies.Agree readers source.length)
    (stands : Stands source place ⟨line, first :: tail⟩) (atStart : Bool) :
    Agrees source ⟨line, first :: tail⟩ (wordStep source bodies atStart first tail place)
      ((CommandScanner.wordStep readers atStart line first tail).map fun (atoms, taken) =>
        (atoms, taken + 1)) := by
  fun_cases CommandScanner.wordStep readers atStart line first tail with
  | case1 tail inner closed =>
    obtain ⟨character, later, whole, isClosing⟩ := CommandScanner.exists_after_takeWhile closed
    obtain rfl : character = '\'' := by simpa using isClosing
    have moved := stands.advance (inner.length + 2)
    have size : Text.byteSize (('\'' :: tail).take (inner.length + 2)) = Text.byteSize inner + 2 := by
      have sizes := byteSize_take_closed ['\''] inner later '\''
      rw [← whole, Nat.add_comm [_].length, Nat.add_comm (Text.byteSize [_])] at sizes
      exact sizes
    have entered : Text.after? ('\'' :: tail) 1 = some tail := Text.after?_append ['\''] tail
    rw [size] at moved
    rw [Strict.wordStep, entered, demand_bind, if_pos closed, if_pos closed,
      Text.before?_takeWhile, demand_bind]
    exact .passed ⟨_, rfl, moved⟩
  | case2 tail inner isOpen =>
    have entered : Text.after? ('\'' :: tail) 1 = some tail := Text.after?_append ['\''] tail
    rw [Strict.wordStep, entered, demand_bind, if_neg isOpen, if_neg isOpen]
    exact stands.fault_agrees .unterminatedString
  | case3 tail atoms taken found filled =>
    have quoted := stands.quotes atStart
    rw [found, Option.map_some] at quoted
    rw [Strict.wordStep, move_bind, found]
    simp only [quotedAtoms, if_pos filled] at quoted ⊢
    exact quoted
  | case4 tail atoms taken found filled =>
    have quoted := stands.quotes atStart
    rw [found, Option.map_some] at quoted
    rw [Strict.wordStep, move_bind, found]
    simp only [quotedAtoms, if_neg filled] at quoted ⊢
    exact quoted
  | case5 tail found =>
    have quoted := stands.quotes atStart
    rw [found] at quoted
    rw [Strict.wordStep, move_bind, found]
    exact quoted
  | case6 =>
    rw [Strict.wordStep, move_bind, bind_ok stands.past_escape.rest_eq]
    exact .passed ⟨_, rfl, stands.advance 1⟩
  | case7 escaped tail =>
    rw [Strict.wordStep, move_bind, bind_ok stands.past_escape.rest_eq]
    have moved := (stands.advance 1).advance 1
    rw [advance_advance] at moved
    exact .passed ⟨_, rfl, moved⟩
  | case8 tail =>
    rw [Strict.wordStep]
    exact stands.bodyPart "$(" rfl rfl (by decide) agree.chain .captured
  | case9 tail name taken named notBracket =>
    rw [Strict.wordStep, bind_ok stands.variableName?_eq, named]
    · exact .passed ⟨_, rfl, stands.advance (taken + 1)⟩
    · exact notBracket
  | case10 tail unnamed notBracket =>
    rw [Strict.wordStep, bind_ok stands.variableName?_eq, unnamed]
    · exact .passed ⟨_, rfl, stands.advance 1⟩
    · exact notBracket
  | case11 tail =>
    rw [Strict.wordStep]
    exact stands.bodyPart "@$(" rfl rfl (by decide) agree.chain .splitCaptured
  | case12 tail =>
    rw [Strict.wordStep]
    exact stands.bodyPart "@(" rfl rfl (by decide) agree.expression .splice
  | case13 tail isTilde =>
    have entered : Text.after? ('~' :: tail) 1 = some tail := Text.after?_append ['~'] tail
    rw [Strict.wordStep, entered, demand_bind, move_bind, if_pos isTilde, if_pos isTilde]
    exact .passed ⟨_, rfl, stands.advance 1⟩
  | case14 tail notTilde =>
    have entered : Text.after? ('~' :: tail) 1 = some tail := Text.after?_append ['~'] tail
    rw [Strict.wordStep, entered, demand_bind, move_bind, if_neg notTilde, if_neg notTilde]
    exact .passed ⟨_, rfl, stands.advance 1⟩
  | case15 first tail notSingle notDouble notDollar notTilde notLast notEscape =>
    have notBackslash (isEscape : first = '\\') : False := by
      cases tail with
      | nil => exact notLast isEscape rfl
      | cons escaped rest => exact notEscape escaped rest isEscape rfl
    rw [Strict.wordStep, move_bind]
    · exact .passed ⟨_, rfl, stands.advance 1⟩
    all_goals assumption

theorem Stands.wordAtoms (agree : bodies.Agree readers source.length) {steps : Nat}
    (stands : Stands source place ⟨line, text⟩) (atStart : Bool) (enough : text.length < steps) :
    Agrees source ⟨line, text⟩ (wordAtoms source bodies atStart steps place)
      (CommandScanner.wordAtoms readers atStart line text) := by
  induction steps generalizing place line text atStart with
  | zero => cases enough
  | succ steps ih =>
    rw [Strict.wordAtoms, bind_ok stands.rest_eq]
    fun_cases CommandScanner.wordAtoms readers atStart line text with
    | case1 => exact .passed ⟨place, rfl, stands⟩
    | case2 first tail boundary =>
      simp only [if_pos boundary]
      exact .passed ⟨place, rfl, stands⟩
    | case3 first tail inside error failed =>
      have step := stands.wordStep agree atStart
      rw [failed] at step
      simp only [if_neg inside]
      rw [bind_error step.eq_error]
      exact .failed
    | case4 first tail inside atoms taken stepOk passed error failed =>
      have step := stands.wordStep agree atStart
      rw [stepOk] at step
      obtain ⟨next, ran, moved⟩ := step.passes
      have others := @ih next passed (tail.drop taken) moved (atStart && atoms.isEmpty) (by grind)
      rw [failed] at others
      simp only [if_neg inside]
      rw [bind_ok ran, bind_error others.eq_error]
      exact .failed
    | case5 first tail inside atoms taken stepOk passed others length restOk =>
      have step := stands.wordStep agree atStart
      rw [stepOk] at step
      obtain ⟨next, ran, moved⟩ := step.passes
      have others := @ih next passed (tail.drop taken) moved (atStart && atoms.isEmpty) (by grind)
      rw [restOk] at others
      obtain ⟨final, othersRan, ends⟩ := others.passes
      simp only [if_neg inside]
      rw [bind_ok ran, bind_ok othersRan]
      refine .passed ⟨final, rfl, ?_⟩
      rw [← advance_advance]
      exact ends

theorem Stands.word (agree : bodies.Agree readers source.length)
    (stands : Stands source place cursor) :
    Agrees source cursor (word source bodies place) (CommandScanner.word readers cursor) :=
  (stands.wordAtoms agree true (Nat.lt_succ_of_le stands.length_le)).map CommandScanner.joinAtoms

theorem duplicateWidth?_eq (operator : RedirectOperator) (text : List Char) :
    duplicateWidth? operator text =
      some ((CommandScanner.duplicateLength? operator text).map fun length =>
        Text.byteSize (text.take length)) := by
  have accepted (target : String) :
      (if target.toList.isPrefixOf text then
        (Text.after? text (Text.byteSize target.toList)).map CommandScanner.atBoundary
      else some false) =
        some (target.toList.isPrefixOf text &&
          CommandScanner.atBoundary (text.drop target.length)) := by
    by_cases starts : target.toList.isPrefixOf text = true
    · obtain ⟨later, rfl⟩ := List.isPrefixOf_iff_prefix.mp starts
      rw [if_pos starts, starts, Text.after?_append, ← String.length_toList, List.drop_left]
      rfl
    · rw [if_neg starts, Bool.eq_false_iff.mpr starts]
      rfl
  simp only [duplicateWidth?, accepted]
  have search := @List.findM?_pure _ Option _ _ (fun target : String =>
    target.toList.isPrefixOf text && CommandScanner.atBoundary (text.drop target.length))
    (CommandScanner.duplicateTargets operator)
  refine (congrArg (Option.bind · _) search).trans ?_
  rw [CommandScanner.duplicateLength?]
  cases found : (CommandScanner.duplicateTargets operator).find? _ with
  | none => rfl
  | some target =>
    have starts := List.find?_some found
    rw [Bool.and_eq_true, List.isPrefixOf_iff_prefix] at starts
    obtain ⟨⟨later, rfl⟩, _⟩ := starts
    simp only [Option.map_some, ← String.length_toList, List.take_left]
    rfl

theorem Stands.redirection (agree : bodies.Agree readers source.length)
    (stands : Stands source place cursor) {operator : RedirectOperator}
    (found : CommandScanner.redirectOperator? cursor.rest = some operator) :
    Agrees source cursor (redirection source bodies operator place)
      (CommandScanner.redirection readers cursor operator) := by
  obtain ⟨arrow, later, whole, length, width⟩ := CommandScanner.redirectOperator?_width found
  have moved := stands.advance operator.length
  have size : Text.byteSize (cursor.rest.take operator.length) =
      Text.byteSize operator.source.toList + if operator.mode = .append then 2 else 1 := by
    rw [whole, length, ← List.length_append, ← List.append_assoc, List.take_left,
      Text.byteSize_append, width]
  have target : Text.after? (cursor.rest.drop operator.source.toList.length)
      (if operator.mode = .append then 2 else 1) = some (cursor.advance operator.length).rest := by
    rw [Cursor.advance, whole, List.drop_left, ← width, Text.after?_append, length,
      ← List.length_append, ← List.append_assoc, List.drop_left]
  rw [size] at moved
  rw [Strict.redirection, bind_ok stands.rest_eq]
  simp only [target, demand_bind, duplicateWidth?_eq, CommandScanner.redirection]
  cases named : CommandScanner.duplicateLength? operator (cursor.advance operator.length).rest with
  | some count =>
    have ends := moved.advance count
    rw [advance_advance, Nat.add_assoc] at ends
    exact .passed ⟨_, rfl, ends⟩
  | none =>
    obtain ⟨next, skips, stops⟩ : Passes source (cursor.advance operator.length) _ ()
        (CommandScanner.blankLength (cursor.advance operator.length).rest) :=
      moved.skipBlanks (Nat.lt_succ_of_le moved.length_le)
    simp only [Option.map_none, move_bind]
    rw [bind_ok skips, bind_ok stops.rest_eq]
    split
    · rw [stops.fault_eq]
      exact .failed
    · have read := (stops.word agree).map (Redirect.file operator.stream operator.mode)
      rw [advance_advance] at read
      have placed := read.after
      rw [← advance_advance] at placed
      generalize CommandScanner.word readers _ = model at placed ⊢
      cases model with
      | error error => exact placed
      | ok pair =>
        rw [Except.map, Nat.add_comm]
        exact placed

theorem Stands.tokenAt (agree : bodies.Agree readers source.length)
    (stands : Stands source place cursor) :
    Agrees source cursor (tokenAt source bodies cursor.rest place)
      (CommandScanner.tokenAt readers cursor) := by
  fun_cases CommandScanner.tokenAt readers cursor with have moved := stands.advance 1
  | case1 tail same | case3 tail same =>
    have moved := stands.advance 2
    rw [same] at moved ⊢
    exact .passed ⟨_, rfl, moved⟩
  | case2 tail single same =>
    rw [same] at moved ⊢
    rw [Strict.tokenAt]
    · exact .passed ⟨_, rfl, moved⟩
    · exact single
  | case4 operator found notOr notPipe notAnd =>
    have step : Strict.tokenAt source bodies cursor.rest =
        CommandToken.redirect <$> Strict.redirection source bodies operator := by
      unfold Strict.tokenAt
      split <;> simp_all
    rw [step]
    exact (stands.redirection agree found).map CommandToken.redirect
  | case5 tail single notRedirect same =>
    rw [same] at notRedirect moved ⊢
    have step : Strict.tokenAt source bodies ('&' :: tail) = (do move 1; pure .background) := by
      unfold Strict.tokenAt
      split <;> simp_all
    rw [step]
    exact .passed ⟨_, rfl, moved⟩
  | case6 tail notRedirect same | case7 tail notRedirect same | case8 tail notRedirect same =>
    rw [same] at notRedirect ⊢
    simp only [Strict.tokenAt, notRedirect]
    exact stands.fault_agrees (.unexpectedSymbol _)
  | case9 notRedirect notOr notPipe notAnd notBackground notSemicolon notOpening notClosing =>
    have step : Strict.tokenAt source bodies cursor.rest =
        CommandToken.word <$> Strict.word source bodies := by
      unfold Strict.tokenAt
      split <;> simp_all
    rw [step]
    exact (stands.word agree).map CommandToken.word

/-- The scanner by places finds what the scanner of cursors finds. -/
theorem Stands.commandTokens (agree : bodies.Agree readers source.length)
    (stands : Stands source place cursor) {fuel : Nat} (enough : cursor.rest.length < fuel) :
    outcome (commandTokens source bodies fuel) place =
      some (CommandScanner.tokensFrom readers fuel cursor) := by
  induction fuel generalizing place cursor with
  | zero => exact absurd enough (Nat.not_lt_zero _)
  | succ fuel ih =>
    obtain ⟨line, text⟩ := cursor
    obtain ⟨blanks, text, rfl, _, blank, stops⟩ := CommandScanner.exists_blankText text
    obtain ⟨start, skips, here⟩ := stands.skipBlanks (Nat.lt_succ_of_le stands.length_le)
    change Stands source start (CommandScanner.skipBlanks _) at here
    rw [blank.skipBlanks stops] at here
    rw [outcome, Strict.commandTokens, bind_ok skips, bind_ok here.rest_eq,
      CommandScanner.tokensFrom, blank.skipBlanks stops]
    cases text with
    | nil => rfl
    | cons first tail =>
      have read := here.tokenAt agree
      simp only [List.cons_ne_nil, if_false]
      cases found : CommandScanner.tokenAt readers ⟨line + blanks.count '\n', first :: tail⟩ with
      | error error =>
        rw [found] at read
        rw [bind_error read.eq_error]
        rfl
      | ok pair =>
        obtain ⟨token, length⟩ := pair
        obtain ⟨spelled, later, whole, rfl, grammar⟩ :=
          CommandScanner.tokenText_of_tokenAt (List.cons_ne_nil _ _) stops found
        rw [found] at read
        obtain ⟨next, ran, moved⟩ := read.passes
        have shorter : (List.drop spelled.length (first :: tail)).length < fuel := by
          have filled := List.length_pos_iff.mpr grammar.ne_nil
          rw [List.length_append, List.length_cons] at enough
          rw [List.length_drop, List.length_cons]
          omega
        have others := ih moved shorter
        rw [outcome] at others
        rw [bind_ok ran]
        change _ = some (Except.map (token :: ·)
          (CommandScanner.tokensFrom readers fuel (Cursor.advance _ spelled.length)))
        generalize CommandScanner.tokensFrom readers fuel _ = model at others ⊢
        obtain ⟨result, ran, rfl⟩ := Option.map_eq_some_iff.mp others
        cases result with
        | error error =>
          rw [bind_error ran]
          rfl
        | ok found =>
          rw [bind_ok ran]
          rfl

def commandTokensOf (bodies : Bodies) (source : List Char) :
    Option (Except ParseError (List CommandToken)) :=
  outcome (commandTokens source bodies (source.length + 1)) 0

def chainOf (bodies : Bodies) (source : List Char) : Option (Except ParseError Chain) :=
  (commandTokensOf bodies source).map (·.bind ChainReader.chain)

theorem commandTokensOf_eq (agree : bodies.Agree readers source.length) :
    commandTokensOf bodies source = some (CommandScanner.tokens readers source) :=
  Stands.commandTokens agree ⟨[], rfl, rfl, rfl⟩ (Nat.lt_succ_self _)

theorem chainOf_eq (agree : bodies.Agree readers source.length) :
    chainOf bodies source = some (ChainReader.readWith readers source) := by
  rw [chainOf, commandTokensOf_eq agree]
  rfl

end Tokens

end Strict

end HybridShell
