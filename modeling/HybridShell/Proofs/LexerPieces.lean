import HybridShell.Proofs.BracketMatching
import HybridShell.Proofs.Outcomes

/-!
# Pieces of source text

What the lexer accepts, as relations between the text of a piece, the text
that stands after it and what the piece is.  Each is shown equal to the function
that it describes: `PieceShape` to `piece`, `StringText` to `stringBody`,
`VariableText` to `variableName?` and `TokenText` to `token`.
-/

namespace HybridShell

namespace Lexer

/-- What a piece can be, and the characters that it takes after its first. -/
inductive PieceShape : Char → List Char → Option TokenKind → Nat → Prop
  | gap (isGap : first = ' ' ∨ first = '\t' ∨ first = '\r') : PieceShape first tail none 0
  | continuation (newline : tail.head? = some '\n') : PieceShape '\\' tail none 1
  | comment : PieceShape '#' tail none (tail.takeWhile (· ≠ '\n')).length
  | newline : PieceShape '\n' tail (some .newline) 0
  | token (notGap : ¬ (first = ' ' ∨ first = '\t' ∨ first = '\r'))
      (alone : ¬ (first = '\\' ∧ tail.head? = some '\n')) (notComment : first ≠ '#')
      (notNewline : first ≠ '\n') (found : token first tail = .ok (kind, taken)) :
      PieceShape first tail (some kind) taken

/-- The text of a string between its quotes, and what it stands for. -/
inductive StringText (quote : Char) : List Char → List Char → Prop
  | done : StringText quote [] []
  | escape (others : StringText quote spelled text) :
      StringText quote ('\\' :: escaped :: spelled) (unescape escaped ++ text)
  | plain (notEscape : character ≠ '\\') (notQuote : character ≠ quote)
      (others : StringText quote spelled text) :
      StringText quote (character :: spelled) (character :: text)

/-- The digits after a decimal point, if one is there. -/
def fraction : List Char → List Char
  | '.' :: rest => rest.takeWhile Char.isDigit
  | _ => []

/-- The text of a variable after `$`, in front of other text, and its name. -/
inductive VariableText : List Char → List Char → List Char → Prop
  | bare (starts : isNameStart first = true) (named : rest.all isNameCharacter = true)
      (ends : later.head?.any isNameCharacter = false) :
      VariableText (first :: rest) later (first :: rest)
  | braced (starts : isNameStart first = true) (named : rest.all isNameCharacter = true) :
      VariableText ('{' :: (first :: rest ++ ['}'])) later (first :: rest)

/-- How the text of a command opens, and the bracket that closes it. -/
inductive Opener : Char → Char → Char → Capture → Prop
  | stdout : Opener '$' '(' ')' .stdout
  | object : Opener '!' '(' ')' .object
  | uncaptured : Opener '$' '[' ']' .uncaptured
  | hidden : Opener '!' '[' ']' .hidden

/-- A character that begins nothing longer than a mark, in front of some text. -/
structure IsLone (first : Char) (later : List Char) : Prop where
  notQuote : ¬ (first = '"' ∨ first = '\'')
  notOpener : later.head?.bind (captureOf? first) = none
  notDigit : first.isDigit = false
  notName : isNameStart first = false
  notVariable : first = '$' → variableName? later = none

/-- The text of a token, in front of other text. -/
inductive TokenText : List Char → List Char → TokenKind → Prop
  | string (quotes : quote = '"' ∨ quote = '\'') (inside : StringText quote spelled text) :
      TokenText (quote :: (spelled ++ [quote])) later (.str (String.ofList text))
  | subprocess (opener : Opener first opening closing capture)
      (inside : BodyText opening closing .plain 0 body) :
      TokenText (first :: opening :: (body ++ [closing])) later
        (.subprocess capture (String.ofList body))
  | whole {value : Int64} (digit : first.isDigit = true) (digits : rest.all Char.isDigit = true)
      (ends : later.head?.any Char.isDigit = false) (integral : fraction later = [])
      (fits : value.toInt = Nat.ofDigitChars 10 (first :: rest) 0) :
      TokenText (first :: rest) later (.int value)
  | decimal (digit : first.isDigit = true) (digits : rest.all Char.isDigit = true)
      (filled : decimals ≠ []) (decimal : decimals.all Char.isDigit = true)
      (ends : later.head?.any Char.isDigit = false) :
      TokenText (first :: (rest ++ '.' :: decimals)) later
        (.float (Reading.nearest (Reading.digitsValue (first :: rest ++ decimals))
          (-(decimals.length : Int))))
  | name (starts : isNameStart first = true) (named : rest.all isNameCharacter = true)
      (ends : later.head?.any isNameCharacter = false) :
      TokenText (first :: rest) later (.name (String.ofList (first :: rest)))
  | environment (spells : VariableText spelled later name) :
      TokenText ('$' :: spelled) later (.env (String.ofList name))
  | pair (spells : pairPunct? first second = some punct) :
      TokenText [first, second] later (.punct punct)
  | single (spells : singlePunct? first = some punct)
      (alone : later.head?.bind (pairPunct? first) = none) :
      TokenText [first] later (.punct punct)
  | unknown (lone : IsLone first later) (alone : later.head?.bind (pairPunct? first) = none)
      (unmarked : singlePunct? first = none) : TokenText [first] later (.unknown first)

variable {first : Char} {tail : List Char} {taken : Nat} {kind : TokenKind}

theorem piece_gap (isGap : first = ' ' ∨ first = '\t' ∨ first = '\r') :
    piece first tail = .ok (none, 0) := by
  rw [piece, if_pos isGap]

theorem piece_continuation (newline : tail.head? = some '\n') :
    piece '\\' tail = .ok (none, 1) := by
  rw [piece, if_neg (by decide), if_pos ⟨rfl, newline⟩]

theorem piece_comment (tail : List Char) :
    piece '#' tail = .ok (none, (tail.takeWhile (· ≠ '\n')).length) := by
  rw [piece, if_neg (by decide), if_neg (by simp), if_pos rfl]

theorem piece_newline (tail : List Char) : piece '\n' tail = .ok (some .newline, 0) := by
  rw [piece, if_neg (by decide), if_neg (by simp), if_neg (by decide), if_pos rfl]

theorem piece_token (notGap : ¬ (first = ' ' ∨ first = '\t' ∨ first = '\r'))
    (alone : ¬ (first = '\\' ∧ tail.head? = some '\n')) (notComment : first ≠ '#')
    (notNewline : first ≠ '\n') :
    piece first tail = (token first tail).map fun (kind, length) => (some kind, length) := by
  rw [piece, if_neg notGap, if_neg alone, if_neg notComment, if_neg notNewline]

theorem piece_eq_ok_iff {found : Option TokenKind} :
    piece first tail = .ok (found, taken) ↔ PieceShape first tail found taken := by
  constructor
  · intro ok
    unfold piece at ok
    split at ok
    · next isGap =>
      cases ok
      exact .gap isGap
    · next notGap =>
      split at ok
      · next continued =>
        cases ok
        rw [continued.1]
        exact .continuation continued.2
      · next alone =>
        split at ok
        · next isComment =>
          cases ok
          rw [isComment]
          exact .comment
        · next notComment =>
          split at ok
          · next isNewline =>
            cases ok
            rw [isNewline]
            exact .newline
          · next notNewline =>
            obtain ⟨⟨kind, length⟩, tokenOk, same⟩ := Except.map_eq_ok_iff.mp ok
            cases same
            exact .token notGap alone notComment notNewline tokenOk
  · intro shape
    cases shape with
    | gap isGap => exact piece_gap isGap
    | continuation newline => exact piece_continuation newline
    | comment => exact piece_comment tail
    | newline => exact piece_newline tail
    | token notGap alone notComment notNewline found =>
      rw [piece_token notGap alone notComment notNewline, found]
      rfl

theorem piece_eq_some (ok : piece first tail = .ok (some kind, taken)) :
    (first = '\n' ∧ kind = .newline ∧ taken = 0) ∨ token first tail = .ok (kind, taken) := by
  cases piece_eq_ok_iff.mp ok with
  | newline => exact .inl ⟨rfl, rfl, rfl⟩
  | token _ _ _ _ found => exact .inr found

/-! ### Strings -/

section Strings

variable {quote character : Char} {text inner : List Char}

theorem stringBody_cons (notEscape : character ≠ '\\') (text : List Char) :
    stringBody quote (character :: text) =
      if character = quote then some ([], 1)
      else (stringBody quote text).map fun (inner, taken) => (character :: inner, taken + 1) := by
  rw [stringBody]
  · exact fun same _ => notEscape same
  · exact fun _ _ same _ => notEscape same

theorem StringText.stringBody_eq {spelled : List Char} (string : StringText quote spelled inner)
    (notEscape : quote ≠ '\\') (later : List Char) :
    stringBody quote (spelled ++ quote :: later) = some (inner, spelled.length + 1) := by
  induction string with
  | done => rw [List.nil_append, stringBody_cons notEscape, if_pos rfl, List.length_nil]
  | escape _ ih =>
    rw [List.cons_append, List.cons_append, stringBody, ih]
    rfl
  | plain notMark notQuote _ ih =>
    rw [List.cons_append, stringBody_cons notMark, if_neg notQuote, ih]
    rfl

theorem stringBody_eq_some_iff :
    stringBody quote text = some (inner, taken) ↔
      ∃ spelled later, text = spelled ++ quote :: later ∧ taken = spelled.length + 1 ∧
        quote ≠ '\\' ∧ StringText quote spelled inner := by
  constructor
  · intro found
    fun_induction stringBody quote text generalizing inner taken with
    | case1 | case2 => cases found
    | case3 escaped rest ih =>
      obtain ⟨⟨others, length⟩, body, same⟩ := Option.map_eq_some_iff.mp found
      cases same
      obtain ⟨spelled, later, rfl, rfl, notEscape, string⟩ := ih body
      exact ⟨'\\' :: escaped :: spelled, later, rfl, rfl, notEscape, string.escape⟩
    | case4 rest lone pair =>
      cases found
      exact ⟨[], rest, rfl, rfl, ne_escape lone pair, .done⟩
    | case5 character rest lone pair notQuote ih =>
      obtain ⟨⟨others, length⟩, body, same⟩ := Option.map_eq_some_iff.mp found
      cases same
      obtain ⟨spelled, later, rfl, rfl, notEscape, string⟩ := ih body
      exact ⟨character :: spelled, later, rfl, rfl, notEscape,
        string.plain (ne_escape lone pair) notQuote⟩
  · rintro ⟨spelled, later, rfl, rfl, notEscape, string⟩
    exact string.stringBody_eq notEscape later

end Strings

/-! ### Runs of characters -/

variable {test : Char → Bool} {rest later : List Char}

/-- A text starts with a run of the characters that pass a test. -/
theorem exists_run (test : Char → Bool) (text : List Char) :
    ∃ run later, text = run ++ later ∧ run.all test = true ∧ later.head?.any test = false := by
  refine ⟨text.takeWhile test, text.dropWhile test, List.takeWhile_append_dropWhile.symm,
    List.all_takeWhile, ?_⟩
  have stops := List.head?_dropWhile_not test text
  cases after : (text.dropWhile test).head? with
  | none => rfl
  | some character => simp_all

theorem takeWhile_run (passes : rest.all test = true) (ends : later.head?.any test = false) :
    (rest ++ later).takeWhile test = rest := by
  rw [List.takeWhile_append_of_pos (List.all_eq_true.mp passes)]
  cases later with
  | nil => rw [List.takeWhile_nil, List.append_nil]
  | cons character later => simp_all

theorem word64?_of_digits (digit : first.isDigit = true) (digits : rest.all Char.isDigit = true) :
    Reading.word64? (first :: rest) = Word64.ofInt? (Nat.ofDigitChars 10 (first :: rest) 0) := by
  have unsigned : Reading.splitSign (first :: rest) = (false, first :: rest) := by
    rw [Reading.splitSign] <;> (intro _ same; simp [(List.cons.inj same).1] at digit)
  have all : (first :: rest).all Char.isDigit = true := by rw [List.all_cons, digit, digits]; rfl
  have value : Reading.digitsValue (first :: rest) = Nat.ofDigitChars 10 (first :: rest) 0 := by
    simp only [Reading.digitsValue, Nat.ofDigitChars_eq_foldl, Nat.mul_comm 10]
  have natural : Reading.natural? (first :: rest) = some _ := if_pos ⟨List.cons_ne_nil _ _, all⟩
  simp [Reading.word64?, Reading.integer?, unsigned, natural, value]

theorem number_run (digits : rest.all Char.isDigit = true)
    (ends : later.head?.any Char.isDigit = false) :
    number first (rest ++ later) =
      if fraction later = [] then
        (Reading.word64? (first :: rest)).elim
          (.error (.numberOutOfRange (String.ofList (first :: rest))))
          fun value => .ok (.int value, rest.length)
      else
        .ok (.float (Reading.nearest (Reading.digitsValue (first :: rest ++ fraction later))
            (-((fraction later).length : Int))),
          rest.length + 1 + (fraction later).length) := by
  simp only [number, takeWhile_run digits ends, List.drop_left]
  change (if fraction later = [] then _ else _) = _
  split
  · cases Reading.word64? (first :: rest) <;> rfl
  · rfl

theorem variableName?_bare {text : List Char} (bare : text.head? ≠ some '{') :
    variableName? text =
      if (text.takeWhile isNameCharacter).head?.any isNameStart then
        some (text.takeWhile isNameCharacter, (text.takeWhile isNameCharacter).length)
      else none := by
  rw [variableName?]
  grind

theorem isNameCharacter_of_isNameStart (starts : isNameStart first = true) :
    isNameCharacter first = true := by
  rw [isNameStart, Bool.or_eq_true] at starts
  rw [isNameCharacter, Char.isAlphanum]
  grind

theorem variableName?_eq_some_iff {text name : List Char} :
    variableName? text = some (name, taken) ↔
      ∃ spelled later, text = spelled ++ later ∧ taken = spelled.length ∧
        VariableText spelled later name := by
  constructor
  · intro found
    unfold variableName? at found
    split at found
    · next inner =>
      obtain ⟨name, after, rfl, named, ends⟩ := exists_run isNameCharacter inner
      simp only [takeWhile_run named ends, List.drop_left, Option.ite_none_right_eq_some,
        Option.some.injEq, Prod.mk.injEq, Bool.and_eq_true, beq_iff_eq] at found
      obtain ⟨⟨starts, closed⟩, rfl, rfl⟩ := found
      obtain ⟨later, rfl⟩ := List.head?_eq_some_iff.mp closed
      cases name with
      | nil => cases starts
      | cons first rest =>
        rw [List.all_cons, Bool.and_eq_true] at named
        exact ⟨'{' :: (first :: rest ++ ['}']), later, by simp, by simp, .braced starts named.2⟩
    · obtain ⟨name, later, rfl, named, ends⟩ := exists_run isNameCharacter text
      simp only [takeWhile_run named ends, Option.ite_none_right_eq_some, Option.some.injEq,
        Prod.mk.injEq] at found
      obtain ⟨starts, rfl, rfl⟩ := found
      cases name with
      | nil => cases starts
      | cons first rest =>
        rw [List.all_cons, Bool.and_eq_true] at named
        exact ⟨first :: rest, later, rfl, rfl, .bare starts named.2 ends⟩
  · rintro ⟨spelled, later, rfl, rfl, spells⟩
    cases spells with
    | @bare first rest _ starts named ends =>
      have notBrace : first ≠ '{' := by
        rintro rfl
        cases starts
      have passes : (first :: rest).all isNameCharacter = true := by
        rw [List.all_cons, isNameCharacter_of_isNameStart starts, named]
        rfl
      rw [variableName?_bare (by simpa using notBrace), takeWhile_run passes ends, if_pos]
      exact starts
    | @braced first rest _ starts named =>
      have passes : (first :: rest).all isNameCharacter = true := by
        rw [List.all_cons, isNameCharacter_of_isNameStart starts, named]
        rfl
      have ends : ('}' :: later).head?.any isNameCharacter = false := rfl
      rw [List.cons_append, List.append_assoc, List.singleton_append, variableName?]
      simp only [takeWhile_run passes ends, List.drop_left, List.head?_cons, Option.any_some,
        starts, BEq.rfl, Bool.and_self, if_true]
      simp

/-! ### Tokens -/

theorem token_string (isString : first = '"' ∨ first = '\'') (tail : List Char) :
    token first tail =
      (stringBody first tail).elim (.error .unterminatedString)
        fun found => .ok (.str (String.ofList found.1), found.2) := by
  unfold token
  grind

theorem token_body (notString : ¬ (first = '"' ∨ first = '\'')) {opening : Char}
    {capture : Capture} (captures : captureOf? first opening = some capture) (body : List Char) :
    token first (opening :: body) =
      (bodyLength opening (closingOf opening) .plain 0 body).elim
        (.error (.unterminatedSubprocess capture))
        fun length =>
          .ok (.subprocess capture (String.ofList (body.take length)), length + 2) := by
  unfold token
  grind

section Openers

variable {opening closing : Char} {capture : Capture}

theorem opener_of_captureOf? (captures : captureOf? first opening = some capture) :
    Opener first opening (closingOf opening) capture := by
  unfold captureOf? at captures
  split at captures <;> cases captures <;> constructor

theorem Opener.captures (opener : Opener first opening closing capture) :
    captureOf? first opening = some capture ∧ closingOf opening = closing := by
  cases opener <;> exact ⟨rfl, rfl⟩

theorem Opener.areBrackets (opener : Opener first opening closing capture) :
    AreBrackets opening closing := by
  cases opener <;> simp [AreBrackets]

end Openers

theorem isDigit_of_isNameStart (starts : isNameStart first = true) : first.isDigit = false := by
  rw [isNameStart, Bool.or_eq_true, beq_iff_eq] at starts
  rcases starts with letter | rfl
  · delta Char.isAlpha Char.isUpper Char.isLower at letter
    grind [Char.isDigit]
  · rfl

theorem head?_bind_captureOf? (notDollar : first ≠ '$') (notBang : first ≠ '!') :
    tail.head?.bind (captureOf? first) = none := by
  cases tail with
  | nil => rfl
  | cons opening body => simp_all [captureOf?]

theorem token_digit (digit : first.isDigit = true) (tail : List Char) :
    token first tail = number first tail := by
  have other (character : Char) (plain : character.isDigit = false) : first ≠ character := by grind
  have notString : ¬ (first = '"' ∨ first = '\'') := by simp [other]
  simp only [token, if_neg notString, head?_bind_captureOf? (other '$' rfl) (other '!' rfl), digit,
    if_true]

theorem token_name (starts : isNameStart first = true) (tail : List Char) :
    token first tail =
      .ok (.name (String.ofList (first :: tail.takeWhile isNameCharacter)),
        (tail.takeWhile isNameCharacter).length) := by
  have other (character : Char) (plain : isNameStart character = false) : first ≠ character := by
    grind
  have notString : ¬ (first = '"' ∨ first = '\'') := by simp [other '"' rfl, other '\'' rfl]
  have notDigit : first.isDigit = false := isDigit_of_isNameStart starts
  simp only [token, if_neg notString, head?_bind_captureOf? (other '$' rfl) (other '!' rfl),
    notDigit, starts, if_true, Bool.false_eq_true, if_false]

theorem token_variable {name : List Char} (found : variableName? tail = some (name, taken)) :
    token '$' tail = .ok (.env (String.ofList name), taken) := by
  have notOpener : tail.head?.bind (captureOf? '$') = none := by
    obtain ⟨spelled, later, rfl, _, spells⟩ := variableName?_eq_some_iff.mp found
    cases spells with
    | bare starts =>
      simp only [List.cons_append, List.head?_cons, Option.bind_some]
      unfold captureOf?
      split <;> first | rfl | cases starts
    | braced => rfl
  simp [token, notOpener, found, isNameStart]

theorem IsLone.token_eq (lone : IsLone first tail) :
    token first tail = .ok (symbol first tail) := by
  unfold token
  grind [IsLone]

theorem exists_numberText (digit : first.isDigit = true)
    (ok : number first tail = .ok (kind, taken)) :
    ∃ rest later, tail = rest ++ later ∧ taken = rest.length ∧ TokenText (first :: rest) later kind := by
  obtain ⟨rest, later, rfl, digits, ends⟩ := exists_run Char.isDigit tail
  rw [number_run digits ends] at ok
  split at ok
  · next integral =>
    cases fits : Reading.word64? (first :: rest) with rw [fits] at ok
    | none => cases ok
    | some value =>
      cases ok
      rw [word64?_of_digits digit digits, Word64.ofInt?_eq_some_iff] at fits
      exact ⟨rest, later, rfl, rfl, .whole digit digits ends integral fits⟩
  · next filled =>
    cases ok
    unfold fraction at filled ⊢
    split at filled
    · next after =>
      obtain ⟨decimals, later, rfl, decimal, ends⟩ := exists_run Char.isDigit after
      simp only [takeWhile_run decimal ends] at filled ⊢
      exact ⟨rest ++ '.' :: decimals, later, by simp, by grind,
        .decimal digit digits filled decimal ends⟩
    · exact absurd rfl filled

theorem exists_symbolText (lone : IsLone first tail) (same : symbol first tail = (kind, taken)) :
    ∃ rest later, tail = rest ++ later ∧ taken = rest.length ∧ TokenText (first :: rest) later kind := by
  unfold symbol at same
  split at same
  · next punct found =>
    cases same
    obtain ⟨second, follows, spells⟩ := Option.bind_eq_some_iff.mp found
    obtain ⟨later, rfl⟩ := List.head?_eq_some_iff.mp follows
    exact ⟨[second], later, rfl, rfl, .pair spells⟩
  · next alone =>
    split at same
    · next punct spells =>
      cases same
      exact ⟨[], tail, rfl, rfl, .single spells alone⟩
    · next unmarked =>
      cases same
      exact ⟨[], tail, rfl, rfl, .unknown lone alone unmarked⟩

/-- A string does not depend on what stands after it. -/
theorem exists_tokenText_string (quotes : first = '"' ∨ first = '\'')
    (ok : token first tail = .ok (kind, taken)) :
    ∃ rest later, tail = rest ++ later ∧ taken = rest.length ∧
      ∀ after, TokenText (first :: rest) after kind := by
  rw [token_string quotes] at ok
  cases found : stringBody first tail with rw [found] at ok
  | none => cases ok
  | some pair =>
    cases ok
    obtain ⟨spelled, later, rfl, length, _, inside⟩ := stringBody_eq_some_iff.mp found
    exact ⟨spelled ++ [first], later, by simp, by simp [length], fun _ => .string quotes inside⟩

/-- Nor does command text in brackets. -/
theorem exists_tokenText_body (notString : ¬ (first = '"' ∨ first = '\'')) {opening : Char}
    {capture : Capture} {body : List Char} (captures : captureOf? first opening = some capture)
    (ok : token first (opening :: body) = .ok (kind, taken)) :
    ∃ rest later, opening :: body = rest ++ later ∧ taken = rest.length ∧
      ∀ after, TokenText (first :: rest) after kind := by
  rw [token_body notString captures] at ok
  cases found : bodyLength opening (closingOf opening) .plain 0 body with rw [found] at ok
  | none => cases ok
  | some length =>
    cases ok
    have opener := opener_of_captureOf? captures
    obtain ⟨inner, later, rfl, rfl, inside⟩ := (bodyLength_eq_some_iff opener.areBrackets).mp found
    rw [List.take_left]
    exact ⟨opening :: (inner ++ [closingOf opening]), later, by simp, by simp,
      fun _ => .subprocess opener inside⟩

theorem exists_tokenText (ok : token first tail = .ok (kind, taken)) :
    ∃ rest later, tail = rest ++ later ∧ taken = rest.length ∧ TokenText (first :: rest) later kind := by
  by_cases quotes : first = '"' ∨ first = '\''
  · obtain ⟨rest, later, whole, length, spells⟩ := exists_tokenText_string quotes ok
    exact ⟨rest, later, whole, length, spells later⟩
  · cases notOpener : tail.head?.bind (captureOf? first) with
    | some capture =>
      obtain ⟨opening, follows, captures⟩ := Option.bind_eq_some_iff.mp notOpener
      obtain ⟨body, rfl⟩ := List.head?_eq_some_iff.mp follows
      obtain ⟨rest, later, whole, length, spells⟩ := exists_tokenText_body quotes captures ok
      exact ⟨rest, later, whole, length, spells later⟩
    | none =>
      by_cases digit : first.isDigit = true
      · rw [token_digit digit] at ok
        exact exists_numberText digit ok
      · by_cases starts : isNameStart first = true
        · rw [token_name starts] at ok
          obtain ⟨rest, later, rfl, named, ends⟩ := exists_run isNameCharacter tail
          rw [takeWhile_run named ends] at ok
          cases ok
          exact ⟨rest, later, rfl, rfl, .name starts named ends⟩
        · by_cases isVariable : first = '$' ∧ (variableName? tail).isSome = true
          · obtain ⟨rfl, isSome⟩ := isVariable
            obtain ⟨⟨name, length⟩, found⟩ := Option.isSome_iff_exists.mp isSome
            rw [token_variable found] at ok
            cases ok
            obtain ⟨spelled, later, rfl, rfl, spells⟩ := variableName?_eq_some_iff.mp found
            exact ⟨spelled, later, rfl, rfl, .environment spells⟩
          · have lone : IsLone first tail := ⟨quotes, notOpener, by simpa using digit,
              by simpa using starts, by simpa using isVariable⟩
            rw [lone.token_eq] at ok
            exact exists_symbolText lone (Except.ok.inj ok)

theorem isLone_of_pairPunct? {second : Char} {punct : Punct}
    (spells : pairPunct? first second = some punct) (later : List Char) :
    IsLone first (second :: later) := by
  unfold pairPunct? at spells
  split at spells
  all_goals first
    | exact ⟨by decide, rfl, rfl, rfl, by rintro ⟨⟩⟩
    | cases spells

theorem isLone_of_singlePunct? {punct : Punct} (spells : singlePunct? first = some punct)
    (later : List Char) : IsLone first later := by
  unfold singlePunct? at spells
  split at spells
  all_goals first
    | exact ⟨by decide, head?_bind_captureOf? (by decide) (by decide), rfl, rfl, by rintro ⟨⟩⟩
    | cases spells

theorem TokenText.token_eq (text : TokenText (first :: rest) later kind) :
    token first (rest ++ later) = .ok (kind, rest.length) := by
  cases text with
  | string quotes inside =>
    have notEscape : first ≠ '\\' := by rcases quotes with rfl | rfl <;> decide
    rw [token_string quotes, List.append_assoc, List.singleton_append,
      inside.stringBody_eq notEscape, List.length_append]
    rfl
  | subprocess opener inside =>
    have notString : ¬ (first = '"' ∨ first = '\'') := by
      rintro (rfl | rfl) <;> cases opener
    obtain ⟨captures, rfl⟩ := opener.captures
    rw [List.cons_append, List.append_assoc, List.singleton_append, token_body notString captures,
      (inside.closed opener.areBrackets).ends, Option.elim_some, List.take_left]
    simp
  | whole digit digits ends integral fits =>
    rw [token_digit digit, number_run digits ends, if_pos integral,
      word64?_of_digits digit digits, Word64.ofInt?_eq_some_iff.mpr fits]
    rfl
  | decimal digit digits filled decimal ends =>
    have same : fraction ('.' :: (_ ++ later)) = _ := takeWhile_run decimal ends
    rw [token_digit digit, List.append_assoc, List.cons_append, number_run digits rfl, same,
      if_neg filled]
    grind
  | name starts named ends => rw [token_name starts, takeWhile_run named ends]
  | environment spells =>
    exact token_variable (variableName?_eq_some_iff.mpr ⟨_, _, rfl, rfl, spells⟩)
  | @pair _ second punct _ spells =>
    rw [List.singleton_append, (isLone_of_pairPunct? spells later).token_eq, symbol]
    simp [spells]
  | single spells alone =>
    rw [List.nil_append, (isLone_of_singlePunct? spells later).token_eq, symbol]
    simp [spells, alone]
  | unknown lone alone unmarked =>
    rw [List.nil_append, lone.token_eq, symbol]
    simp [unmarked, alone]

theorem token_eq_ok_iff :
    token first (rest ++ later) = .ok (kind, rest.length) ↔ TokenText (first :: rest) later kind := by
  refine ⟨fun ok => ?_, TokenText.token_eq⟩
  obtain ⟨chunk, after, whole, length, spells⟩ := exists_tokenText ok
  obtain ⟨rfl, rfl⟩ := List.append_inj whole length
  exact spells

theorem TokenText.body_within {capture : Capture} {body : String}
    (spells : TokenText (first :: rest) later (.subprocess capture body)) :
    body.toList <:+: rest := by
  cases spells with
  | @subprocess _ opening closing =>
    rw [String.toList_ofList]
    exact ⟨[opening], [closing], rfl⟩

end Lexer

end HybridShell
