import HybridShell.CommandLine.Scanner
import HybridShell.Proofs.BracketMatching
import HybridShell.Proofs.Outcomes

/-!
# The grammar of command text

What the command scanner accepts, as relations between the text of a piece,
the text that stands after it and what the piece means.  The relations say
nothing of line numbers or step counts.  Each is shown equal to the function
that it describes: `QuotedText` to `doubleQuoted`, `WordPiece` to `wordStep`,
`WordText` to `word`, `TokenText` to `tokenAt` and `CommandText` to `tokens`.
-/

namespace HybridShell

namespace CommandScanner

inductive QuotedText : List Char → List WordAtom → Prop
  | done : QuotedText [] []
  | continuation (others : QuotedText inside atoms) : QuotedText ('\\' :: '\n' :: inside) atoms
  | escaped (escapable : ['"', '\\', '$', '\x60'].contains character = true)
      (others : QuotedText inside atoms) :
      QuotedText ('\\' :: character :: inside) (.quoted character :: atoms)
  | backslash (notNewline : character ≠ '\n')
      (kept : ['"', '\\', '$', '\x60'].contains character = false)
      (others : QuotedText (character :: inside) atoms) :
      QuotedText ('\\' :: character :: inside) (.quoted '\\' :: atoms)
  | environment (named : variableName? (spelled ++ inside) = some (name, spelled.length))
      (others : QuotedText inside atoms) :
      QuotedText ('$' :: (spelled ++ inside)) (.part (.env (String.ofList name)) :: atoms)
  | dollar (unnamed : variableName? inside = none) (others : QuotedText inside atoms) :
      QuotedText ('$' :: inside) (.quoted '$' :: atoms)
  | plain (notQuote : character ≠ '"') (notEscape : character ≠ '\\') (notDollar : character ≠ '$')
      (others : QuotedText inside atoms) :
      QuotedText (character :: inside) (.quoted character :: atoms)

def quotedAtoms (atStart : Bool) (atoms : List WordAtom) : List WordAtom :=
  if ¬ atoms.isEmpty then (joinAtoms atoms).map .part
  else [if atStart then .part (.literal "" true) else .divider]

/-- A piece of a word, the text after it, and the atoms of the piece. -/
inductive WordPiece (readers : BodyReaders) (atStart : Bool) :
    List Char → List Char → List WordAtom → Prop
  | singleQuoted (closes : '\'' ∉ inside) :
      WordPiece readers atStart ('\'' :: (inside ++ ['\''])) later
        [.part (.literal (String.ofList inside) true)]
  | doubleQuoted (quoted : QuotedText inside atoms) :
      WordPiece readers atStart ('"' :: (inside ++ ['"'])) later (quotedAtoms atStart atoms)
  /-- A backslash at the end of the text stands for nothing. -/
  | dangling : WordPiece readers atStart ['\\'] [] []
  | escaped :
      WordPiece readers atStart ['\\', character] later
        [.part (.literal (String.singleton character) true)]
  | captured (closes : Lexer.Closes '(' ')' .plain 0 inside)
      (read : readers.chain inside = .ok chain) :
      WordPiece readers atStart ('$' :: '(' :: (inside ++ [')'])) later [.part (.captured chain)]
  | splitCaptured (closes : Lexer.Closes '(' ')' .plain 0 inside)
      (read : readers.chain inside = .ok chain) :
      WordPiece readers atStart ('@' :: '$' :: '(' :: (inside ++ [')'])) later
        [.part (.splitCaptured chain)]
  | splice (closes : Lexer.Closes '(' ')' .plain 0 inside)
      (read : readers.expression inside = .ok expression) :
      WordPiece readers atStart ('@' :: '(' :: (inside ++ [')'])) later [.part (.splice expression)]
  | environment (named : variableName? (spelled ++ later) = some (name, spelled.length)) :
      WordPiece readers atStart ('$' :: spelled) later [.part (.env (String.ofList name))]
  | dollar (notCaptured : later.head? ≠ some '(') (unnamed : variableName? later = none) :
      WordPiece readers atStart ['$'] later [.plain '$']
  | tilde (leading : (atStart && (atBoundary later || later.head? == some '/')) = true) :
      WordPiece readers atStart ['~'] later [.part .tilde]
  | plainTilde (inside : (atStart && (atBoundary later || later.head? == some '/')) = false) :
      WordPiece readers atStart ['~'] later [.plain '~']
  | plainAt (notSplice : later.head? ≠ some '(') (notCaptured : ¬ ['$', '('] <+: later) :
      WordPiece readers atStart ['@'] later [.plain '@']
  | plain (inside : isBoundary character = false)
      (ordinary : ['\'', '"', '\\', '$', '@', '~'].contains character = false) :
      WordPiece readers atStart [character] later [.plain character]

/-- The pieces of a word, the text after the word, and the atoms of all its pieces. -/
inductive WordText (readers : BodyReaders) :
    Bool → List Char → List Char → List WordAtom → Prop
  | done (ends : atBoundary later = true) : WordText readers atStart [] later []
  | piece (first : WordPiece readers atStart text (others ++ later) atoms)
      (rest : WordText readers (atStart && atoms.isEmpty) others later otherAtoms) :
      WordText readers atStart (text ++ others) later (atoms ++ otherAtoms)

inductive BlankText : List Char → Prop
  | nil : BlankText []
  | continuation (others : BlankText rest) : BlankText ('\\' :: '\n' :: rest)
  | blank (here : Text.isBlank character = true) (others : BlankText rest) :
      BlankText (character :: rest)

/-- The token of a redirection to the other output stream. -/
def duplicateOf (operator : RedirectOperator) : Redirect :=
  if operator.stream = .stderr then .errToOut else .outToErr

/-- A token of command text and the text after it. -/
inductive TokenText (readers : BodyReaders) : List Char → List Char → CommandToken → Prop
  | or : TokenText readers ['|', '|'] later .or
  | pipe (single : later.head? ≠ some '|') : TokenText readers ['|'] later .pipe
  | and : TokenText readers ['&', '&'] later .and
  | background (single : later.head? ≠ some '&')
      (notRedirect : redirectOperator? ('&' :: later) = none) :
      TokenText readers ['&'] later .background
  | duplicate (operates : redirectOperator? (spelled ++ (target ++ later)) = some operator)
      (length : operator.length = spelled.length)
      (names : duplicateLength? operator (target ++ later) = some target.length) :
      TokenText readers (spelled ++ target) later (.redirect (duplicateOf operator))
  | file (operates : redirectOperator? (spelled ++ (blanks ++ (name ++ later))) = some operator)
      (length : operator.length = spelled.length)
      (notNamed : duplicateLength? operator (blanks ++ (name ++ later)) = none)
      (blank : BlankText blanks) (stops : blankLength (name ++ later) = 0)
      (inside : atBoundary (name ++ later) = false)
      (target : WordText readers true name later atoms) :
      TokenText readers (spelled ++ (blanks ++ name)) later
        (.redirect (.file operator.stream operator.mode (joinAtoms atoms)))
  | word (notRedirect : redirectOperator? (text ++ later) = none)
      (inside : atBoundary (text ++ later) = false) (parts : WordText readers true text later atoms) :
      TokenText readers text later (.word (joinAtoms atoms))

inductive CommandText (readers : BodyReaders) : List Char → List CommandToken → Prop
  | done (blank : BlankText blanks) : CommandText readers blanks []
  | token {tokens : List CommandToken} (blank : BlankText blanks)
      (stops : blankLength (text ++ later) = 0)
      (first : TokenText readers text later token) (rest : CommandText readers later tokens) :
      CommandText readers (blanks ++ (text ++ later)) (token :: tokens)

/-! ### Variables -/

variable {text later spelled : List Char} {readers : BodyReaders} {character : Char}
  {operator : RedirectOperator} {cursor : Cursor} {taken length : Nat} {atoms : List WordAtom}
  {token : CommandToken} {atStart : Bool}

variable {test : Char → Bool} {name inner : List Char} {line : Nat} {rest blanks : List Char}
  {fuel : Nat}

theorem takeWhile_append_stop (stops : later.head?.any test = false) :
    (text ++ later).takeWhile test = text.takeWhile test := by
  induction text with
  | nil =>
    cases later with
    | nil => rfl
    | cons character rest => simp_all
  | cons character rest ih => simp only [List.cons_append, List.takeWhile_cons, ih]

theorem exists_after_takeWhile (short : (text.takeWhile test).length < text.length) :
    ∃ character later, text = text.takeWhile test ++ character :: later ∧
      test character = false := by
  induction text with
  | nil => exact absurd short (Nat.lt_irrefl 0)
  | cons first rest ih =>
    by_cases passes : test first = true <;> simp_all

theorem variableName?_bare {text : List Char} (bare : text.head? ≠ some '{') :
    variableName? text =
      let name := text.takeWhile Lexer.isNameCharacter
      if name ≠ [] ∧ ¬ (name.head?.any Char.isDigit) then some (name, name.length) else none := by
  rw [variableName?]
  grind

theorem variableName?_eq_some (found : variableName? text = some (name, taken)) :
    name.all Lexer.isNameCharacter = true ∧
      ∃ spelled later, text = spelled ++ later ∧ taken = spelled.length ∧
        (spelled = '{' :: (name ++ ['}']) ∨ spelled = name) := by
  unfold variableName? at found
  split at found
  · simp only [Option.ite_none_right_eq_some, Option.some.injEq, Prod.mk.injEq] at found
    obtain ⟨⟨closed, _, named⟩, rfl, rfl⟩ := found
    obtain ⟨character, later, same, isClosing⟩ := exists_after_takeWhile closed
    have closing : character = '}' := by simpa using isClosing
    subst closing
    refine ⟨named, _, later, ?_, ?_, .inl rfl⟩
    · conv => lhs; rw [same]
      simp
    · simp
  · simp only [Option.ite_none_right_eq_some, Option.some.injEq, Prod.mk.injEq] at found
    obtain ⟨_, rfl, rfl⟩ := found
    refine ⟨List.all_takeWhile, _, _, (List.takeWhile_append_dropWhile).symm, rfl, .inr rfl⟩

theorem variableName?_characters
    (found : variableName? (spelled ++ later) = some (name, spelled.length))
    (member : character ∈ spelled) :
    Lexer.isNameCharacter character = true ∨ character = '{' ∨ character = '}' := by
  obtain ⟨named, other, rest, same, length, spelling⟩ := variableName?_eq_some found
  obtain ⟨rfl, rfl⟩ := List.append_inj same length
  grind

theorem variableName?_append_stop (notNamed : Lexer.isNameCharacter character = false)
    (notOpening : character ≠ '{') (notClosing : character ≠ '}') :
    variableName? (text ++ character :: later) = variableName? text := by
  have stops : (character :: later).head?.any Lexer.isNameCharacter = false := by
    simpa using notNamed
  by_cases braced : text.head? = some '{'
  · obtain ⟨rest, rfl⟩ := List.head?_eq_some_iff.mp braced
    rw [List.cons_append, variableName?, variableName?]
    by_cases closed : (rest.takeWhile (· ≠ '}')).length < rest.length
    · have same : (rest ++ character :: later).takeWhile (· ≠ '}') =
          rest.takeWhile (· ≠ '}') := by
        rw [List.takeWhile_append, if_neg (Nat.ne_of_lt closed)]
      grind
    · have whole : rest.takeWhile (· ≠ '}') = rest :=
        (List.takeWhile_prefix _).eq_of_length_le (Nat.le_of_not_lt closed)
      have beyond : (rest ++ character :: later).takeWhile (· ≠ '}') =
          rest ++ character :: later.takeWhile (· ≠ '}') := by
        rw [List.takeWhile_append, if_pos (by rw [whole]), List.takeWhile_cons_of_pos (by simpa)]
      simp_all
  · have still : (text ++ character :: later).head? ≠ some '{' := by
      cases text with
      | nil => simpa using notOpening
      | cons first rest => simpa using braced
    rw [variableName?_bare still, variableName?_bare braced, takeWhile_append_stop stops]

/-! ### Double quotes -/

theorem variableName?_append_quote (text later : List Char) :
    variableName? (text ++ '"' :: later) = variableName? text :=
  variableName?_append_stop (by decide) (by decide) (by decide)

theorem doubleQuoted_escape (notNewline : character ≠ '\n') (rest : List Char) :
    doubleQuoted ('\\' :: character :: rest) =
      if ['"', '\\', '$', '\x60'].contains character then
        (doubleQuoted rest).map fun (atoms, taken) => (.quoted character :: atoms, taken + 2)
      else
        (doubleQuoted (character :: rest)).map fun (atoms, taken) =>
          (.quoted '\\' :: atoms, taken + 1) := by
  rw [doubleQuoted]
  exact notNewline

theorem QuotedText.doubleQuoted {atoms : List WordAtom} (quoted : QuotedText inner atoms)
    (later : List Char) :
    doubleQuoted (inner ++ '"' :: later) = some (atoms, inner.length + 1) := by
  induction quoted with
  | done =>
    rw [List.nil_append, CommandScanner.doubleQuoted]
    rfl
  | continuation others ih =>
    simp only [List.cons_append, CommandScanner.doubleQuoted, ih]
    rfl
  | @escaped character inner atoms escapable others ih =>
    have notNewline : character ≠ '\n' := by
      rintro rfl
      exact absurd escapable (by decide)
    rw [List.cons_append, List.cons_append, doubleQuoted_escape notNewline, if_pos escapable, ih]
    rfl
  | backslash notNewline kept others ih =>
    rw [List.cons_append, List.cons_append, doubleQuoted_escape notNewline,
      if_neg (Bool.eq_false_iff.mp kept), ← List.cons_append, ih]
    rfl
  | @environment spelled inner name atoms named others ih =>
    have longer : variableName? (spelled ++ (inner ++ '"' :: later)) =
        some (name, spelled.length) := by
      rw [← List.append_assoc, variableName?_append_quote, named]
    simp only [List.cons_append, List.append_assoc, CommandScanner.doubleQuoted, longer,
      List.drop_left, ih, Option.map_some, List.length_cons, List.length_append]
    congr 2
    omega
  | dollar unnamed others ih =>
    simp only [List.cons_append, CommandScanner.doubleQuoted, variableName?_append_quote,
      unnamed, ih]
    rfl
  | plain notQuote notEscape notDollar others ih =>
    simp only [List.cons_append]
    rw [CommandScanner.doubleQuoted, ih]
    · rfl
    all_goals assumption

theorem quotedText_of_doubleQuoted (found : doubleQuoted text = some (atoms, taken)) :
    ∃ inner later, text = inner ++ '"' :: later ∧ taken = inner.length + 1 ∧
      QuotedText inner atoms := by
  fun_induction CommandScanner.doubleQuoted text generalizing atoms taken with
  | case1 => cases found
  | case2 tail =>
    cases found
    exact ⟨[], tail, rfl, rfl, .done⟩
  | case3 after ih =>
    obtain ⟨⟨atoms, taken⟩, inside, ⟨⟩⟩ := Option.map_eq_some_iff.mp found
    obtain ⟨inner, later, rfl, rfl, quoted⟩ := ih inside
    exact ⟨_, later, rfl, rfl, quoted.continuation⟩
  | case4 escaped after notNewline escapable ih =>
    obtain ⟨⟨atoms, taken⟩, inside, ⟨⟩⟩ := Option.map_eq_some_iff.mp found
    obtain ⟨inner, later, rfl, rfl, quoted⟩ := ih inside
    exact ⟨_, later, rfl, rfl, quoted.escaped escapable⟩
  | case5 escaped after notNewline kept ih =>
    obtain ⟨⟨atoms, taken⟩, inside, ⟨⟩⟩ := Option.map_eq_some_iff.mp found
    obtain ⟨inner, later, whole, rfl, quoted⟩ := ih inside
    cases inner with
    | nil => simp_all
    | cons character inner =>
      cases whole
      exact ⟨_, later, rfl, rfl, quoted.backslash notNewline (Bool.eq_false_iff.mpr kept)⟩
  | case6 => cases found
  | case7 rest name length named ih =>
    obtain ⟨⟨atoms, taken⟩, inside, ⟨⟩⟩ := Option.map_eq_some_iff.mp found
    obtain ⟨inner, later, whole, rfl, quoted⟩ := ih inside
    obtain ⟨_, spelled, after, rfl, rfl, _⟩ := variableName?_eq_some named
    rw [List.drop_left] at whole
    subst whole
    rw [← List.append_assoc, variableName?_append_quote] at named
    refine ⟨_, later, ?_, ?_, quoted.environment named⟩
    · rw [List.cons_append, List.append_assoc]
    · grind
  | case8 rest unnamed ih =>
    obtain ⟨⟨atoms, taken⟩, inside, ⟨⟩⟩ := Option.map_eq_some_iff.mp found
    obtain ⟨inner, later, rfl, rfl, quoted⟩ := ih inside
    rw [variableName?_append_quote] at unnamed
    exact ⟨_, later, rfl, rfl, quoted.dollar unnamed⟩
  | case9 character rest notQuote notEscape notDollar ih =>
    obtain ⟨⟨atoms, taken⟩, inside, ⟨⟩⟩ := Option.map_eq_some_iff.mp found
    obtain ⟨inner, later, rfl, rfl, quoted⟩ := ih inside
    exact ⟨_, later, rfl, rfl, quoted.plain notQuote notEscape notDollar⟩

theorem doubleQuoted_eq_some_iff :
    doubleQuoted text = some (atoms, taken) ↔
      ∃ inner later, text = inner ++ '"' :: later ∧ taken = inner.length + 1 ∧
        QuotedText inner atoms := by
  constructor
  · exact quotedText_of_doubleQuoted
  · rintro ⟨inner, later, rfl, rfl, quoted⟩
    exact quoted.doubleQuoted later

/-! ### Words -/

theorem body_eq_ok_iff {opener : String} :
    body cursor opener = .ok (text, taken) ↔
      Lexer.Closes '(' ')' .plain 0 text ∧ taken = opener.length + text.length ∧
        ∃ later, cursor.rest.drop opener.length = text ++ ')' :: later := by
  constructor
  · intro ok
    simp only [body] at ok
    split at ok
    · next length found =>
      obtain ⟨inner, later, same, rfl, inside⟩ :=
        (Lexer.bodyLength_eq_some_iff (.inl ⟨rfl, rfl⟩)).mp found
      grind [inside.closed (.inl ⟨rfl, rfl⟩)]
    · cases ok
  · rintro ⟨closes, rfl, later, same⟩
    simp only [body, same, closes.ends later, List.take_left]

theorem body_bind_eq_ok_iff {β : Type} {opener : String} {read : List Char → Except ParseError β}
    {make : β → List WordAtom} :
    (do
      let (text, taken) ← body cursor opener
      let found ← read text
      .ok (make found, taken)) = .ok (atoms, taken) ↔
      ∃ inner found later, Lexer.Closes '(' ')' .plain 0 inner ∧ read inner = .ok found ∧
        atoms = make found ∧ taken = opener.length + inner.length ∧
          cursor.rest.drop opener.length = inner ++ ')' :: later := by
  constructor
  · intro ok
    obtain ⟨⟨inner, length⟩, found, next⟩ := Except.bind_eq_ok_iff.mp ok
    obtain ⟨value, read, ⟨⟩⟩ := Except.bind_eq_ok_iff.mp next
    obtain ⟨closes, rfl, later, same⟩ := body_eq_ok_iff.mp found
    exact ⟨inner, value, later, closes, read, rfl, rfl, same⟩
  · rintro ⟨inner, value, later, closes, read, rfl, rfl, same⟩
    rw [body_eq_ok_iff.mpr ⟨closes, rfl, later, same⟩]
    simp only [bind, Except.bind, read]

theorem variableName?_opening (later : List Char) : variableName? ('(' :: later) = none := by
  rfl

theorem takeWhile_ne_append {stop : Char} (inside : stop ∉ inner) :
    (inner ++ stop :: later).takeWhile (· ≠ stop) = inner := by
  have passed : ∀ character ∈ inner, decide (character ≠ stop) = true :=
    fun _ member => decide_eq_true (ne_of_mem_of_not_mem member inside)
  rw [List.takeWhile_append_of_pos passed, List.takeWhile_cons_of_neg (by simp), List.append_nil]

theorem WordPiece.wordStep {readers : BodyReaders} {atStart : Bool} {text later : List Char}
    {atoms : List WordAtom} (piece : WordPiece readers atStart text later atoms) :
    ∃ character rest, text = character :: rest ∧ isBoundary character = false ∧
      ∀ line, wordStep readers atStart line character (rest ++ later) =
        .ok (atoms, rest.length) := by
  cases piece with refine ⟨_, _, rfl, by first | decide | assumption, fun line => ?_⟩
  | @singleQuoted inner later inside =>
    rw [List.append_assoc, List.singleton_append, CommandScanner.wordStep,
      takeWhile_ne_append inside, if_pos (by simp), List.length_append]
    rfl
  | @doubleQuoted inner atoms later quoted =>
    rw [List.append_assoc, List.singleton_append, CommandScanner.wordStep,
      quoted.doubleQuoted later]
    simp only [quotedAtoms, List.length_append, List.length_singleton]
    split <;> rfl
  | dangling | escaped => rfl
  | @captured inner chain later closes read =>
    rw [List.cons_append, List.append_assoc, List.singleton_append, CommandScanner.wordStep]
    exact body_bind_eq_ok_iff.mpr ⟨inner, chain, later, closes, read, rfl, by simp [String.length]; omega, rfl⟩
  | @splitCaptured inner chain later closes read =>
    rw [List.cons_append, List.cons_append, List.append_assoc, List.singleton_append,
      CommandScanner.wordStep]
    exact body_bind_eq_ok_iff.mpr ⟨inner, chain, later, closes, read, rfl, by simp [String.length]; omega, rfl⟩
  | @splice inner expression later closes read =>
    rw [List.cons_append, List.append_assoc, List.singleton_append, CommandScanner.wordStep]
    exact body_bind_eq_ok_iff.mpr ⟨inner, expression, later, closes, read, rfl, by simp [String.length]; omega, rfl⟩
  | @environment spelled later name named =>
    rw [CommandScanner.wordStep, named]
    intro tail same
    rw [same, variableName?_opening] at named
    cases named
  | dollar notCaptured unnamed =>
    rw [List.nil_append, CommandScanner.wordStep, unnamed]
    · rfl
    · rintro tail rfl
      exact notCaptured rfl
  | tilde leading =>
    rw [List.nil_append, CommandScanner.wordStep, if_pos leading]
    rfl
  | plainTilde inside =>
    rw [List.nil_append, CommandScanner.wordStep, if_neg (Bool.eq_false_iff.mp inside)]
    rfl
  | plainAt notSplice notCaptured =>
    rw [List.nil_append, CommandScanner.wordStep]
    · rfl
    all_goals try intros; contradiction
    · rintro tail _ rfl
      exact notCaptured ⟨tail, rfl⟩
    · rintro tail _ rfl
      exact notSplice rfl
  | @plain character later inside ordinary =>
    simp only [List.contains_cons, List.contains_nil, Bool.or_false, Bool.or_eq_false_iff,
      beq_eq_false_iff_ne] at ordinary
    rw [List.nil_append, CommandScanner.wordStep]
    · rfl
    all_goals simp [ordinary]

theorem wordPiece_of_wordStep {tail : List Char} (inside : isBoundary character = false)
    (ok : wordStep readers atStart line character tail = .ok (atoms, taken)) :
    ∃ rest later, tail = rest ++ later ∧ taken = rest.length ∧
      WordPiece readers atStart (character :: rest) later atoms := by
  unfold CommandScanner.wordStep at ok
  dsimp only at ok
  split at ok
  case h_1 =>
    split at ok
    · next closed =>
      cases ok
      obtain ⟨stop, later, same, isQuote⟩ := exists_after_takeWhile closed
      have quote : stop = '\'' := by simpa using isQuote
      subst quote
      have noQuote : '\'' ∉ tail.takeWhile (· ≠ '\'') := by
        intro member
        simpa using List.all_eq_true.mp List.all_takeWhile _ member
      refine ⟨tail.takeWhile (· ≠ '\'') ++ ['\''], later, ?_, ?_, .singleQuoted noQuote⟩
      · rw [List.append_assoc, List.singleton_append, ← same]
      · rw [List.length_append, List.length_singleton]
    · cases ok
  case h_2 =>
    split at ok
    · next quoted length found =>
      obtain ⟨inner, later, rfl, rfl, text⟩ := doubleQuoted_eq_some_iff.mp found
      have same : (quotedAtoms atStart quoted, inner.length + 1) = (atoms, taken) := by
        unfold quotedAtoms
        grind
      cases same
      refine ⟨inner ++ ['"'], later, ?_, ?_, .doubleQuoted text⟩
      · rw [List.append_assoc, List.singleton_append]
      · rw [List.length_append, List.length_singleton]
    · cases ok
  case h_3 =>
    cases ok
    exact ⟨[], [], rfl, rfl, .dangling⟩
  case h_4 escaped later =>
    cases ok
    exact ⟨[escaped], later, rfl, rfl, .escaped⟩
  case h_5 after =>
    obtain ⟨inner, chain, later, closes, read, rfl, rfl, (rfl : after = _)⟩ :=
      body_bind_eq_ok_iff.mp ok
    refine ⟨'(' :: (inner ++ [')']), later, by simp, ?_, .captured closes read⟩
    simp [String.length]
    omega
  case h_6 notCaptured =>
    split at ok
    · next name length named =>
      cases ok
      obtain ⟨_, spelled, later, rfl, rfl, _⟩ := variableName?_eq_some named
      exact ⟨spelled, later, rfl, rfl, .environment named⟩
    · next unnamed =>
      cases ok
      refine ⟨[], tail, rfl, rfl, .dollar ?_ unnamed⟩
      intro opens
      obtain ⟨rest, same⟩ := List.head?_eq_some_iff.mp opens
      exact notCaptured rest same
  case h_7 after =>
    obtain ⟨inner, chain, later, closes, read, rfl, rfl, (rfl : after = _)⟩ :=
      body_bind_eq_ok_iff.mp ok
    refine ⟨'$' :: '(' :: (inner ++ [')']), later, by simp, ?_, .splitCaptured closes read⟩
    simp [String.length]
    omega
  case h_8 after =>
    obtain ⟨inner, expression, later, closes, read, rfl, rfl, (rfl : after = _)⟩ :=
      body_bind_eq_ok_iff.mp ok
    refine ⟨'(' :: (inner ++ [')']), later, by simp, ?_, .splice closes read⟩
    simp [String.length]
    omega
  case h_9 =>
    split at ok
    · next leading =>
      cases ok
      exact ⟨[], tail, rfl, rfl, .tilde leading⟩
    · next inside =>
      cases ok
      exact ⟨[], tail, rfl, rfl, .plainTilde (Bool.eq_false_iff.mpr inside)⟩
  case h_10 notSingle notDouble notDollar notTilde lone pair _ notCaptured notSplice =>
    cases ok
    by_cases atSign : character = '@'
    · subst atSign
      refine ⟨[], tail, rfl, rfl, .plainAt ?_ ?_⟩
      · intro opens
        obtain ⟨rest, same⟩ := List.head?_eq_some_iff.mp opens
        exact notSplice rest rfl same
      · rintro ⟨rest, same⟩
        exact notCaptured rest rfl same.symm
    · have notEscape := Lexer.ne_escape lone pair
      refine ⟨[], tail, rfl, rfl, .plain inside ?_⟩
      simp_all

theorem wordAtoms_nil (readers : BodyReaders) (atStart : Bool) (line : Nat) :
    wordAtoms readers atStart line [] = .ok ([], 0) := by
  rw [wordAtoms.eq_def]

theorem wordAtoms_cons (readers : BodyReaders) (atStart : Bool) (line : Nat) (first : Char)
    (tail : List Char) :
    wordAtoms readers atStart line (first :: tail) =
      if isBoundary first then .ok ([], 0)
      else
        match wordStep readers atStart line first tail with
        | .error error => .error error
        | .ok (atoms, taken) =>
          let passed := line + (first :: tail.take taken).count '\n'
          match wordAtoms readers (atStart && atoms.isEmpty) passed (tail.drop taken) with
          | .error error => .error error
          | .ok (others, length) => .ok (atoms ++ others, taken + 1 + length) :=
  wordAtoms.eq_def readers atStart line (first :: tail)

theorem WordText.wordAtoms {readers : BodyReaders} {atStart : Bool} {text later : List Char}
    {atoms : List WordAtom} (word : WordText readers atStart text later atoms) (line : Nat) :
    wordAtoms readers atStart line (text ++ later) = .ok (atoms, text.length) := by
  induction word generalizing line with
  | @done later atStart ends =>
    cases later with
    | nil => rw [List.nil_append, wordAtoms_nil]; rfl
    | cons first tail =>
      have boundary : isBoundary first = true := by simpa [atBoundary] using ends
      rw [List.nil_append, wordAtoms_cons, if_pos boundary]
      rfl
  | @piece atStart text others later atoms otherAtoms first rest ih =>
    obtain ⟨character, tail, rfl, inside, step⟩ := first.wordStep
    rw [List.append_assoc, List.cons_append, wordAtoms_cons, if_neg (Bool.eq_false_iff.mp inside),
      step line]
    simp only [List.drop_left, ih]
    simp only [List.length_append, List.length_cons]

theorem wordText_of_wordAtoms (ok : wordAtoms readers atStart line text = .ok (atoms, length)) :
    ∃ spelled later, text = spelled ++ later ∧ length = spelled.length ∧
      WordText readers atStart spelled later atoms := by
  fun_induction CommandScanner.wordAtoms readers atStart line text generalizing atoms length
  case case1 =>
    cases ok
    exact ⟨[], [], rfl, rfl, .done rfl⟩
  case case2 character tail boundary =>
    cases ok
    exact ⟨[], character :: tail, rfl, rfl, .done boundary⟩
  case case3 | case4 => cases ok
  case case5 character tail inside atoms taken stepOk passed others length restOk ih =>
    cases ok
    obtain ⟨rest, after, rfl, rfl, piece⟩ :=
      wordPiece_of_wordStep (Bool.eq_false_iff.mpr inside) stepOk
    rw [List.drop_left] at ih
    rw [List.drop_left] at restOk
    obtain ⟨spelled, later, rfl, rfl, word⟩ := ih restOk
    refine ⟨character :: rest ++ spelled, later, ?_, ?_, .piece piece word⟩
    · simp only [List.cons_append, List.append_assoc]
    · simp only [List.length_append, List.length_cons]

theorem word_eq_ok_iff {parts : Word} :
    word readers cursor = .ok (parts, length) ↔
      ∃ spelled later atoms, cursor.rest = spelled ++ later ∧ length = spelled.length ∧
        WordText readers true spelled later atoms ∧ parts = joinAtoms atoms := by
  rw [word, Except.map_eq_ok_iff]
  constructor
  · rintro ⟨⟨atoms, taken⟩, ok, same⟩
    cases same
    obtain ⟨spelled, later, whole, rfl, text⟩ := wordText_of_wordAtoms ok
    exact ⟨spelled, later, atoms, whole, rfl, text, rfl⟩
  · rintro ⟨spelled, later, atoms, whole, rfl, text, rfl⟩
    exact ⟨(atoms, spelled.length), by rw [whole, text.wordAtoms], rfl⟩

/-! ### Blanks -/

theorem blankLength_continuation (rest : List Char) :
    blankLength ('\\' :: '\n' :: rest) = blankLength rest + 2 :=
  rfl

theorem blankLength_cons (notContinued : ∀ after, character = '\\' → rest = '\n' :: after → False) :
    blankLength (character :: rest) =
      if Text.isBlank character then blankLength rest + 1 else 0 := by
  conv => lhs; unfold blankLength
  simp

theorem blankLength_blank (blank : Text.isBlank character = true) (rest : List Char) :
    blankLength (character :: rest) = blankLength rest + 1 := by
  rw [blankLength_cons, if_pos blank]
  rintro after rfl
  exact absurd blank (by decide)

theorem BlankText.blankLength (blank : BlankText blanks) (later : List Char) :
    blankLength (blanks ++ later) = blanks.length + CommandScanner.blankLength later := by
  induction blank with
  | nil => rw [List.nil_append, List.length_nil, Nat.zero_add]
  | continuation others ih =>
    rw [List.cons_append, List.cons_append, blankLength_continuation, ih, List.length_cons,
      List.length_cons]
    omega
  | blank here others ih =>
    rw [List.cons_append, blankLength_blank here, ih, List.length_cons]
    omega

theorem exists_blankText (text : List Char) :
    ∃ blanks later, text = blanks ++ later ∧ blankLength text = blanks.length ∧
      BlankText blanks ∧ blankLength later = 0 := by
  fun_induction CommandScanner.blankLength text with
  | case1 rest ih =>
    obtain ⟨blanks, later, rfl, length, blank, stops⟩ := ih
    exact ⟨_, later, rfl, by rw [length]; rfl, blank.continuation, stops⟩
  | case2 character rest notContinued here ih =>
    obtain ⟨blanks, later, rfl, length, blank, stops⟩ := ih
    exact ⟨_, later, rfl, by rw [length]; rfl, blank.blank here, stops⟩
  | case3 character rest notContinued here =>
    refine ⟨[], character :: rest, rfl, rfl, .nil, ?_⟩
    rw [blankLength_cons notContinued, if_neg here]
  | case4 => exact ⟨[], [], rfl, rfl, .nil, rfl⟩

/-! ### Redirections -/

/-- The characters that redirection operators and the names of streams are made of. -/
def isRedirectCharacter (character : Char) : Bool :=
  character.isAlpha || ['1', '2', '&', '<', '>'].contains character

theorem operatorOf?_eq_some {entry : String × Stream}
    (found : operatorOf? text entry = some operator) :
    ∃ arrow later, text = entry.1.toList ++ (arrow ++ later) ∧ operator.source = entry.1 ∧
      operator.length = entry.1.toList.length + arrow.length ∧
      (arrow = ['>', '>'] ∧ operator.mode = .append ∧ operator.stream = entry.2 ∨
        arrow = ['>'] ∧ operator.mode = .write ∧ operator.stream = entry.2 ∨
        arrow = ['<'] ∧ operator.mode = .read ∧ operator.stream = .stdin) := by
  simp only [operatorOf?] at found
  split at found
  · next starts =>
    obtain ⟨after, rfl⟩ := List.isPrefixOf_iff_prefix.mp starts
    rw [List.drop_left] at found
    split at found
    · next later =>
      cases found
      exact ⟨['>', '>'], later, rfl, rfl, rfl, .inl ⟨rfl, rfl, rfl⟩⟩
    · next later _ =>
      cases found
      exact ⟨['>'], later, rfl, rfl, rfl, .inr (.inl ⟨rfl, rfl, rfl⟩)⟩
    · next later =>
      split at found
      · next empty =>
        cases found
        exact ⟨['<'], later, rfl, rfl, by rw [empty]; rfl, .inr (.inr ⟨rfl, rfl, rfl⟩)⟩
      · cases found
    · cases found
  · cases found

theorem redirectOperator?_eq_some (found : redirectOperator? text = some operator) :
    ∃ spelled later, text = spelled ++ later ∧ operator.length = spelled.length ∧
      spelled ≠ [] ∧ spelled.all isRedirectCharacter = true := by
  obtain ⟨entry, member, found⟩ := List.exists_of_findSome?_eq_some found
  obtain ⟨arrow, later, rfl, _, length, kind⟩ := operatorOf?_eq_some found
  have sources : ∀ entry ∈ redirectSources, entry.1.toList.all isRedirectCharacter = true := by
    decide
  refine ⟨entry.1.toList ++ arrow, later, ?_, ?_, ?_, ?_⟩
  · rw [List.append_assoc]
  · rw [length, List.length_append]
  · rcases kind with ⟨rfl, _⟩ | ⟨rfl, _⟩ | ⟨rfl, _⟩ <;> simp
  · rw [List.all_append, sources entry member, Bool.true_and]
    rcases kind with ⟨rfl, _⟩ | ⟨rfl, _⟩ | ⟨rfl, _⟩ <;> decide

theorem redirectOperator?_width (found : redirectOperator? text = some operator) :
    ∃ arrow later, text = operator.source.toList ++ (arrow ++ later) ∧
      operator.length = operator.source.toList.length + arrow.length ∧
      Text.byteSize arrow = if operator.mode = .append then 2 else 1 := by
  obtain ⟨entry, _, found⟩ := List.exists_of_findSome?_eq_some found
  obtain ⟨arrow, later, whole, source, length, kind⟩ := operatorOf?_eq_some found
  refine ⟨arrow, later, by rw [source, whole], by rw [source, length], ?_⟩
  rcases kind with ⟨rfl, mode, _⟩ | ⟨rfl, mode, _⟩ | ⟨rfl, mode, _⟩ <;> rw [mode] <;> rfl

theorem duplicateTargets_characters {target : String} (member : target ∈ duplicateTargets operator)
    : target.toList.all isRedirectCharacter = true := by
  unfold duplicateTargets at member
  dsimp only at member
  split at member
  · split at member <;> revert member target <;> decide
  · split at member <;> revert member target <;> decide
  · cases member

theorem duplicateLength?_eq_some (found : duplicateLength? operator text = some length) :
    ∃ target later, text = target ++ later ∧ length = target.length ∧
      target.all isRedirectCharacter = true ∧ atBoundary later = true := by
  obtain ⟨name, chosen, rfl⟩ := Option.map_eq_some_iff.mp found
  have named := duplicateTargets_characters (List.mem_of_find?_eq_some chosen)
  have accepted := List.find?_some chosen
  rw [Bool.and_eq_true, List.isPrefixOf_iff_prefix] at accepted
  obtain ⟨⟨later, rfl⟩, ends⟩ := accepted
  grind [String.length_toList]

/-! ### Tokens -/

theorem redirectOperator?_bar (later : List Char) : redirectOperator? ('|' :: later) = none := by
  rfl

theorem redirectOperator?_ampersands (later : List Char) :
    redirectOperator? ('&' :: '&' :: later) = none := by
  rfl

theorem tokenAt_redirect (operates : redirectOperator? cursor.rest = some operator) :
    tokenAt readers cursor =
      (redirection readers cursor operator).map fun (redirect, length) =>
        (.redirect redirect, length) := by
  fun_cases tokenAt readers cursor with
  | case1 tail same | case2 tail _ same => simp_all [redirectOperator?_bar]
  | case3 tail same => simp_all [redirectOperator?_ampersands]
  | case4 other found => simp_all
  | case5 _ _ none | case6 _ none | case7 _ none | case8 _ none | case9 none =>
    cases operates.symm.trans none

theorem tokenAt_word (notRedirect : redirectOperator? cursor.rest = none)
    (inside : atBoundary cursor.rest = false) :
    tokenAt readers cursor =
      (word readers cursor).map fun (parts, length) => (.word parts, length) := by
  have starts {character : Char} {tail : List Char} (boundary : isBoundary character = true)
      (same : cursor.rest = character :: tail) : False := by
    rw [same] at inside
    exact Bool.false_ne_true (inside.symm.trans boundary)
  fun_cases tokenAt readers cursor with
  | case1 tail same | case2 tail _ same | case3 tail same | case5 tail _ _ same
  | case6 tail _ same | case7 tail _ same | case8 tail _ same =>
    exact absurd same (starts (by decide))
  | case4 operator found => cases notRedirect.symm.trans found
  | case9 => rfl

theorem TokenText.tokenAt {readers : BodyReaders} {text later : List Char} {token : CommandToken}
    (grammar : TokenText readers text later token) (line : Nat) :
    tokenAt readers ⟨line, text ++ later⟩ = .ok (token, text.length) := by
  cases grammar with
  | or => rfl
  | @pipe later single =>
    have notOr : ∀ tail, later = '|' :: tail → False := by
      rintro tail rfl
      exact single rfl
    simp only [CommandScanner.tokenAt, List.singleton_append]
    rfl
  | and => rfl
  | @background later single notRedirect =>
    have notAnd : ∀ tail, later = '&' :: tail → False := by
      rintro tail rfl
      exact single rfl
    simp only [CommandScanner.tokenAt, List.singleton_append, notRedirect]
    rfl
  | @duplicate spelled target later operator operates length names =>
    rw [List.append_assoc, tokenAt_redirect operates]
    simp only [redirection, Cursor.advance, length, List.drop_left, names]
    rw [List.length_append]
    rfl
  | @file spelled blanks name later operator atoms operates length notNamed blank stops inside
      target =>
      rw [List.append_assoc, List.append_assoc, tokenAt_redirect operates]
      have total : blankLength (blanks ++ (name ++ later)) = blanks.length := by
        rw [blank.blankLength, stops, Nat.add_zero]
      have read (line : Nat) : CommandScanner.word readers ⟨line, name ++ later⟩ =
          .ok (joinAtoms atoms, name.length) :=
        word_eq_ok_iff.mpr ⟨name, later, atoms, rfl, rfl, target, rfl⟩
      simp only [redirection, Cursor.advance, length, List.drop_left, notNamed, total, inside,
        Bool.false_eq_true, if_false, read, Except.map, List.length_append, Nat.add_assoc]
  | @word text later atoms notRedirect inside parts =>
    have read : CommandScanner.word readers ⟨line, text ++ later⟩ =
        .ok (joinAtoms atoms, text.length) :=
      word_eq_ok_iff.mpr ⟨text, later, atoms, rfl, rfl, parts, rfl⟩
    rw [tokenAt_word notRedirect inside, read]
    rfl

theorem tokenText_of_redirection {redirect : Redirect}
    (operates : redirectOperator? cursor.rest = some operator)
    (ok : redirection readers cursor operator = .ok (redirect, length)) :
    ∃ text later, cursor.rest = text ++ later ∧ length = text.length ∧
      TokenText readers text later (.redirect redirect) := by
  obtain ⟨spelled, rest, whole, size, _, _⟩ := redirectOperator?_eq_some operates
  rw [whole] at operates
  simp only [redirection, Cursor.advance, whole, size, List.drop_left] at ok
  split at ok
  · next found =>
    cases ok
    obtain ⟨target, later, rfl, rfl, _, _⟩ := duplicateLength?_eq_some found
    refine ⟨spelled ++ target, later, ?_, ?_, .duplicate operates size found⟩
    · rw [whole, List.append_assoc]
    · rw [List.length_append]
  · next notNamed =>
    obtain ⟨blanks, after, rfl, count, blank, stops⟩ := exists_blankText rest
    rw [count, List.drop_left] at ok
    split at ok
    · cases ok
    · next inside =>
      obtain ⟨⟨parts, size⟩, read, same⟩ := Except.map_eq_ok_iff.mp ok
      cases same
      obtain ⟨name, later, atoms, split, rfl, target, rfl⟩ := word_eq_ok_iff.mp read
      subst split
      refine ⟨spelled ++ (blanks ++ name), later, ?_, ?_,
        .file operates ‹_› notNamed blank stops (Bool.eq_false_iff.mpr inside) target⟩
      · rw [whole, List.append_assoc, List.append_assoc]
      · rw [List.length_append, List.length_append, Nat.add_assoc]

theorem redirectOperator?_arrow (arrow : character = '<' ∨ character = '>') (later : List Char) :
    redirectOperator? (character :: later) ≠ none := by
  intro none
  have bare := List.findSome?_eq_none_iff.mp none ("", .stdout) (by decide)
  grind [operatorOf?]

theorem atBoundary_eq_false (stops : blankLength (character :: later) = 0)
    (notRedirect : redirectOperator? (character :: later) = none)
    (notOperator : ['|', '&', ';', '(', ')'].contains character = false) :
    atBoundary (character :: later) = false := by
  have notBlank : Text.isBlank character = false := by
    refine Bool.eq_false_iff.mpr fun blank => ?_
    rw [blankLength_blank blank] at stops
    cases stops
  have notArrow : ¬ (character = '<' ∨ character = '>') :=
    fun arrow => redirectOperator?_arrow arrow later notRedirect
  simp_all [atBoundary, isBoundary]

theorem tokenText_of_tokenAt (filled : cursor.rest ≠ []) (stops : blankLength cursor.rest = 0)
    (ok : tokenAt readers cursor = .ok (token, length)) :
    ∃ text later, cursor.rest = text ++ later ∧ length = text.length ∧
      TokenText readers text later token := by
  revert ok
  fun_cases CommandScanner.tokenAt readers cursor <;> intro ok
  case case1 tail same =>
    cases ok
    exact ⟨['|', '|'], tail, same, rfl, .or⟩
  case case2 tail single same =>
    cases ok
    refine ⟨['|'], tail, same, rfl, .pipe fun starts => ?_⟩
    obtain ⟨rest, more⟩ := List.head?_eq_some_iff.mp starts
    exact single rest more
  case case3 tail same =>
    cases ok
    exact ⟨['&', '&'], tail, same, rfl, .and⟩
  case case4 operator operates _ _ _ =>
    obtain ⟨⟨redirect, size⟩, found, same⟩ := Except.map_eq_ok_iff.mp ok
    cases same
    exact tokenText_of_redirection operates found
  case case5 tail single notRedirect same =>
    cases ok
    rw [same] at notRedirect
    refine ⟨['&'], tail, same, rfl, .background (fun starts => ?_) notRedirect⟩
    obtain ⟨rest, more⟩ := List.head?_eq_some_iff.mp starts
    exact single rest more
  case case6 | case7 | case8 => cases ok
  case case9 notRedirect _ notPipe _ notBackground notSemicolon notOpening notClosing =>
    obtain ⟨⟨parts, size⟩, read, same⟩ := Except.map_eq_ok_iff.mp ok
    cases same
    obtain ⟨text, later, atoms, whole, rfl, word, rfl⟩ := word_eq_ok_iff.mp read
    have inside : atBoundary cursor.rest = false := by
      obtain ⟨character, rest, starts⟩ := List.exists_cons_of_ne_nil filled
      rw [starts] at stops notRedirect notPipe notBackground notSemicolon notOpening notClosing ⊢
      refine atBoundary_eq_false stops notRedirect ?_
      simp only [List.contains_cons, List.contains_nil, Bool.or_false, Bool.or_eq_false_iff,
        beq_eq_false_iff_ne]
      refine ⟨?_, ?_, ?_, ?_, ?_⟩ <;> rintro rfl
      · exact notPipe rest rfl
      · exact notBackground rest rfl
      · exact notSemicolon rest rfl
      · exact notOpening rest rfl
      · exact notClosing rest rfl
    rw [whole] at notRedirect inside
    exact ⟨text, later, whole, rfl, .word notRedirect inside word⟩

theorem WordText.ne_nil (word : WordText readers atStart text later atoms)
    (inside : atBoundary (text ++ later) = false) : text ≠ [] := by
  cases word with
  | done ends => exact absurd (inside.symm.trans ends) Bool.false_ne_true
  | piece first rest =>
    obtain ⟨character, tail, rfl, _⟩ := first.wordStep
    exact List.cons_ne_nil _ _

theorem operator_spelling (operates : redirectOperator? (spelled ++ later) = some operator)
    (length : operator.length = spelled.length) :
    spelled ≠ [] ∧ spelled.all isRedirectCharacter = true := by
  obtain ⟨other, rest, same, size, spelling⟩ := redirectOperator?_eq_some operates
  obtain ⟨rfl, _⟩ := List.append_inj same (length.symm.trans size)
  exact spelling

theorem target_spelling {target : List Char}
    (names : duplicateLength? operator (target ++ later) = some target.length) :
    target.all isRedirectCharacter = true ∧ atBoundary later = true := by
  obtain ⟨other, rest, same, size, spelling⟩ := duplicateLength?_eq_some names
  obtain ⟨rfl, rfl⟩ := List.append_inj same size
  exact spelling

theorem TokenText.ne_nil (grammar : TokenText readers text later token) : text ≠ [] := by
  cases grammar with
  | or | pipe | and | background => exact List.cons_ne_nil _ _
  | duplicate operates length names =>
    exact List.append_ne_nil_of_left_ne_nil (operator_spelling operates length).1 _
  | file operates length notNamed blank stops inside target =>
    exact List.append_ne_nil_of_left_ne_nil (operator_spelling operates length).1 _
  | word notRedirect inside parts => exact parts.ne_nil inside

/-! ### Whole texts -/

theorem BlankText.skipBlanks {later : List Char} (blank : BlankText blanks)
    (stops : CommandScanner.blankLength later = 0) (line : Nat) :
    skipBlanks ⟨line, blanks ++ later⟩ = ⟨line + blanks.count '\n', later⟩ := by
  simp only [CommandScanner.skipBlanks, Cursor.advance, blank.blankLength, stops, Nat.add_zero,
    List.drop_left, List.take_left]

theorem CommandText.tokensFrom {readers : BodyReaders} {text : List Char}
    {tokens : List CommandToken} (grammar : CommandText readers text tokens)
    (enough : text.length < fuel) (line : Nat) :
    tokensFrom readers fuel ⟨line, text⟩ = .ok tokens := by
  induction grammar generalizing fuel line with obtain ⟨fuel, rfl⟩ := Nat.exists_eq_add_of_lt enough
  | @done blanks blank =>
    have skipped := @BlankText.skipBlanks blanks [] blank rfl line
    rw [List.append_nil] at skipped
    simp only [CommandScanner.tokensFrom, skipped, if_true]
  | @token blanks text later token tokens blank stops first rest ih =>
    have filled : text ++ later ≠ [] := List.append_ne_nil_of_left_ne_nil first.ne_nil later
    have shorter : later.length < (blanks ++ (text ++ later)).length + fuel := by
      have := List.length_pos_iff.mpr first.ne_nil
      simp only [List.length_append]
      omega
    simp only [CommandScanner.tokensFrom, blank.skipBlanks stops line, filled, if_false,
      first.tokenAt, Cursor.advance, List.drop_left, ih shorter]
    rfl

theorem commandText_of_tokensFrom {tokens : List CommandToken}
    (ok : tokensFrom readers fuel cursor = .ok tokens) :
    CommandText readers cursor.rest tokens := by
  induction fuel generalizing cursor tokens with
  | zero => cases ok
  | succ fuel ih =>
    obtain ⟨line, text⟩ := cursor
    obtain ⟨blanks, rest, rfl, _, blank, stops⟩ := exists_blankText text
    simp only [CommandScanner.tokensFrom, blank.skipBlanks stops line] at ok
    split at ok
    · next empty =>
      cases ok
      subst empty
      rw [List.append_nil]
      exact .done blank
    · next filled =>
      split at ok
      · cases ok
      · next token length tokenOk =>
        obtain ⟨others, othersOk, rfl⟩ := Except.map_eq_ok_iff.mp ok
        obtain ⟨text, later, whole, rfl, first⟩ := tokenText_of_tokenAt filled stops tokenOk
        subst whole
        have rest := ih othersOk
        simp only [Cursor.advance, List.drop_left] at rest
        exact .token blank stops first rest

/-- The scanner's tokens of a text are those that the grammar gives it. -/
theorem tokens_eq_ok_iff {found : List CommandToken} :
    tokens readers text = .ok found ↔ CommandText readers text found :=
  ⟨commandText_of_tokensFrom, fun grammar => grammar.tokensFrom (Nat.lt_succ_self _) 1⟩

theorem CommandText.exists_token {tokens : List CommandToken}
    (grammar : CommandText readers (blanks ++ rest) tokens) (blank : BlankText blanks)
    (stops : blankLength rest = 0) (filled : rest ≠ []) :
    ∃ text later token others, rest = text ++ later ∧ tokens = token :: others ∧
      TokenText readers text later token ∧ CommandText readers later others := by
  have scanned := grammar.tokensFrom (Nat.lt_succ_self _) 1
  simp only [CommandScanner.tokensFrom, blank.skipBlanks stops, filled, if_false] at scanned
  split at scanned
  · cases scanned
  · next token length tokenOk =>
    obtain ⟨text, later, whole, rfl, first⟩ := tokenText_of_tokenAt filled stops tokenOk
    obtain ⟨others, rest, rfl⟩ := Except.map_eq_ok_iff.mp scanned
    subst whole
    rw [Cursor.advance, List.drop_left] at rest
    exact ⟨text, later, token, others, rfl, rfl, first, commandText_of_tokensFrom rest⟩

theorem TokenText.unique {after : List Char} {other : CommandToken}
    (first : TokenText readers text later token) (second : TokenText readers spelled after other)
    (whole : text ++ later = spelled ++ after) :
    text = spelled ∧ later = after ∧ token = other := by
  have read := first.tokenAt 1
  rw [whole, second.tokenAt 1] at read
  injection read with same
  injection same with sameToken sameLength
  obtain ⟨sameText, sameLater⟩ := List.append_inj whole sameLength.symm
  exact ⟨sameText, sameLater, sameToken.symm⟩

theorem CommandText.uncons {tokens : List CommandToken}
    (grammar : CommandText readers (blanks ++ (text ++ later)) tokens) (blank : BlankText blanks)
    (stops : blankLength (text ++ later) = 0) (first : TokenText readers text later token) :
    ∃ others, tokens = token :: others ∧ CommandText readers later others := by
  have filled : text ++ later ≠ [] := List.append_ne_nil_of_left_ne_nil first.ne_nil later
  obtain ⟨spelled, after, other, others, whole, rfl, second, rest⟩ :=
    grammar.exists_token blank stops filled
  obtain ⟨rfl, rfl, rfl⟩ := first.unique second whole
  exact ⟨others, rfl, rest⟩

end CommandScanner

end HybridShell
