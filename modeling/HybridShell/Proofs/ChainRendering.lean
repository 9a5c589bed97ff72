import HybridShell.Proofs.ChainNormalForm

/-!
# Writing chains

A chain of quoted words is written as its tokens with a blank between each two:
words stand in single quotes, and operators as they are.  Reading the text
gives the chain back; only the quoted text of a word may come in other parts.
The proof goes through the tokens: the scanner finds those that were written,
and the reader builds the chain that they came from.
-/

namespace HybridShell

/-! ### Words of chains -/

def Redirect.mapWord (change : Word → Word) : Redirect → Redirect
  | .file stream mode target => .file stream mode (change target)
  | .errToOut => .errToOut
  | .outToErr => .outToErr

def CommandToken.mapWord (change : Word → Word) : CommandToken → CommandToken
  | .word parts => .word (change parts)
  | .redirect target => .redirect (target.mapWord change)
  | token => token

def Command.mapWords (change : Word → Word) (command : Command) : Command where
  words := command.words.map change
  redirects := command.redirects.map (Redirect.mapWord change)

def Chain.mapWords (change : Word → Word) : Chain → Chain
  | .pipeline commands background =>
    .pipeline (commands.map (Command.mapWords change)) background
  | .and left right => .and (left.mapWords change) (right.mapWords change)
  | .or left right => .or (left.mapWords change) (right.mapWords change)
  | .not operand => .not (operand.mapWords change)

namespace Chain

variable (change : Word → Word) (commands : List Command) (background : Bool)
  (left right operand : Chain)

@[simp] theorem mapWords_pipeline : mapWords change (.pipeline commands background) =
    .pipeline (commands.map (Command.mapWords change)) background := rfl

@[simp] theorem mapWords_and :
    mapWords change (.and left right) = .and (left.mapWords change) (right.mapWords change) := rfl

@[simp] theorem mapWords_or :
    mapWords change (.or left right) = .or (left.mapWords change) (right.mapWords change) := rfl

@[simp] theorem mapWords_not : mapWords change (.not operand) = .not (operand.mapWords change) :=
  rfl

end Chain

def Redirect.words : Redirect → List Word
  | .file _ _ target => [target]
  | .errToOut | .outToErr => []

def Command.allWords (command : Command) : List Word :=
  command.words ++ command.redirects.flatMap Redirect.words

def Chain.words : Chain → List Word
  | .pipeline commands _ => commands.flatMap Command.allWords
  | .and left right => left.words ++ right.words
  | .or left right => left.words ++ right.words
  | .not operand => operand.words

namespace Chain

variable (commands : List Command) (background : Bool) (left right operand : Chain)

@[simp] theorem words_pipeline :
    words (.pipeline commands background) = commands.flatMap Command.allWords := rfl

@[simp] theorem words_and : words (.and left right) = left.words ++ right.words := rfl

@[simp] theorem words_or : words (.or left right) = left.words ++ right.words := rfl

@[simp] theorem words_not : words (.not operand) = operand.words := rfl

end Chain

structure Word.IsQuoted (word : Word) : Prop where
  filled : word ≠ []
  each : ∀ part ∈ word, ∃ text, part = .literal text true

/-- A chain whose words and redirection targets are quoted text alone. -/
def Chain.IsQuoted (chain : Chain) : Prop :=
  ∀ word ∈ chain.words, Word.IsQuoted word

def Word.joinQuoted : Word → Word
  | [] => []
  | .literal text true :: rest =>
    match joinQuoted rest with
    | .literal more true :: others => .literal (text ++ more) true :: others
    | others => .literal text true :: others
  | part :: rest => part :: joinQuoted rest

def Chain.joinQuoted (chain : Chain) : Chain :=
  chain.mapWords Word.joinQuoted

/-! ### Text of chains -/

/-- Text that goes on inside single quotes, up to the closing quote.  A quote in the text stands
outside the quotes, behind a backslash. -/
def closeQuote : List Char → List Char
  | [] => ['\'']
  | character :: rest =>
    if character = '\'' then '\'' :: '\\' :: '\'' :: '\'' :: closeQuote rest
    else character :: closeQuote rest

def WordPart.text : WordPart → List Char
  | .literal text _ => text.toList
  | _ => []

def Word.text (word : Word) : List Char :=
  word.flatMap WordPart.text

/-- A bare word is written as it is, and every other word in single quotes. -/
def Word.spelling : Word → List Char
  | [.literal text false] => text.toList
  | word => '\'' :: closeQuote (Word.text word)

def Stream.spelling : Stream → List Char
  | .stdin | .stdout => []
  | .stderr => ['2']
  | .all => ['a']

def FileMode.spelling : FileMode → List Char
  | .read => ['<']
  | .write => ['>']
  | .append => ['>', '>']

variable (gap : Nat)

/-- A redirection, with some number of blanks before its target. -/
def Redirect.spelling : Redirect → List Char
  | .file stream mode target =>
    (stream.spelling ++ mode.spelling) ++ (List.replicate gap ' ' ++ Word.spelling target)
  | .errToOut => ['2', '>', '&', '1']
  | .outToErr => ['1', '>', '&', '2']

def CommandToken.spelling : CommandToken → List Char
  | .word parts => Word.spelling parts
  | .redirect target => target.spelling gap
  | .pipe => ['|']
  | .and => ['&', '&']
  | .or => ['|', '|']
  | .background => ['&']

/-- The words of a command, and then its redirections. -/
def Command.tokens (command : Command) : List CommandToken :=
  command.words.map .word ++ command.redirects.map .redirect

def Chain.tokens : Chain → List CommandToken
  | .pipeline commands background =>
    [.pipe].intercalate (commands.map Command.tokens) ++
      if background then [.background] else []
  | .and left right => left.tokens ++ .and :: right.tokens
  | .or left right => left.tokens ++ .or :: right.tokens
  | .not operand => .word [.literal "!" false] :: operand.tokens

namespace Chain

variable (commands : List Command) (left right operand : Chain)

@[simp] theorem tokens_foreground : tokens (.pipeline commands false) =
    [.pipe].intercalate (commands.map Command.tokens) :=
  List.append_nil _

@[simp] theorem tokens_background : tokens (.pipeline commands true) =
    [.pipe].intercalate (commands.map Command.tokens) ++ [.background] := rfl

@[simp] theorem tokens_and : tokens (.and left right) = left.tokens ++ .and :: right.tokens := rfl

@[simp] theorem tokens_or : tokens (.or left right) = left.tokens ++ .or :: right.tokens := rfl

@[simp] theorem tokens_not :
    tokens (.not operand) = .word [.literal "!" false] :: operand.tokens := rfl

end Chain

/-- The text of a chain: its tokens, with a blank between each two. -/
def Chain.render (chain : Chain) : String :=
  String.ofList ([' '].intercalate (chain.tokens.map (CommandToken.spelling gap)))

/-! ### The parts of a quoted word -/

/-- The parts that text in single quotes is read as, when some of it has been read. -/
def quotedParts (before : List Char) : List Char → Word
  | [] => [.literal (String.ofList before) true]
  | character :: rest =>
    if character = '\'' then
      .literal (String.ofList before) true :: .literal "'" true :: quotedParts [] rest
    else quotedParts (before ++ [character]) rest

def Word.reread : Word → Word
  | [.literal text false] => [.literal text false]
  | word => quotedParts [] (Word.text word)

theorem quotedParts_isQuoted (before text : List Char) :
    Word.IsQuoted (quotedParts before text) := by
  induction text generalizing before with
  | nil =>
    refine ⟨List.cons_ne_nil _ _, ?_⟩
    rw [quotedParts, List.forall_mem_singleton]
    exact ⟨_, rfl⟩
  | cons character rest ih =>
    rw [quotedParts]
    split
    · refine ⟨List.cons_ne_nil _ _, ?_⟩
      rw [List.forall_mem_cons, List.forall_mem_cons]
      exact ⟨⟨_, rfl⟩, ⟨_, rfl⟩, (ih []).each⟩
    · exact ih (before ++ [character])

theorem text_quotedParts (before text : List Char) :
    Word.text (quotedParts before text) = before ++ text := by
  induction text generalizing before with
  | nil => simp [quotedParts, Word.text, WordPart.text]
  | cons character rest ih =>
    rw [quotedParts]
    split
    · simp_all [Word.text, WordPart.text]
    · rw [ih, List.append_assoc, List.singleton_append]

namespace Word.IsQuoted

variable {word : Word}

theorem joinQuoted_eq (quoted : IsQuoted word) :
    Word.joinQuoted word = [.literal (String.ofList (Word.text word)) true] := by
  induction word with
  | nil => exact absurd rfl quoted.filled
  | cons part rest ih =>
    obtain ⟨⟨text, rfl⟩, others⟩ := List.forall_mem_cons.mp quoted.each
    cases rest with
    | nil => simp [Word.joinQuoted, Word.text, WordPart.text]
    | cons next more =>
      have joined := ih ⟨List.cons_ne_nil _ _, others⟩
      rw [Word.joinQuoted, joined]
      simp [Word.text, WordPart.text, String.ofList_append]

theorem not_bare (quoted : IsQuoted word) (text : String) : word ≠ [.literal text false] := by
  rintro rfl
  obtain ⟨other, same⟩ := quoted.each _ List.mem_cons_self
  cases same

theorem isBareWord_eq_false (quoted : IsQuoted word) (text : String) :
    (CommandToken.word word).isBareWord text = false := by
  unfold CommandToken.isBareWord
  split
  · next found same =>
    cases same
    exact absurd rfl (quoted.not_bare found)
  · rfl

theorem spelling_eq (quoted : IsQuoted word) :
    Word.spelling word = '\'' :: closeQuote (Word.text word) := by
  unfold Word.spelling
  split
  · next text => exact absurd rfl (quoted.not_bare text)
  · rfl

theorem reread_eq (quoted : IsQuoted word) :
    Word.reread word = quotedParts [] (Word.text word) := by
  unfold Word.reread
  split
  · next text => exact absurd rfl (quoted.not_bare text)
  · rfl

theorem reread (quoted : IsQuoted word) : IsQuoted (Word.reread word) := by
  rw [quoted.reread_eq]
  exact quotedParts_isQuoted _ _

theorem joinQuoted_reread (quoted : IsQuoted word) :
    Word.joinQuoted (Word.reread word) = Word.joinQuoted word := by
  rw [quoted.reread.joinQuoted_eq, quoted.joinQuoted_eq, quoted.reread_eq, text_quotedParts,
    List.nil_append]

end Word.IsQuoted

/-! ### Scanning what was written -/

namespace CommandScanner

variable {readers : BodyReaders} {later : List Char}

/-- The text ends here or goes on with a blank. -/
def IsApart (later : List Char) : Prop :=
  ∀ character ∈ later.head?, character = ' '

theorem IsApart.atBoundary (apart : IsApart later) : atBoundary later = true := by
  cases later with
  | nil => rfl
  | cons character rest =>
    obtain rfl := apart character rfl
    rfl

theorem joinAtoms_parts (parts : Word) : joinAtoms (parts.map .part) = parts := by
  induction parts with
  | nil => rfl
  | cons part rest ih => rw [List.map_cons, joinAtoms, ih]

theorem wordText_quotedParts (ends : atBoundary later = true) {before : List Char}
    (inside : '\'' ∉ before) (text : List Char) (atStart : Bool) :
    WordText readers atStart ('\'' :: (before ++ closeQuote text)) later
      ((quotedParts before text).map .part) := by
  induction text generalizing before atStart with
  | nil =>
    have only : WordText readers atStart ('\'' :: (before ++ ['\'']) ++ []) later
        ([.part (.literal (String.ofList before) true)] ++ []) :=
      .piece (.singleQuoted inside) (.done ends)
    rwa [List.append_nil] at only
  | cons character rest ih =>
    rw [closeQuote, quotedParts]
    split
    · have others := ih (List.not_mem_nil) false
      have escaped : WordText readers false (['\\', '\''] ++ '\'' :: ([] ++ closeQuote rest))
          later ([.part (.literal "'" true)] ++ (quotedParts [] rest).map .part) :=
        .piece .escaped others
      have whole : WordText readers atStart
          ('\'' :: (before ++ ['\'']) ++ (['\\', '\''] ++ '\'' :: ([] ++ closeQuote rest)))
          later
          ([.part (.literal (String.ofList before) true)] ++
            ([.part (.literal "'" true)] ++ (quotedParts [] rest).map .part)) :=
        .piece (.singleQuoted inside) (by rwa [List.isEmpty_cons, Bool.and_false])
      simpa using whole
    · next other =>
      have notQuote : '\'' ∉ before ++ [character] := by grind
      have whole := ih notQuote atStart
      rwa [List.append_assoc, List.singleton_append] at whole

theorem wordText_spelling {word : Word} (quoted : Word.IsQuoted word)
    (ends : atBoundary later = true) :
    WordText readers true (Word.spelling word) later ((Word.reread word).map .part) := by
  rw [quoted.spelling_eq, quoted.reread_eq]
  exact wordText_quotedParts ends (List.not_mem_nil) _ true

/-- The tokens that are written: quoted words, the word that negates, and redirections to files
with quoted names. -/
def IsWritten : CommandToken → Prop
  | .word parts => Word.IsQuoted parts ∨ parts = [.literal "!" false]
  | .redirect target => target.IsNormal ∧ ∀ word ∈ target.words, Word.IsQuoted word
  | _ => True

variable {stream : Stream} {mode : FileMode} {next : Char} {token : CommandToken}

theorem redirectOperator?_spelling (normal : stream = .stdin ↔ mode = .read)
    (follows : next = ' ' ∨ next = '\'') (rest : List Char) :
    redirectOperator? (stream.spelling ++ mode.spelling ++ next :: rest) =
      some ⟨String.ofList stream.spelling, stream, mode,
        (stream.spelling ++ mode.spelling).length⟩ := by
  cases stream <;> cases mode <;>
    simp only [reduceCtorEq, iff_false, iff_true, not_true_eq_false] at normal
  all_goals rcases follows with rfl | rfl <;> rfl

theorem duplicateTargets_opening {operator : RedirectOperator} {target : String}
    (member : target ∈ duplicateTargets operator) :
    target.toList.head?.any isRedirectCharacter = true := by
  unfold duplicateTargets at member
  dsimp only at member
  split at member
  · split at member <;> revert member target <;> decide
  · split at member <;> revert member target <;> decide
  · cases member

/-- No file with a quoted name is taken for the other output stream. -/
theorem duplicateLength?_eq_none (operator : RedirectOperator) (follows : next = ' ' ∨ next = '\'')
    (rest : List Char) : duplicateLength? operator (next :: rest) = none := by
  rw [duplicateLength?, Option.map_eq_none_iff, List.find?_eq_none]
  intro target member accepted
  rw [Bool.and_eq_true, List.isPrefixOf_iff_prefix] at accepted
  obtain ⟨⟨more, same⟩, _⟩ := accepted
  have opening := duplicateTargets_opening member
  cases spelled : target.toList with
  | nil => simp_all
  | cons first others =>
    rw [spelled] at opening same
    cases same
    rw [List.head?_cons, Option.any_some] at opening
    rcases follows with rfl | rfl <;> exact absurd opening (by decide)

theorem blankText_replicate (gap : Nat) : BlankText (List.replicate gap ' ') := by
  induction gap with
  | zero => exact .nil
  | succ gap ih => exact .blank (by decide) ih

theorem tokenText_file {target : Word} (normal : stream = .stdin ↔ mode = .read)
    (quoted : Word.IsQuoted target) (gap : Nat) (ends : atBoundary later = true) :
    TokenText readers ((Redirect.file stream mode target).spelling gap) later
      (.redirect (.file stream mode (Word.reread target))) := by
  have name : WordText readers true (Word.spelling target) later
      ((Word.reread target).map .part) :=
    wordText_spelling quoted ends
  have starts : ∃ next rest, (next = ' ' ∨ next = '\'') ∧
      List.replicate gap ' ' ++ (Word.spelling target ++ later) = next :: rest := by
    rw [quoted.spelling_eq]
    cases gap with
    | zero => exact ⟨_, _, .inr rfl, rfl⟩
    | succ gap => exact ⟨_, _, .inl rfl, rfl⟩
  obtain ⟨next, rest, follows, same⟩ := starts
  have operates := redirectOperator?_spelling normal follows rest
  have unnamed := duplicateLength?_eq_none ⟨String.ofList stream.spelling, stream, mode,
    (stream.spelling ++ mode.spelling).length⟩ follows rest
  rw [← same] at operates unnamed
  have whole := TokenText.file operates rfl unnamed (blankText_replicate gap)
    (by rw [quoted.spelling_eq]; rfl) (by rw [quoted.spelling_eq]; rfl) name
  rwa [joinAtoms_parts] at whole

theorem tokenText_errToOut (apart : IsApart later) :
    TokenText readers (['2', '>'] ++ ['&', '1']) later (.redirect .errToOut) := by
  have operates : redirectOperator? (['2', '>'] ++ (['&', '1'] ++ later)) =
      some ⟨"2", .stderr, .write, 2⟩ :=
    rfl
  refine .duplicate operates rfl ?_
  cases later with
  | nil => rfl
  | cons character rest =>
    obtain rfl := apart character rfl
    rfl

theorem tokenText_outToErr (apart : IsApart later) :
    TokenText readers (['1', '>'] ++ ['&', '2']) later (.redirect .outToErr) := by
  have operates : redirectOperator? (['1', '>'] ++ (['&', '2'] ++ later)) =
      some ⟨"1", .stdout, .write, 2⟩ :=
    rfl
  refine .duplicate operates rfl ?_
  cases later with
  | nil => rfl
  | cons character rest =>
    obtain rfl := apart character rfl
    rfl

theorem tokenText_spelling (written : IsWritten token) (gap : Nat) (apart : IsApart later) :
    TokenText readers (token.spelling gap) later (token.mapWord Word.reread) := by
  have ends := apart.atBoundary
  cases token with
  | word parts =>
    rcases written with quoted | rfl
    · have text : WordText readers true (Word.spelling parts) later
          ((Word.reread parts).map .part) :=
        wordText_spelling quoted ends
      have whole := TokenText.word
        (by rw [quoted.spelling_eq]; rfl) (by rw [quoted.spelling_eq]; rfl) text
      rwa [joinAtoms_parts] at whole
    · have text : WordText readers true (['!'] ++ []) later ([.plain '!'] ++ []) :=
        .piece (.plain (by decide) (by decide)) (.done ends)
      exact .word rfl rfl text
  | redirect target =>
    obtain ⟨normal, quoted⟩ := written
    cases target with
    | file stream mode target =>
      exact tokenText_file normal (quoted target List.mem_cons_self) gap ends
    | errToOut => exact tokenText_errToOut apart
    | outToErr => exact tokenText_outToErr apart
  | pipe =>
    refine .pipe fun same => ?_
    cases apart '|' same
  | and => exact .and
  | or => exact .or
  | background =>
    refine .background (fun same => ?_) ?_
    · cases apart '&' same
    · cases later with
      | nil => rfl
      | cons character rest =>
        obtain rfl := apart character rfl
        rfl

theorem blankLength_spelling (written : IsWritten token) (gap : Nat) (later : List Char) :
    blankLength (token.spelling gap ++ later) = 0 := by
  cases token with
  | word parts =>
    rcases written with quoted | rfl
    · rw [CommandToken.spelling, quoted.spelling_eq]
      rfl
    · rfl
  | redirect target =>
    cases target with
    | file stream mode target => cases stream <;> cases mode <;> rfl
    | errToOut | outToErr => rfl
  | pipe | and | or | background => rfl

/-- Tokens that are written with blanks between them are found again. -/
theorem commandText_written {tokens : List CommandToken}
    (written : ∀ token ∈ tokens, IsWritten token) (gap : Nat) {blanks : List Char}
    (blank : BlankText blanks) :
    CommandText readers (blanks ++ [' '].intercalate (tokens.map (CommandToken.spelling gap)))
      (tokens.map (CommandToken.mapWord Word.reread)) := by
  induction tokens generalizing blanks with
  | nil =>
    rw [List.map_nil, List.intercalate_nil, List.append_nil]
    exact .done blank
  | cons token rest ih =>
    obtain ⟨here, others⟩ := List.forall_mem_cons.mp written
    cases rest with
    | nil =>
      have apart : IsApart [] := nofun
      have only : CommandText readers (blanks ++ (token.spelling gap ++ []))
          [token.mapWord Word.reread] :=
        .token blank (blankLength_spelling here gap []) (tokenText_spelling here gap apart)
          (.done .nil)
      simp_all
    | cons next more =>
      have apart : IsApart ([' '] ++ [' '].intercalate
          ((next :: more).map (CommandToken.spelling gap))) := by
        rintro character ⟨⟩
        rfl
      have space : BlankText [' '] := .blank (by decide) .nil
      have later := ih others space
      exact .token blank (blankLength_spelling here gap _)
        (tokenText_spelling here gap apart) later

end CommandScanner

/-! ### Reading the tokens of a chain -/

namespace ChainReader

/-- No word or redirection stands at the front. -/
def EndsCommand (rest : List CommandToken) : Prop :=
  ∀ token ∈ rest.head?, token = .pipe ∨ token = .and ∨ token = .or ∨ token = .background

variable {rest : List CommandToken}

variable (hasWord : Bool)

theorem takeCommand_end (ends : EndsCommand rest) :
    takeCommand hasWord rest = (⟨[], []⟩, rest) := by
  cases rest with
  | nil => rfl
  | cons token others =>
    rcases ends token rfl with rfl | rfl | rfl | rfl <;> cases hasWord <;> rfl

theorem takeCommand_redirects (redirects : List Redirect) (ends : EndsCommand rest) :
    takeCommand hasWord (redirects.map .redirect ++ rest) = (⟨[], redirects⟩, rest) := by
  induction redirects with
  | nil => exact takeCommand_end hasWord ends
  | cons redirect others ih =>
    rw [List.map_cons, List.cons_append, takeCommand, ih]
    simp [CommandToken.isBareWord]

theorem takeCommand_tokens {command : Command} (quoted : ∀ word ∈ command.words, Word.IsQuoted word)
    (ends : EndsCommand rest) : takeCommand hasWord (command.tokens ++ rest) = (command, rest) := by
  obtain ⟨words, redirects⟩ := command
  rw [Command.tokens, List.append_assoc]
  induction words generalizing hasWord with
  | nil => exact takeCommand_redirects hasWord redirects ends
  | cons word others ih =>
    obtain ⟨here, later⟩ := List.forall_mem_cons.mp quoted
    have ordinary := here.isBareWord_eq_false
    simp_all [takeCommand]

theorem command_tokens {command : Command} (normal : command.IsNormal)
    (quoted : ∀ word ∈ command.words, Word.IsQuoted word) (ends : EndsCommand rest) :
    ChainReader.command (command.tokens ++ rest) = .ok (command, rest) := by
  simp only [ChainReader.command, takeCommand_tokens false quoted ends]
  rw [if_neg]
  simpa using normal.filled

theorem pipeline_last {tokens : List CommandToken} {first : Command}
    (found : command tokens = .ok (first, rest)) (single : rest.head? ≠ some .pipe) :
    pipeline tokens = .ok ([first], rest) := by
  rw [pipeline]
  grind

theorem pipeline_more {tokens after : List CommandToken} {first : Command} {others : List Command}
    (found : command tokens = .ok (first, .pipe :: rest))
    (later : pipeline rest = .ok (others, after)) :
    pipeline tokens = .ok (first :: others, after) := by
  rw [pipeline]
  split <;> simp_all

theorem pipeline_tokens {commands : List Command} (normal : IsPipeline commands)
    (quoted : ∀ command ∈ commands, ∀ word ∈ command.words, Word.IsQuoted word)
    (ends : EndsCommand rest) (single : rest.head? ≠ some .pipe) :
    pipeline ([.pipe].intercalate (commands.map Command.tokens) ++ rest) =
      .ok (commands, rest) := by
  obtain ⟨filled, each⟩ := normal
  induction commands with
  | nil => exact absurd rfl filled
  | cons command others ih =>
    obtain ⟨here, later⟩ := List.forall_mem_cons.mp each
    obtain ⟨quotedHere, quotedLater⟩ := List.forall_mem_cons.mp quoted
    cases others with
    | nil =>
      rw [List.map_singleton, List.intercalate_singleton]
      exact pipeline_last (command_tokens here quotedHere ends) single
    | cons next more =>
      have piped : EndsCommand (.pipe ::
          ([.pipe].intercalate ((next :: more).map Command.tokens) ++ rest)) := by
        rintro token ⟨⟩
        exact .inl rfl
      have found := command_tokens here quotedHere piped
      have whole := pipeline_more found (ih quotedLater (List.cons_ne_nil _ _) later)
      simp_all

theorem exists_first_word {commands : List Command} (normal : IsPipeline commands)
    (rest : List CommandToken) :
    ∃ command ∈ commands, ∃ word ∈ command.words, ∃ more,
      [.pipe].intercalate (commands.map Command.tokens) ++ rest = .word word :: more := by
  obtain ⟨filled, each⟩ := normal
  obtain ⟨command, others, rfl⟩ := List.exists_cons_of_ne_nil filled
  have here := each command List.mem_cons_self
  obtain ⟨word, words, same⟩ := List.exists_cons_of_ne_nil here.filled
  refine ⟨command, List.mem_cons_self, word, by rw [same]; exact List.mem_cons_self, ?_⟩
  cases others with
  | nil =>
    rw [List.map_singleton, List.intercalate_singleton, Command.tokens, same]
    exact ⟨_, rfl⟩
  | cons next more => simp [Command.tokens, same]

theorem negation_tokens {chain : Chain} (operand : chain.IsOperand) (quoted : chain.IsQuoted)
    (ends : EndsCommand rest) (single : rest.head? ≠ some .pipe) :
    negation (chain.tokens ++ rest) = .ok (chain, rest) := by
  induction operand with
  | @pipeline commands normal =>
    have words : ∀ command ∈ commands, ∀ word ∈ command.words, Word.IsQuoted word := by
      intro command member word inside
      exact quoted word
        (List.mem_flatMap.mpr ⟨command, member, List.mem_append_left _ inside⟩)
    have read := pipeline_tokens normal words ends single
    obtain ⟨command, member, word, inside, more, same⟩ := exists_first_word normal rest
    have ordinary := (words command member word inside).isBareWord_eq_false
    simp_all [isNegation, negation]
  | @not operand inner ih =>
    have read := ih quoted
    rw [Chain.tokens_not, List.cons_append, negation, if_pos (by decide), read]

theorem operators_join {left right : Chain} {token : CommandToken}
    {tokens after : List CommandToken} (joins : (isAnd token || isOr token) = true)
    (read : negation tokens = .ok (right, after)) :
    operators left (token :: tokens) =
      operators (if isAnd token then .and left right else .or left right) after := by
  rw [operators, if_pos joins]
  grind

theorem operators_tokens {chain : Chain} (joined : chain.IsJoined) (quoted : chain.IsQuoted)
    (ends : EndsCommand rest) (single : rest.head? ≠ some .pipe) :
    ∃ first middle, negation (chain.tokens ++ rest) = .ok (first, middle) ∧
      operators first middle = operators chain rest := by
  induction joined generalizing rest with
  | @operand chain operand =>
    exact ⟨chain, rest, negation_tokens operand quoted ends single, rfl⟩
  | @and left right before after ih =>
    obtain ⟨quotedLeft, quotedRight⟩ := List.forall_mem_append.mp quoted
    have joins : EndsCommand (.and :: (right.tokens ++ rest)) := by
      rintro token ⟨⟩
      exact .inr (.inl rfl)
    obtain ⟨first, middle, read, same⟩ := ih quotedLeft joins nofun
    have operand := negation_tokens after quotedRight ends single
    rw [operators_join rfl operand] at same
    rw [Chain.tokens_and, List.append_assoc]
    exact ⟨first, middle, read, same⟩
  | @or left right before after ih =>
    obtain ⟨quotedLeft, quotedRight⟩ := List.forall_mem_append.mp quoted
    have joins : EndsCommand (.or :: (right.tokens ++ rest)) := by
      rintro token ⟨⟩
      exact .inr (.inr (.inl rfl))
    obtain ⟨first, middle, read, same⟩ := ih quotedLeft joins nofun
    have operand := negation_tokens after quotedRight ends single
    rw [operators_join rfl operand] at same
    rw [Chain.tokens_or, List.append_assoc]
    exact ⟨first, middle, read, same⟩

theorem chain_tokens {parsed : Chain} (normal : parsed.IsNormal) (quoted : parsed.IsQuoted) :
    chain parsed.tokens = .ok parsed := by
  cases normal with
  | foreground joined =>
    have ends : EndsCommand [] := by rintro _ ⟨⟩
    obtain ⟨first, middle, read, same⟩ :=
      operators_tokens joined quoted ends (by rintro ⟨⟩)
    rw [List.append_nil] at read
    rw [operators] at same
    rw [chain, read]
    simp only [bind, Except.bind, same]
    rfl
  | @background commands normal =>
    have ends : EndsCommand [.background] := by
      rintro token ⟨⟩
      exact .inr (.inr (.inr rfl))
    have read := negation_tokens (.pipeline normal) quoted ends (by rintro ⟨⟩)
    have same : operators (.pipeline commands false) [.background] =
        .ok (.pipeline commands false, [.background]) := by
      rw [operators, if_neg (by decide)]
    rw [Chain.tokens_foreground] at read
    rw [chain, Chain.tokens_background, read]
    simp only [bind, Except.bind, same]
    rfl

end ChainReader

/-! ### Changed words -/

section

variable (change : Word → Word)

theorem Command.tokens_mapWords (command : Command) :
    (command.mapWords change).tokens = command.tokens.map (CommandToken.mapWord change) := by
  simp only [Command.tokens, Command.mapWords, List.map_append, List.map_map]
  rfl

theorem pipelineTokens_mapWords (commands : List Command) :
    [.pipe].intercalate ((commands.map (Command.mapWords change)).map Command.tokens) =
      ([.pipe].intercalate (commands.map Command.tokens)).map (CommandToken.mapWord change) := by
  induction commands with
  | nil => rfl
  | cons command others ih =>
    cases others with
    | nil => simp [Command.tokens_mapWords]
    | cons next more =>
      simp only [List.map_cons, List.intercalate_cons_cons, List.map_append,
        Command.tokens_mapWords] at ih ⊢
      rw [ih]
      rfl

namespace Chain

theorem tokens_mapWords (fixed : change [.literal "!" false] = [.literal "!" false]) :
    (chain : Chain) →
      (chain.mapWords change).tokens = chain.tokens.map (CommandToken.mapWord change)
  | .pipeline commands false => by
    rw [mapWords_pipeline, tokens_foreground, tokens_foreground, pipelineTokens_mapWords]
  | .pipeline commands true => by
    rw [mapWords_pipeline, tokens_background, tokens_background, pipelineTokens_mapWords,
      List.map_append]
    rfl
  | .and left right => by
    rw [mapWords_and, tokens_and, tokens_and, tokens_mapWords fixed left,
      tokens_mapWords fixed right, List.map_append, List.map_cons]
    rfl
  | .or left right => by
    rw [mapWords_or, tokens_or, tokens_or, tokens_mapWords fixed left,
      tokens_mapWords fixed right, List.map_append, List.map_cons]
    rfl
  | .not operand => by
    rw [mapWords_not, tokens_not, tokens_not, tokens_mapWords fixed operand, List.map_cons,
      CommandToken.mapWord, fixed]

end Chain

theorem Redirect.words_mapWord (redirect : Redirect) :
    (redirect.mapWord change).words = redirect.words.map change := by
  cases redirect <;> rfl

theorem Command.allWords_mapWords (command : Command) :
    (command.mapWords change).allWords = command.allWords.map change := by
  simp only [Command.allWords, Command.mapWords, List.flatMap_map, Redirect.words_mapWord,
    List.map_append, List.map_flatMap]

theorem Chain.words_mapWords :
    (chain : Chain) → (chain.mapWords change).words = chain.words.map change
  | .pipeline commands background => by
    simp only [mapWords_pipeline, words_pipeline, List.flatMap_map, Command.allWords_mapWords,
      List.map_flatMap]
  | .and left right => by
    rw [mapWords_and, words_and, words_and, words_mapWords left, words_mapWords right,
      List.map_append]
  | .or left right => by
    rw [mapWords_or, words_or, words_or, words_mapWords left, words_mapWords right,
      List.map_append]
  | .not operand => by rw [mapWords_not, words_not, words_not, words_mapWords operand]

theorem IsPipeline.mapWords {commands : List Command} (normal : IsPipeline commands) :
    IsPipeline (commands.map (Command.mapWords change)) where
  filled := fun empty => normal.filled (List.map_eq_nil_iff.mp empty)
  each := by
    intro changed member
    obtain ⟨command, inside, rfl⟩ := List.mem_map.mp member
    have here := normal.each command inside
    refine ⟨fun empty => here.filled (List.map_eq_nil_iff.mp empty), ?_⟩
    intro changed member
    obtain ⟨redirect, inside, rfl⟩ := List.mem_map.mp member
    have normal := here.redirects redirect inside
    cases redirect with
    | file stream mode target => exact normal
    | errToOut | outToErr => trivial

namespace Chain

variable {chain : Chain}

theorem IsOperand.mapWords (operand : chain.IsOperand) : (chain.mapWords change).IsOperand := by
  induction operand with
  | pipeline normal => exact .pipeline (normal.mapWords change)
  | not inner ih => exact .not ih

theorem IsJoined.mapWords (joined : chain.IsJoined) : (chain.mapWords change).IsJoined := by
  induction joined with
  | operand single => exact .operand (single.mapWords change)
  | and before after ih => exact .and ih (after.mapWords change)
  | or before after ih => exact .or ih (after.mapWords change)

theorem IsNormal.mapWords (normal : chain.IsNormal) : (chain.mapWords change).IsNormal := by
  cases normal with
  | foreground joined => exact .foreground (joined.mapWords change)
  | background normal => exact .background (normal.mapWords change)

end Chain

variable {change} {after final : Word → Word}

theorem Command.mapWords_mapWords {command : Command}
    (same : ∀ word ∈ command.allWords, after (change word) = final word) :
    (command.mapWords change).mapWords after = command.mapWords final := by
  obtain ⟨inWords, inTargets⟩ := List.forall_mem_append.mp same
  have words : (command.words.map change).map after = command.words.map final := by simp_all
  have redirects : (command.redirects.map (Redirect.mapWord change)).map
      (Redirect.mapWord after) = command.redirects.map (Redirect.mapWord final) := by
    rw [List.map_map]
    refine List.map_congr_left fun redirect member => ?_
    cases redirect with
    | file stream mode target =>
      have target := inTargets target (List.mem_flatMap.mpr ⟨_, member, List.mem_cons_self⟩)
      exact congrArg (Redirect.file stream mode) target
    | errToOut | outToErr => rfl
  simp only [Command.mapWords, words, redirects]

theorem Chain.mapWords_mapWords : (chain : Chain) →
    (∀ word ∈ chain.words, after (change word) = final word) →
      (chain.mapWords change).mapWords after = chain.mapWords final
  | .pipeline commands background, same => by
    rw [mapWords_pipeline, mapWords_pipeline, mapWords_pipeline, List.map_map]
    refine congrArg (Chain.pipeline · background) (List.map_congr_left fun command member => ?_)
    exact Command.mapWords_mapWords fun word inside =>
      same word (List.mem_flatMap.mpr ⟨command, member, inside⟩)
  | .and left right, same => by
    obtain ⟨inLeft, inRight⟩ := List.forall_mem_append.mp same
    rw [mapWords_and, mapWords_and, mapWords_and, mapWords_mapWords left inLeft,
      mapWords_mapWords right inRight]
  | .or left right, same => by
    obtain ⟨inLeft, inRight⟩ := List.forall_mem_append.mp same
    rw [mapWords_or, mapWords_or, mapWords_or, mapWords_mapWords left inLeft,
      mapWords_mapWords right inRight]
  | .not operand, same => by
    rw [mapWords_not, mapWords_not, mapWords_not, mapWords_mapWords operand same]

end

/-! ### Chains are read as they were written -/

open CommandScanner (IsWritten)

theorem Command.isWritten_of_mem_tokens {command : Command} (normal : command.IsNormal)
    (quoted : ∀ word ∈ command.allWords, Word.IsQuoted word) {token : CommandToken}
    (member : token ∈ command.tokens) : IsWritten token := by
  obtain ⟨inWords, inTargets⟩ := List.forall_mem_append.mp quoted
  rcases List.mem_append.mp member with isWord | isRedirect
  · obtain ⟨word, inside, rfl⟩ := List.mem_map.mp isWord
    exact .inl (inWords word inside)
  · obtain ⟨redirect, inside, rfl⟩ := List.mem_map.mp isRedirect
    refine ⟨normal.redirects redirect inside, fun word target => ?_⟩
    exact inTargets word (List.mem_flatMap.mpr ⟨redirect, inside, target⟩)

theorem mem_intercalate {α : Type} {separator item : α} {lists : List (List α)}
    (member : item ∈ [separator].intercalate lists) :
    item = separator ∨ ∃ list ∈ lists, item ∈ list := by
  induction lists with
  | nil => cases member
  | cons list others ih =>
    cases others with
    | nil => simp_all
    | cons next more => grind [List.intercalate_cons_cons]

namespace Chain

variable {chain : Chain}

theorem isWritten_pipeline {commands : List Command} {background : Bool}
    (normal : IsPipeline commands) (quoted : IsQuoted (.pipeline commands background)) :
    ∀ token ∈ tokens (.pipeline commands background), IsWritten token := by
  intro token member
  rcases List.mem_append.mp member with inside | marked
  · rcases mem_intercalate inside with rfl | ⟨list, ofCommand, found⟩
    · trivial
    · obtain ⟨command, present, rfl⟩ := List.mem_map.mp ofCommand
      refine Command.isWritten_of_mem_tokens (normal.each command present) ?_ found
      exact fun word inside => quoted word (List.mem_flatMap.mpr ⟨command, present, inside⟩)
  · cases background with
    | false => cases marked
    | true =>
      obtain rfl := List.mem_singleton.mp marked
      trivial

theorem IsOperand.isWritten (operand : chain.IsOperand) (quoted : chain.IsQuoted) :
    ∀ token ∈ chain.tokens, IsWritten token := by
  induction operand with
  | pipeline normal => exact isWritten_pipeline normal quoted
  | not inner ih =>
    rw [tokens_not, List.forall_mem_cons]
    exact ⟨.inr rfl, ih quoted⟩

theorem IsJoined.isWritten (joined : chain.IsJoined) (quoted : chain.IsQuoted) :
    ∀ token ∈ chain.tokens, IsWritten token := by
  induction joined with
  | operand single => exact single.isWritten quoted
  | and before after ih =>
    obtain ⟨quotedLeft, quotedRight⟩ := List.forall_mem_append.mp quoted
    rw [tokens_and, List.forall_mem_append, List.forall_mem_cons]
    exact ⟨ih quotedLeft, trivial, after.isWritten quotedRight⟩
  | or before after ih =>
    obtain ⟨quotedLeft, quotedRight⟩ := List.forall_mem_append.mp quoted
    rw [tokens_or, List.forall_mem_append, List.forall_mem_cons]
    exact ⟨ih quotedLeft, trivial, after.isWritten quotedRight⟩

theorem IsNormal.isWritten (normal : chain.IsNormal) (quoted : chain.IsQuoted) :
    ∀ token ∈ chain.tokens, IsWritten token := by
  cases normal with
  | foreground joined => exact joined.isWritten quoted
  | background normal => exact isWritten_pipeline normal quoted

theorem IsQuoted.reread (quoted : chain.IsQuoted) : (chain.mapWords Word.reread).IsQuoted := by
  intro word member
  rw [words_mapWords] at member
  obtain ⟨before, inside, rfl⟩ := List.mem_map.mp member
  exact (quoted before inside).reread

end Chain

theorem parseChain_render {chain : Chain} (normal : chain.IsNormal) (quoted : chain.IsQuoted)
    (gap : Nat) : parseChain (chain.render gap) = .ok (chain.mapWords Word.reread) := by
  refine (parseChain_eq_ok_iff (Nat.le_refl _)).mpr
    ⟨chain.tokens.map (CommandToken.mapWord Word.reread), ?_, ?_⟩
  · rw [Chain.render, String.toList_ofList]
    exact CommandScanner.commandText_written (normal.isWritten quoted) gap .nil
  · rw [← Chain.tokens_mapWords Word.reread rfl]
    exact ChainReader.chain_tokens (normal.mapWords Word.reread) quoted.reread

/--
A chain that is read is in normal form, and a chain in normal form whose words
are quoted text is read from what is written of it, with any number of blanks
before the targets of redirections; only the quoted text of its words may come
in other parts.
-/
theorem normal_chains_are_read_back (chain : Chain) (gap : Nat) :
    (∀ source, parseChain source = .ok chain → chain.IsNormal) ∧
    (chain.IsNormal → chain.IsQuoted →
      ∃ parsed, parseChain (chain.render gap) = .ok parsed ∧
        parsed.joinQuoted = chain.joinQuoted) := by
  refine ⟨fun source => isNormal_of_parseChain, fun normal quoted => ?_⟩
  refine ⟨chain.mapWords Word.reread, parseChain_render normal quoted gap, ?_⟩
  exact chain.mapWords_mapWords fun word member => (quoted word member).joinQuoted_reread

theorem normal_chains_are_read_back_quotedOperators :
    let chain : Chain :=
      .or (.pipeline
          [⟨[[.literal "it's" true], [.literal "" true]],
              [.file .stdin .read [.literal "&1" true], .file .all .append [.literal "a b" true]]⟩,
            ⟨[[.literal "and" true]], [.errToOut]⟩] false)
        (.not (.pipeline [⟨[[.literal "!" true]], [.outToErr]⟩] false))
    chain.render 1 =
        "'it'\\''s' '' < '&1' a>> 'a b' | 'and' 2>&1 || ! '!' 1>&2" ∧
      ∃ parsed, parseChain (chain.render 1) = .ok parsed ∧
        parsed.joinQuoted = chain.joinQuoted := by
  intro chain
  have first : Command.IsNormal ⟨[[.literal "it's" true], [.literal "" true]],
      [.file .stdin .read [.literal "&1" true], .file .all .append [.literal "a b" true]]⟩ :=
    ⟨nofun, by simp [Redirect.IsNormal]⟩
  have second : Command.IsNormal ⟨[[.literal "and" true]], [.errToOut]⟩ :=
    ⟨nofun, by simp [Redirect.IsNormal]⟩
  have last : Command.IsNormal ⟨[[.literal "!" true]], [.outToErr]⟩ :=
    ⟨nofun, by simp [Redirect.IsNormal]⟩
  have normal : chain.IsNormal :=
    .foreground (.or (.operand (.pipeline ⟨nofun, by simp [first, second]⟩))
      (.not (.pipeline ⟨nofun, by simp [last]⟩)))
  have literal (text : String) : Word.IsQuoted [.literal text true] :=
    ⟨nofun, by simp⟩
  have quoted : chain.IsQuoted := by
    simp [chain, Chain.IsQuoted, Command.allWords, Redirect.words, literal]
  exact ⟨rfl, (normal_chains_are_read_back chain 1).2 normal quoted⟩

end HybridShell
