import HybridShell.Proofs.NestedReaders
import HybridShell.Proofs.SelfContainedText

/-!
# Command text in capturing brackets

The lexer and the command scanner find the end of a captured command by
matching brackets, and only then read the command.  The matcher treats quotes,
backslashes and inner brackets by rules of its own.  It nevertheless stops
where every acceptable command text stops, so that such a text means the same
alone, as an expression in brackets and as a word in brackets.
-/

namespace HybridShell

theorem Lexer.token_captured {body : List Char} (closes : Lexer.Closes '(' ')' .plain 0 body)
    (later : List Char) :
    Lexer.token '$' ('(' :: (body ++ ')' :: later)) =
      .ok (.subprocess .stdout (String.ofList body), body.length + 2) := by
  have found : Lexer.bodyLength '(' (Lexer.closingOf '(') .plain 0 (body ++ ')' :: later) =
      some body.length :=
    closes.ends later
  have capture : ('(' :: (body ++ ')' :: later)).head?.bind (Lexer.captureOf? '$') =
      some .stdout :=
    rfl
  simp only [Lexer.token, capture, found, List.take_left]
  rfl

theorem toList_captured (body : String) :
    ("$(" ++ body ++ ")").toList = '$' :: '(' :: (body.toList ++ [')']) := by
  simp [String.toList_append]

variable {body : String}

theorem lex_captured (closes : Lexer.Closes '(' ')' .plain 0 body.toList) :
    lex ("$(" ++ body ++ ")") =
      .ok [⟨.subprocess .stdout body, ⟨0, Text.byteSize ("$(" ++ body ++ ")").toList, 1⟩⟩] := by
  have found : Lexer.piece '$' ('(' :: (body.toList ++ [')'])) =
      .ok (some (.subprocess .stdout body), body.toList.length + 2) := by
    have token := Lexer.token_captured closes []
    rw [String.ofList_toList] at token
    simp only [Lexer.piece, token]
    rfl
  have whole : ('(' :: (body.toList ++ [')'])).length = body.toList.length + 2 := by simp
  rw [lex, toList_captured, Lexer.tokensFrom, found]
  simp only [← whole, List.take_length, List.drop_length, Lexer.tokensFrom, TokenKind.isNewline,
    Bool.false_and, Bool.false_eq_true, if_false, Position.past, Position.start, Nat.zero_add]

theorem ExpressionReader.expression_subprocess {readers : BodyReaders} {capture : Capture}
    {span : Span} {chain : Chain} (read : readers.chain body.toList = .ok chain) :
    expression readers [⟨.subprocess capture body, span⟩] =
      .ok (.subprocess capture chain, []) := by
  simp [expression, steps, atLevel, operators, suffixes, atom, read, Level.tighter, Level.before?,
    ↓bind, ↓Except.bind, pure, Except.pure, Except.mapError]

theorem parseExpression_captured {chain : Chain} (accepted : parseChain body = .ok chain)
    (closes : Lexer.Closes '(' ')' .plain 0 body.toList) :
    parseExpression ("$(" ++ body ++ ")") = .ok (.subprocess .stdout chain) := by
  have inner : (BodyReaders.ofDepth ("$(" ++ body ++ ")").toList.length).chain body.toList =
      .ok chain := by
    rw [BodyReaders.chain_ofDepth, String.ofList_toList, accepted]
    rw [toList_captured]
    simp only [List.length_cons, List.length_append]
    omega
  have lexed := lex_captured closes
  change ExpressionReader.readWith _ _ = _
  refine Except.bind_eq_ok_iff.mpr ⟨_, Except.mapError_eq_ok_iff.mpr lexed, ?_⟩
  simp only [bind, Except.bind, List.filter, TokenKind.isNewline, Bool.not_false,
    ExpressionReader.expression_subprocess inner]
  rfl

namespace CommandScanner

theorem wordText_plain {readers : BodyReaders} {text later : List Char}
    (plain : text.any (fun character => isBoundary character ||
      ['\'', '"', '\\', '$', '@', '~'].contains character) = false)
    (ends : atBoundary later = true) (atStart : Bool) :
    WordText readers atStart text later (text.map .plain) := by
  induction text generalizing atStart with
  | nil => exact .done ends
  | cons character rest ih =>
    rw [List.any_cons, Bool.or_eq_false_iff, Bool.or_eq_false_iff] at plain
    obtain ⟨⟨inside, ordinary⟩, others⟩ := plain
    exact .piece (.plain inside ordinary) (ih others _)

theorem commandText_captured {readers : BodyReaders} {body : List Char} {chain : Chain}
    (read : readers.chain body = .ok chain) (closes : Lexer.Closes '(' ')' .plain 0 body) :
    CommandText readers ("echo $(".toList ++ (body ++ [')']))
      [.word [.literal "echo" false], .word [.captured chain]] := by
  have name : WordText readers true "echo".toList (' ' :: '$' :: '(' :: (body ++ [')']))
      ("echo".toList.map .plain) :=
    wordText_plain (by decide) rfl true
  have argument : WordText readers true ('$' :: '(' :: (body ++ [')']) ++ []) []
      ([.part (.captured chain)] ++ []) :=
    .piece (.captured closes read) (.done rfl)
  rw [List.append_nil] at argument
  have space : BlankText [' '] := .blank (by decide) .nil
  have last : CommandText readers ([' '] ++ ('$' :: '(' :: (body ++ [')']) ++ []))
      [.word [.captured chain]] :=
    .token space rfl (.word rfl rfl argument) (.done .nil)
  rw [List.append_nil] at last
  have whole : CommandText readers
      ([] ++ ("echo".toList ++ ([' '] ++ '$' :: '(' :: (body ++ [')']))))
      [.word (joinAtoms ("echo".toList.map .plain)), .word [.captured chain]] :=
    .token .nil rfl (.word rfl rfl name) last
  exact whole

end CommandScanner

namespace ChainReader

theorem takeCommand_words {words : List Word}
    (plain : ∀ word ∈ words, (CommandToken.word word).isBareWord "and" = false ∧
      (CommandToken.word word).isBareWord "or" = false) :
    takeCommand true (words.map .word) = (⟨words, []⟩, []) := by
  induction words with
  | nil => rfl
  | cons word rest ih =>
    have here := plain word List.mem_cons_self
    have others := ih fun other member => plain other (List.mem_cons_of_mem _ member)
    rw [List.map_cons, takeCommand, here.1, here.2, others]
    rfl

theorem chain_words {first : Word} {others : List Word}
    (command : isNegation (.word first) = false)
    (plain : ∀ word ∈ others, (CommandToken.word word).isBareWord "and" = false ∧
      (CommandToken.word word).isBareWord "or" = false) :
    chain (.word first :: others.map .word) = .ok (.pipeline [⟨first :: others, []⟩] false) := by
  have taken : takeCommand false (.word first :: others.map .word) =
      (⟨first :: others, []⟩, []) := by
    rw [takeCommand, takeCommand_words plain]
    rfl
  have single : ChainReader.command (.word first :: others.map .word) =
      .ok (⟨first :: others, []⟩, []) := by
    simp only [ChainReader.command, taken]
    rfl
  have piped : pipeline (.word first :: others.map .word) =
      .ok ([⟨first :: others, []⟩], []) := by
    rw [pipeline]
    split <;> simp_all
  have negated : negation (.word first :: others.map .word) =
      .ok (.pipeline [⟨first :: others, []⟩] false, []) := by
    rw [negation, if_neg (Bool.eq_false_iff.mp command), piped]
  rw [chain, negated]
  simp only [bind, Except.bind, operators]
  rfl

end ChainReader

theorem parseChain_captured {body : String} {chain : Chain}
    (accepted : parseChain body = .ok chain)
    (closes : Lexer.Closes '(' ')' .plain 0 body.toList) :
    parseChain ("echo $(" ++ body ++ ")") =
      .ok (.pipeline [⟨[[.literal "echo" false], [.captured chain]], []⟩] false) := by
  have text : ("echo $(" ++ body ++ ")").toList = "echo $(".toList ++ (body.toList ++ [')']) := by
    simp [String.toList_append]
  have inner : (BodyReaders.ofDepth ("echo $(" ++ body ++ ")").toList.length).chain body.toList =
      .ok chain := by
    rw [BodyReaders.chain_ofDepth, String.ofList_toList, accepted]
    rw [text]
    simp only [List.length_append, List.length_singleton]
    omega
  have grammar := CommandScanner.commandText_captured inner closes
  rw [← text] at grammar
  refine (parseChain_eq_ok_iff (Nat.le_refl _)).mpr ⟨_, grammar, ?_⟩
  have plain : ∀ word ∈ [[WordPart.captured chain]],
      (CommandToken.word word).isBareWord "and" = false ∧
        (CommandToken.word word).isBareWord "or" = false := by
    intro word member
    rw [List.mem_singleton.mp member]
    exact ⟨rfl, rfl⟩
  exact ChainReader.chain_words (by decide) plain

/--
A command text that is accepted, and does not end in a backslash, stands in
capturing brackets as it stands alone: the bracket matcher ends it at the
bracket after it and nowhere else, the lexer makes it one token, and as an
expression and as an argument it is the same chain.
-/
theorem accepted_text_is_captured_whole {body : String} {chain : Chain}
    (accepted : parseChain body = .ok chain) (complete : body.toList.getLast? ≠ some '\\') :
    (∀ later : List Char,
      Lexer.bodyLength '(' ')' .plain 0 (body.toList ++ ')' :: later) =
        some body.toList.length) ∧
    lex ("$(" ++ body ++ ")") =
      .ok [⟨.subprocess .stdout body, ⟨0, Text.byteSize ("$(" ++ body ++ ")").toList, 1⟩⟩] ∧
    parseExpression ("$(" ++ body ++ ")") = .ok (.subprocess .stdout chain) ∧
    parseChain ("echo $(" ++ body ++ ")") =
      .ok (.pipeline [⟨[[.literal "echo" false], [.captured chain]], []⟩] false) := by
  obtain ⟨tokens, grammar, _⟩ := (parseChain_eq_ok_iff (Nat.le_refl _)).mp accepted
  have unescaped : endsInEscape body.toList = false := by
    have escapes := endsInEscape_append complete []
    rwa [List.append_nil] at escapes
  have closes : Lexer.Closes '(' ')' .plain 0 body.toList :=
    (grammar.isSelfContained unescaped).passes.closes
  exact ⟨closes.ends, lex_captured closes, parseExpression_captured accepted closes,
    parseChain_captured accepted closes⟩

/-- Command text with quoted, escaped and nested brackets. -/
def nestedBrackets : String :=
  "a ')' \"(\" \\) @$(b \"$(\" '(') @(f(\")\")) | c 2> $(d)"

theorem accepted_text_is_captured_whole_nestedBrackets :
    ∃ chain, parseChain nestedBrackets = .ok chain ∧
      nestedBrackets.toList.getLast? ≠ some '\\' ∧
      parseExpression ("$(" ++ nestedBrackets ++ ")") = .ok (.subprocess .stdout chain) := by
  have complete : nestedBrackets.toList.getLast? ≠ some '\\' := by decide +kernel
  have readable : (parseChain nestedBrackets).isOk = true := by decide +kernel
  obtain ⟨chain, accepted⟩ := Except.exists_of_isOk readable
  exact ⟨chain, accepted, complete, (accepted_text_is_captured_whole accepted complete).2.2.1⟩

end HybridShell
