import HybridShell.Proofs.CapturedText
import HybridShell.Proofs.ChainWeight
import HybridShell.Proofs.MatchedExpressions

/-!
# Expressions in command text

An expression in `@(...)` is a part of a word.  Its end is found by matching
brackets before it is read, so a command holds a whole expression just if the
matcher closes it where it ends.
-/

namespace HybridShell

namespace CommandScanner

variable {readers : BodyReaders}

/-! ### Text that adds nothing to a word -/

variable {atoms : List WordAtom} {atStart : Bool} {text later body : List Char} {value : Expr}

theorem eq_divider_of_joinAtoms (silent : joinAtoms atoms = []) :
    ∀ atom ∈ atoms, atom = .divider := by
  induction atoms with
  | nil => exact List.forall_mem_nil _
  | cons atom rest ih =>
    cases atom with
    | divider => exact List.forall_mem_cons.mpr ⟨rfl, ih silent⟩
    | part part => cases silent
    | plain character =>
      obtain ⟨text, parts, same⟩ := joinAtoms_plain_eq_cons character rest
      simp_all
    | quoted character =>
      obtain ⟨text, parts, same⟩ := joinAtoms_quoted_eq_cons character rest
      simp_all

theorem WordPiece.getLast?_ne (piece : WordPiece readers atStart text later atoms)
    (silent : ∀ atom ∈ atoms, atom = .divider) : text.getLast? ≠ some ')' := by
  cases piece with
  | doubleQuoted quoted => simp [List.getLast?_cons]
  | dangling => decide
  | _ => cases silent _ List.mem_cons_self

theorem WordText.getLast?_ne (word : WordText readers atStart text later atoms)
    (silent : ∀ atom ∈ atoms, atom = .divider) : text.getLast? ≠ some ')' := by
  induction word with
  | done => rintro ⟨⟩
  | @piece atStart text others later atoms otherAtoms first rest ih =>
    obtain ⟨silentHere, silentOthers⟩ := List.forall_mem_append.mp silent
    rw [List.getLast?_append]
    intro last
    rcases Option.or_eq_some_iff.mp last with last | ⟨_, last⟩
    · exact ih silentOthers last
    · exact first.getLast?_ne silentHere last

theorem BlankText.getLast?_ne {blanks : List Char} (blank : BlankText blanks) :
    blanks.getLast? ≠ some ')' := by
  induction blank with
  | nil => rintro ⟨⟩
  | @continuation rest others ih =>
    rw [List.getLast?_cons_cons, List.getLast?_cons]
    intro last
    cases ended : rest.getLast? with
    | none => simp [ended] at last
    | some character => exact ih (by simpa [ended] using last)
  | @blank character rest here others ih =>
    rw [List.getLast?_cons]
    intro last
    cases ended : rest.getLast? with
    | none =>
      rw [ended] at last
      cases last
      exact absurd here (by decide)
    | some character => exact ih (by simpa [ended] using last)

theorem WordPiece.splice_of_starts {rest : List Char}
    (piece : WordPiece readers atStart text later atoms)
    (starts : text ++ later = '@' :: '(' :: rest) :
    ∃ inner expression, text = '@' :: '(' :: (inner ++ [')']) ∧
      atoms = [.part (.splice expression)] ∧ Lexer.Closes '(' ')' .plain 0 inner := by
  cases piece with
  | splice closes read => exact ⟨_, _, rfl, rfl, closes⟩
  | plainAt notSplice => simp_all
  | plain inside ordinary => grind
  | _ => cases starts

theorem closes_of_tokenText (whole : text ++ later = '@' :: '(' :: (body ++ [')']))
    (token : TokenText readers text later (.word [.splice value])) (blank : BlankText later) :
    Lexer.Closes '(' ')' .plain 0 body := by
  generalize same : CommandToken.word [.splice value] = found at token
  cases token with
  | @word text later atoms notRedirect inside parts =>
    have joined : [WordPart.splice value] = joinAtoms atoms := CommandToken.word.inj same
    cases parts with
    | done ends => cases joined
    | @piece _ text others _ atoms otherAtoms first rest =>
      rw [List.append_assoc] at whole
      obtain ⟨inner, expression, rfl, rfl, closes⟩ := first.splice_of_starts whole
      have silent : joinAtoms otherAtoms = [] := (List.cons.inj joined).2.symm
      have ended : (others ++ later).getLast? ≠ some ')' := by
        rw [List.getLast?_append]
        intro last
        rcases Option.or_eq_some_iff.mp last with last | ⟨_, last⟩
        · exact blank.getLast?_ne last
        · exact rest.getLast?_ne (eq_divider_of_joinAtoms silent) last
      have inside : inner ++ ')' :: (others ++ later) = body ++ [')'] := by simpa using whole
      rcases List.eq_nil_or_concat (others ++ later) with none | ⟨sooner, last, shape⟩
      · simp_all
      · rw [shape, List.concat_eq_append, ← List.cons_append, ← List.append_assoc] at inside
        rw [shape, List.concat_eq_append, (List.append_singleton_inj.mp inside).2] at ended
        simp at ended
  | _ => cases same

theorem tokenText_echo (later : List Char) :
    TokenText readers "echo".toList (' ' :: later) (.word [.literal "echo" false]) := by
  have name : WordText readers true "echo".toList (' ' :: later) ("echo".toList.map .plain) :=
    wordText_plain (by decide) rfl true
  exact .word rfl rfl name

/-- A command with one spliced argument closes its expression where it ends. -/
theorem CommandText.closes (grammar : CommandText readers ("echo @(".toList ++ (body ++ [')']))
      [.word [.literal "echo" false], .word [.splice value]]) :
    Lexer.Closes '(' ')' .plain 0 body := by
  have first : TokenText readers "echo".toList (' ' :: '@' :: '(' :: (body ++ [')'])) _ :=
    tokenText_echo _
  obtain ⟨others, same, rest⟩ := @CommandText.uncons _ _ _ _ [] _ grammar .nil rfl first
  cases same
  have space : BlankText [' '] := .blank (by decide) .nil
  obtain ⟨text, later, token, others, whole, same, argument, ended⟩ :=
    rest.exists_token space rfl (by simp)
  cases same
  cases ended with
  | done blank => exact closes_of_tokenText whole.symm argument blank

theorem commandText_splice (read : readers.expression body = .ok value)
    (closes : Lexer.Closes '(' ')' .plain 0 body) :
    CommandText readers ("echo @(".toList ++ (body ++ [')']))
      [.word [.literal "echo" false], .word [.splice value]] := by
  have argument : WordText readers true ('@' :: '(' :: (body ++ [')']) ++ []) []
      ([.part (.splice value)] ++ []) :=
    .piece (.splice closes read) (.done rfl)
  have space : BlankText [' '] := .blank (by decide) .nil
  have last : CommandText readers ([' '] ++ (('@' :: '(' :: (body ++ [')']) ++ []) ++ []))
      [.word [.splice value]] :=
    .token space rfl (.word rfl rfl argument) (.done .nil)
  rw [List.append_nil, List.append_nil] at last
  have whole : CommandText readers
      ([] ++ ("echo".toList ++ ([' '] ++ '@' :: '(' :: (body ++ [')']))))
      [.word [.literal "echo" false], .word [.splice value]] :=
    .token .nil rfl (tokenText_echo _) last
  exact whole

end CommandScanner

def echoing (value : Expr) : Chain :=
  .pipeline [⟨[[.literal "echo" false], [.splice value]], []⟩] false

theorem parseChain_echoing_iff {source : String} {value : Expr}
    (accepted : parseExpression source = .ok value) :
    parseChain ("echo @(" ++ source ++ ")") = .ok (echoing value) ↔
      Lexer.Closes '(' ')' .plain 0 source.toList := by
  have text : ("echo @(" ++ source ++ ")").toList =
      "echo @(".toList ++ (source.toList ++ [')']) := by simp [String.toList_append]
  have inner : (BodyReaders.ofDepth ("echo @(" ++ source ++ ")").toList.length).expression
      source.toList = .ok value := by
    rw [BodyReaders.expression_ofDepth, String.ofList_toList, accepted]
    rw [text]
    simp only [List.length_append, List.length_singleton]
    omega
  rw [parseChain_eq_ok_iff (Nat.le_refl _), text]
  constructor
  · rintro ⟨tokens, grammar, read⟩
    obtain ⟨rfl, _⟩ := ChainReader.eq_words_of_chain read
    exact grammar.closes
  · intro closes
    rw [text] at inner
    refine ⟨_, CommandScanner.commandText_splice inner closes, ?_⟩
    exact ChainReader.chain_words (by decide) (List.forall_mem_singleton.mpr ⟨rfl, rfl⟩)

theorem Lexer.closes_iff {text : List Char} :
    Closes '(' ')' .plain 0 text ↔
      bodyLength '(' ')' .plain 0 (text ++ [')']) = some text.length := by
  constructor
  · exact fun closes => closes.ends []
  · intro found
    have brackets : AreBrackets '(' ')' := .inl ⟨rfl, rfl⟩
    have body := (bodyText_of_bodyLength brackets found).1
    rw [List.take_left] at body
    exact body.closed brackets

/--
An expression on one line, without comments, is spliced into a command just if the bracket
matcher closes it where it ends.  It does if no string in single quotes holds a single quote,
and only then if the expression has no command text in it.
-/
theorem expression_is_spliced_iff_closed_where_it_ends {source : String} {value : Expr}
    (accepted : parseExpression source = .ok value) (oneLine : '\n' ∉ source.toList)
    (noComment : '#' ∉ source.toList) :
    (parseChain ("echo @(" ++ source ++ ")") = .ok (echoing value) ↔
      Lexer.bodyLength '(' ')' .plain 0 (source.toList ++ [')']) = some source.toList.length) ∧
    ∃ tokens, lex source = .ok tokens ∧
      ((∀ token ∈ tokens, Lexer.hidesQuote source.toList token = false) →
        parseChain ("echo @(" ++ source ++ ")") = .ok (echoing value)) ∧
      ((∀ token ∈ tokens, Lexer.isCommandText token.kind = false) →
        parseChain ("echo @(" ++ source ++ ")") = .ok (echoing value) →
          ∀ token ∈ tokens, Lexer.hidesQuote source.toList token = false) := by
  rw [parseChain_echoing_iff accepted]
  exact ⟨Lexer.closes_iff, closes_of_shown accepted oneLine noComment⟩

/-- An expression with quotes and brackets of all kinds. -/
def quotedArguments : String :=
  "f(\"it's (\", ')\\\\', $(echo ')' \\) \")\"))[len('(')] + !(g '(').out"

theorem expression_is_spliced_iff_closed_where_it_ends_quotedArguments :
    ∃ value, parseExpression quotedArguments = .ok value ∧ '\n' ∉ quotedArguments.toList ∧
      '#' ∉ quotedArguments.toList ∧
      parseChain ("echo @(" ++ quotedArguments ++ ")") = .ok (echoing value) := by
  have oneLine : '\n' ∉ quotedArguments.toList := by decide +kernel
  have noComment : '#' ∉ quotedArguments.toList := by decide +kernel
  have readable : (parseExpression quotedArguments).isOk = true := by decide +kernel
  obtain ⟨value, accepted⟩ := Except.exists_of_isOk readable
  refine ⟨value, accepted, oneLine, noComment, ?_⟩
  exact (expression_is_spliced_iff_closed_where_it_ends accepted oneLine noComment).1.mpr
    (by decide +kernel)

/-- A string with an escaped quote is an expression, but no command takes it spliced. -/
theorem escaped_quote_is_not_spliced :
    (∃ value, parseExpression "'it\\'s'" = .ok value) ∧
      (parseChain "echo @('it\\'s')").isOk = false := by
  have readable : (parseExpression "'it\\'s'").isOk = true := by decide +kernel
  exact ⟨Except.exists_of_isOk readable, by decide +kernel⟩

end HybridShell
