import HybridShell.Alias.Basic
import HybridShell.Proofs.CapturedText
import HybridShell.Proofs.ChainNormalForm

/-!
# Templates are plain words

A text becomes a template when the division of command text finds words in it
and nothing else.  Their parts stand in the template as they were written, and
the text is the command of these words unless one of them is an operator.
-/

namespace HybridShell

/-- How the parts that a template may have are written. -/
inductive WordPart.IsWritten : WordPart → String → Prop
  | literal (text : String) (quoted : Bool) : IsWritten (.literal text quoted) text
  | env (name : String) : IsWritten (.env name) ("$" ++ name)
  | tilde : IsWritten .tilde "~"

def Word.IsWritten (word : Word) (written : String) : Prop :=
  ∃ texts, List.Forall₂ WordPart.IsWritten word texts ∧ String.join texts = written

namespace PlainWords

theorem isWritten_of_partText {part : WordPart} {text : String} (ok : partText part = .ok text) :
    part.IsWritten text := by
  cases part with
  | literal text quoted =>
    cases ok
    exact .literal text quoted
  | env name =>
    cases ok
    exact .env name
  | tilde =>
    cases ok
    exact .tilde
  | _ => cases ok

theorem exists_word_of_tokenText {token : CommandToken} {text : String}
    (ok : tokenText token = .ok text) : ∃ word : Word, token = .word word ∧ word.IsWritten text := by
  cases token with
  | word parts =>
    obtain ⟨texts, found, joined⟩ := Except.map_eq_ok_iff.mp ok
    exact ⟨parts, rfl, texts,
      (Except.forall₂_of_mapM found).imp fun _ _ => isWritten_of_partText, joined⟩
  | _ => cases ok

theorem exists_words_of_tokens {tokens : List CommandToken} {texts : List String}
    (read : List.Forall₂ (fun token text => tokenText token = .ok text) tokens texts) :
    ∃ words, tokens = words.map .word ∧ List.Forall₂ Word.IsWritten words texts := by
  induction read with
  | nil => exact ⟨[], rfl, .nil⟩
  | cons first _ ih =>
    obtain ⟨word, rfl, written⟩ := exists_word_of_tokenText first
    obtain ⟨words, rfl, others⟩ := ih
    exact ⟨word :: words, rfl, .cons written others⟩

end PlainWords

theorem Alias.exists_words_of_template {text : String} {arguments : List String}
    (template : Alias.ofText text = .ok (.template arguments)) :
    isSource text = false ∧ splitWords text = .ok arguments ∧ arguments ≠ [] := by
  grind [Alias.ofText]

/-- No negation stands before the words and no operator between them. -/
structure Word.AreCommand (first : Word) (others : List Word) : Prop where
  notNegation : first ∉ [[.literal "not" false], [.literal "!" false]]
  notOperator : ∀ word ∈ others, word ∉ [[.literal "and" false], [.literal "or" false]]

def Word.IsLiteral (word : Word) : Prop :=
  ∀ part ∈ word, ∃ text quoted, part = .literal text quoted

theorem ChainReader.isNegation_word {word : Word} :
    isNegation (.word word) = false ↔ word ∉ [[.literal "not" false], [.literal "!" false]] := by
  rw [isNegation, Bool.or_eq_false_iff, Bool.eq_false_iff, Bool.eq_false_iff, Ne, Ne,
    CommandToken.isBareWord_eq_true_iff, CommandToken.isBareWord_eq_true_iff]
  simp

theorem ChainReader.chain_words_iff {first : Word} {others words : List Word} :
    chain (.word first :: others.map .word) = .ok (.pipeline [⟨words, []⟩] false) ↔
      words = first :: others ∧ Word.AreCommand first others := by
  constructor
  · intro read
    obtain ⟨same, plain, each⟩ := eq_words_of_chain read
    have injective : Function.Injective CommandToken.word := fun _ _ => CommandToken.word.inj
    have whole : words = first :: others := List.map_injective_iff.mpr injective same.symm
    subst whole
    exact ⟨rfl, isNegation_word.mp plain, each⟩
  · rintro ⟨rfl, command⟩
    refine chain_words (isNegation_word.mpr command.notNegation) fun word member => ?_
    have plain := command.notOperator word member
    simp only [List.mem_cons, List.not_mem_nil, or_false, not_or] at plain
    rw [Bool.eq_false_iff, Bool.eq_false_iff, Ne, Ne, CommandToken.isBareWord_eq_true_iff,
      CommandToken.isBareWord_eq_true_iff]
    exact plain

/--
A template comes from a text of words alone, without operator signs,
redirections and substitutions of output or values, and each argument is the
parts of its word as they were written.  The text is one command of literal
words with these arguments exactly when every part is a literal and no word is
a negation in front or an operator after it.
-/
theorem template_is_a_command_of_literals_iff {text : String} {arguments : List String}
    (template : Alias.ofText text = .ok (.template arguments)) :
    ∃ first others,
      CommandScanner.tokens (BodyReaders.forText text.toList) text.toList =
          .ok (.word first :: others.map .word) ∧
        List.Forall₂ Word.IsWritten (first :: others) arguments ∧
        (parseChain text = .ok (.pipeline [⟨first :: others, []⟩] false) ↔
          Word.AreCommand first others) ∧
        ((∃ words : List Word, parseChain text = .ok (.pipeline [⟨words, []⟩] false) ∧
            (∀ word ∈ words, word.IsLiteral) ∧ List.Forall₂ Word.IsWritten words arguments) ↔
          (∀ word ∈ first :: others, word.IsLiteral) ∧ Word.AreCommand first others) := by
  obtain ⟨_, divided, filled⟩ := Alias.exists_words_of_template template
  obtain ⟨tokens, scanned, read⟩ := Except.bind_eq_ok_iff.mp divided
  obtain ⟨words, rfl, written⟩ :=
    PlainWords.exists_words_of_tokens (Except.forall₂_of_mapM read)
  cases words with
  | nil =>
    cases written
    exact absurd rfl filled
  | cons first others =>
    have reads (words : List Word) : parseChain text = .ok (.pipeline [⟨words, []⟩] false) ↔
        words = first :: others ∧ Word.AreCommand first others := by
      rw [← ChainReader.chain_words_iff, parseChain_eq_ok_iff (Nat.le_succ _)]
      refine ⟨?_, fun read => ⟨_, CommandScanner.tokens_eq_ok_iff.mp scanned, read⟩⟩
      rintro ⟨tokens, grammar, read⟩
      cases scanned.symm.trans (CommandScanner.tokens_eq_ok_iff.mpr grammar)
      exact read
    refine ⟨first, others, scanned, written, ?_, ?_⟩
    · simp only [reads, true_and]
    · constructor
      · rintro ⟨words, ok, literal, _⟩
        obtain ⟨rfl, command⟩ := (reads words).mp ok
        exact ⟨literal, command⟩
      · rintro ⟨literal, command⟩
        exact ⟨_, (reads _).mpr ⟨rfl, command⟩, literal, written⟩

/-- The words of a search, with a blank in quotes and a quoted operator. -/
def searchWords : List Word :=
  [[.literal "grep" false], [.literal "a b" true], [.literal "and" true]]

theorem template_is_a_command_of_literals_iff_search :
    Alias.ofText "grep 'a b' 'and'" = .ok (.template ["grep", "a b", "and"]) ∧
      ∃ words : List Word,
        parseChain "grep 'a b' 'and'" = .ok (.pipeline [⟨words, []⟩] false) ∧
          (∀ word ∈ words, word.IsLiteral) ∧
          List.Forall₂ Word.IsWritten words ["grep", "a b", "and"] := by
  have template : Alias.ofText "grep 'a b' 'and'" = .ok (.template ["grep", "a b", "and"]) := by
    with_unfolding_all rfl
  have known : CommandScanner.tokens (.forText "grep 'a b' 'and'".toList)
      "grep 'a b' 'and'".toList = .ok (searchWords.map .word) := by
    with_unfolding_all rfl
  obtain ⟨first, others, scanned, _, _, reads⟩ := template_is_a_command_of_literals_iff template
  have injective : Function.Injective CommandToken.word := fun _ _ => CommandToken.word.inj
  have same : first :: others = searchWords :=
    List.map_injective_iff.mpr injective (Except.ok.inj (scanned.symm.trans known))
  cases same
  refine ⟨template, reads.mpr ⟨?_, by simp, by simp⟩⟩
  simp [Word.IsLiteral]

/-- The words of `not false` are a template, and a negation in the chain. -/
theorem negation_is_kept_as_a_word :
    Alias.ofText "not false" = .ok (.template ["not", "false"]) ∧
      parseChain "not false" = .ok (.not (.pipeline [⟨[[.literal "false" false]], []⟩] false)) ∧
      Alias.ofText "echo $HOME" = .ok (.template ["echo", "$HOME"]) ∧
      parseChain "echo $HOME" =
        .ok (.pipeline [⟨[[.literal "echo" false], [.env "HOME"]], []⟩] false) := by
  with_unfolding_all exact ⟨rfl, rfl, rfl, rfl⟩

end HybridShell
