import HybridShell.Proofs.CommandGrammar

/-!
# Self-contained command text

A text is self-contained when it opens no quote or bracket that it does not
close, and does not end in a backslash that would escape what follows.  All
that the command scanner accepts is self-contained, except for text with such
a backslash at its end.  So the bracket matcher closes a command text exactly
at its end.
-/

namespace HybridShell

/-- Whether a text ends in a backslash that no backslash before it escapes. -/
def endsInEscape : List Char → Bool
  | [] => false
  | ['\\'] => true
  | '\\' :: _ :: rest => endsInEscape rest
  | _ :: rest => endsInEscape rest

theorem endsInEscape_escape (character : Char) (rest : List Char) :
    endsInEscape ('\\' :: character :: rest) = endsInEscape rest := by
  rw [endsInEscape]

theorem endsInEscape_cons {character : Char} (notEscape : character ≠ '\\') (rest : List Char) :
    endsInEscape (character :: rest) = endsInEscape rest := by
  rw [endsInEscape]
  all_goals simp [notEscape]

variable {text : List Char}

theorem endsInEscape_append (last : text.getLast? ≠ some '\\') (later : List Char) :
    endsInEscape (text ++ later) = endsInEscape later := by
  fun_induction endsInEscape text with
  | case1 => rfl
  | case2 => exact absurd rfl last
  | case3 character rest ih =>
    refine ih fun sooner => last ?_
    simp [List.getLast?_cons, sooner]
  | case4 character rest lone pair ih =>
    rw [List.cons_append, endsInEscape_cons (Lexer.ne_escape lone pair)]
    grind

/-- Text that closes what it opens and escapes nothing after it. -/
structure IsSelfContained (text : List Char) : Prop where
  passes : Lexer.Passes .plain text .plain
  escapes : ∀ later : List Char, endsInEscape (text ++ later) = endsInEscape later

namespace IsSelfContained

theorem nil : IsSelfContained [] :=
  ⟨.nil .plain, fun _ => rfl⟩

variable {text : List Char}

theorem append {others : List Char} (first : IsSelfContained text)
    (second : IsSelfContained others) : IsSelfContained (text ++ others) where
  passes := first.passes.append second.passes
  escapes later := by rw [List.append_assoc, first.escapes, second.escapes]

theorem complete (contained : IsSelfContained text) : endsInEscape text = false := by
  have alone := contained.escapes []
  rwa [List.append_nil] at alone

theorem of_last (passes : Lexer.Passes .plain text .plain) (last : text.getLast? ≠ some '\\') :
    IsSelfContained text :=
  ⟨passes, endsInEscape_append last⟩

theorem ordinary (ordinary : text.all Lexer.isOrdinary = true) : IsSelfContained text := by
  refine .of_last (Lexer.passes_ordinary ordinary) fun last => ?_
  exact absurd (List.all_eq_true.mp ordinary _ (List.mem_of_getLast? last)) (by decide)

theorem escape (character : Char) : IsSelfContained ['\\', character] :=
  ⟨Lexer.passes_escape (by decide) character, fun later => endsInEscape_escape character later⟩

end IsSelfContained

/-- Self-contained text with a backslash after it, which would escape what follows. -/
def IsDangling (text : List Char) : Prop :=
  ∃ front, IsSelfContained front ∧ text = front ++ ['\\']

theorem IsSelfContained.append_isDangling {others : List Char} (first : IsSelfContained text)
    (dangling : IsDangling others) : IsDangling (text ++ others) := by
  obtain ⟨front, contained, rfl⟩ := dangling
  exact ⟨text ++ front, first.append contained, (List.append_assoc _ _ _).symm⟩

theorem IsDangling.endsInEscape (dangling : IsDangling text) : endsInEscape text = true := by
  obtain ⟨front, contained, rfl⟩ := dangling
  rw [contained.escapes]
  rfl

namespace CommandScanner

open Lexer (isOrdinary isNameCharacter)

variable {text later : List Char} {readers : BodyReaders} {character : Char} {atoms : List WordAtom}

theorem isOrdinary_of_test {test : Char → Bool}
    (excludes : ['\'', '"', '\\', '(', ')'].any test = false) (accepted : test character = true) :
    isOrdinary character = true := by
  rw [isOrdinary, Bool.not_eq_true', Bool.eq_false_iff]
  grind

theorem isOrdinary_of_named (named : isNameCharacter character = true) :
    isOrdinary character = true :=
  isOrdinary_of_test (by decide) named

theorem isOrdinary_of_isBlank (blank : Text.isBlank character = true) :
    isOrdinary character = true :=
  isOrdinary_of_test (by decide) blank

theorem all_isOrdinary_of_redirect (spelled : text.all isRedirectCharacter = true) :
    text.all isOrdinary = true := by
  rw [List.all_eq_true] at spelled ⊢
  exact fun character member => isOrdinary_of_test (by decide) (spelled character member)

variable {spelled inner : List Char} {atStart : Bool} {operator : RedirectOperator}
  {tokens : List CommandToken}

theorem all_isOrdinary_of_variable {name : List Char}
    (named : variableName? (spelled ++ later) = some (name, spelled.length)) :
    spelled.all isOrdinary = true := by
  rw [List.all_eq_true]
  intro character member
  rcases variableName?_characters named member with named | rfl | rfl
  · exact isOrdinary_of_named named
  · decide
  · decide

theorem QuotedText.passes (quoted : QuotedText inner atoms) :
    Lexer.Passes .double inner .double := by
  induction quoted with
  | done => exact .nil .double
  | continuation others ih => exact (Lexer.passes_escape (by decide) _).append ih
  | escaped escapable others ih => exact (Lexer.passes_escape (by decide) _).append ih
  | @backslash character inner atoms notNewline kept others ih =>
    -- The scanner takes the backslash alone and the matcher takes both characters.
    intro depth later
    simp only [List.contains_cons, List.contains_nil, Bool.or_false, Bool.or_eq_false_iff,
      beq_eq_false_iff_ne] at kept
    have both := ih depth later
    rw [List.cons_append, Lexer.bodyLength_double kept.2.1, if_neg kept.1] at both
    have pair := congrArg (Option.map (· + 1)) both
    rw [Option.map_map, Option.map_map] at pair
    exact pair
  | environment named others ih =>
    have spelled := @Lexer.passes_ordinary .double _ (all_isOrdinary_of_variable named)
    exact (Lexer.passes_double (by decide) (by decide)).append (spelled.append ih)
  | dollar unnamed others ih =>
    exact (Lexer.passes_double (by decide) (by decide)).append ih
  | plain notQuote notEscape notDollar others ih =>
    exact (Lexer.passes_double notEscape notQuote).append ih

theorem BlankText.isSelfContained {blanks : List Char} (blank : BlankText blanks) :
    IsSelfContained blanks := by
  induction blank with
  | nil => exact .nil
  | continuation others ih => exact (IsSelfContained.escape '\n').append ih
  | @blank character rest here others ih =>
    have ordinary : [character].all isOrdinary = true := by
      simpa using isOrdinary_of_isBlank here
    exact (IsSelfContained.ordinary ordinary).append ih

/-- An opener of ordinary characters and a bracketed body close what they open. -/
theorem isSelfContained_bracketed (opener : List Char) (ordinary : opener.all isOrdinary = true)
    (closes : Lexer.Closes '(' ')' .plain 0 inner) :
    IsSelfContained (opener ++ '(' :: (inner ++ [')'])) := by
  refine .of_last ((Lexer.passes_ordinary ordinary).append (Lexer.passes_bracketed closes)) ?_
  simp [List.getLast?_cons, List.getLast?_append]

theorem isOrdinary_of_plain (inside : isBoundary character = false)
    (ordinary : ['\'', '"', '\\', '$', '@', '~'].contains character = false) :
    isOrdinary character = true := by
  simp_all [isBoundary, isOrdinary]

theorem WordPiece.isSelfContained (piece : WordPiece readers atStart text later atoms) :
    IsSelfContained text ∨ (text = ['\\'] ∧ later = []) := by
  cases piece with
  | singleQuoted inside =>
    exact .inl (.of_last (Lexer.passes_singleQuoted inside) (by simp [List.getLast?_cons]))
  | doubleQuoted quoted =>
    exact .inl (.of_last (Lexer.passes_doubleQuoted quoted.passes) (by simp [List.getLast?_cons]))
  | dangling => exact .inr ⟨rfl, rfl⟩
  | escaped => exact .inl (.escape _)
  | captured closes read => exact .inl (isSelfContained_bracketed ['$'] rfl closes)
  | splitCaptured closes read => exact .inl (isSelfContained_bracketed ['@', '$'] rfl closes)
  | splice closes read => exact .inl (isSelfContained_bracketed ['@'] rfl closes)
  | environment named =>
    have ordinary := all_isOrdinary_of_variable named
    exact .inl (.ordinary (by rw [List.all_cons, ordinary]; decide))
  | dollar | tilde | plainTilde | plainAt => exact .inl (.ordinary (by decide))
  | plain inside ordinary =>
    exact .inl (.ordinary (by rw [List.all_cons, isOrdinary_of_plain inside ordinary]; rfl))

theorem WordText.isSelfContained (word : WordText readers atStart text later atoms) :
    IsSelfContained text ∨ (IsDangling text ∧ later = []) := by
  induction word with
  | done ends => exact .inl .nil
  | @piece atStart text others later atoms otherAtoms first rest ih =>
    rcases first.isSelfContained with here | ⟨rfl, none⟩
    · rcases ih with others | ⟨dangling, none⟩
      · exact .inl (here.append others)
      · exact .inr ⟨here.append_isDangling dangling, none⟩
    · obtain ⟨rfl, rfl⟩ := List.append_eq_nil_iff.mp none
      exact .inr ⟨⟨[], .nil, rfl⟩, rfl⟩

theorem isSelfContained_operator (operates : redirectOperator? (spelled ++ later) = some operator)
    (length : operator.length = spelled.length) : IsSelfContained spelled :=
  .ordinary (all_isOrdinary_of_redirect (operator_spelling operates length).2)

theorem isSelfContained_target {target : List Char}
    (names : duplicateLength? operator (target ++ later) = some target.length) :
    IsSelfContained target :=
  .ordinary (all_isOrdinary_of_redirect (target_spelling names).1)

theorem TokenText.isSelfContained {token : CommandToken}
    (grammar : TokenText readers text later token) :
    IsSelfContained text ∨ (IsDangling text ∧ later = []) := by
  cases grammar with
  | or | pipe | and | background => exact .inl (.ordinary (by decide))
  | duplicate operates length names =>
    have spelled := isSelfContained_operator operates length
    exact .inl (spelled.append (isSelfContained_target names))
  | file operates length notNamed blank stops inside target =>
    have spelled := isSelfContained_operator operates length
    have before := spelled.append blank.isSelfContained
    rw [← List.append_assoc]
    rcases target.isSelfContained with name | ⟨dangling, none⟩
    · exact .inl (before.append name)
    · exact .inr ⟨before.append_isDangling dangling, none⟩
  | word notRedirect inside parts => exact parts.isSelfContained

theorem CommandText.isSelfContained_or_isDangling (grammar : CommandText readers text tokens) :
    IsSelfContained text ∨ IsDangling text := by
  induction grammar with
  | done blank => exact .inl blank.isSelfContained
  | @token blanks text later token tokens blank stops first rest ih =>
    rcases first.isSelfContained with here | ⟨dangling, rfl⟩
    · have before := blank.isSelfContained.append here
      rw [← List.append_assoc]
      rcases ih with others | dangling
      · exact .inl (before.append others)
      · exact .inr (before.append_isDangling dangling)
    · rw [List.append_nil]
      exact .inr (blank.isSelfContained.append_isDangling dangling)

/-- What the scanner accepts is self-contained, unless a backslash at its end escapes nothing. -/
theorem CommandText.isSelfContained (grammar : CommandText readers text tokens)
    (complete : endsInEscape text = false) : IsSelfContained text := by
  rcases grammar.isSelfContained_or_isDangling with contained | dangling
  · exact contained
  · simp_all [dangling.endsInEscape]

end CommandScanner

end HybridShell
