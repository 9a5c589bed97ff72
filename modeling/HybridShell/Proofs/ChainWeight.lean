import HybridShell.Proofs.ChainNormalForm
import HybridShell.Proofs.CommandContinuation
import Mathlib.Algebra.GroupWithZero.Nat

/-!
# The weight of command text

The weight of a chain counts the parts of its words and of the targets of its
redirections, and its operators.  Reading a chain keeps the weight of the
tokens.  An escaped character after an accepted text adds a part to a word, so
the longer text never has the same chain.
-/

namespace HybridShell

/-- The number of parts of a redirection's target. -/
def Redirect.weight : Redirect → Nat
  | .file _ _ target => target.length
  | .errToOut | .outToErr => 0

/-- The number of parts of the words and redirections of a command. -/
def Command.weight (command : Command) : Nat :=
  (command.words.map List.length).sum + (command.redirects.map Redirect.weight).sum

/-- The number of parts of the words and redirections of a chain, and of its operators. -/
def Chain.weight : Chain → Nat
  | .pipeline commands _ => (commands.map Command.weight).sum
  | .and left right => left.weight + right.weight + 1
  | .or left right => left.weight + right.weight + 1
  | .not operand => operand.weight + 1

/-- The number of parts of a token; an operator between chains counts as one. -/
def CommandToken.weight : CommandToken → Nat
  | .word parts => parts.length
  | .redirect target => target.weight
  | .and | .or => 1
  | .pipe | .background => 0

def tokensWeight (tokens : List CommandToken) : Nat :=
  (tokens.map CommandToken.weight).sum

theorem tokensWeight_cons (token : CommandToken) (tokens : List CommandToken) :
    tokensWeight (token :: tokens) = token.weight + tokensWeight tokens := by
  rw [tokensWeight, List.map_cons, List.sum_cons, tokensWeight]

theorem tokensWeight_append (tokens others : List CommandToken) :
    tokensWeight (tokens ++ others) = tokensWeight tokens + tokensWeight others := by
  rw [tokensWeight, List.map_append, List.sum_append, tokensWeight, tokensWeight]

theorem CommandToken.weight_of_isBareWord {token : CommandToken} {text : String}
    (bare : token.isBareWord text = true) : token.weight = 1 := by
  unfold CommandToken.isBareWord at bare
  split at bare
  · rfl
  · cases bare

namespace ChainReader

variable {token : CommandToken}

theorem weight_of_isAnd (and : isAnd token = true) : token.weight = 1 := by
  unfold isAnd at and
  split at and
  · rfl
  · exact CommandToken.weight_of_isBareWord and

theorem weight_of_isOr (or : isOr token = true) : token.weight = 1 := by
  unfold isOr at or
  split at or
  · rfl
  · exact CommandToken.weight_of_isBareWord or

theorem weight_of_isNegation (negates : isNegation token = true) : token.weight = 1 := by
  rw [isNegation, Bool.or_eq_true] at negates
  rcases negates with bare | bare <;> exact CommandToken.weight_of_isBareWord bare

end ChainReader

section Weights

variable {tokens : List CommandToken} {command : Command} {commands : List Command}
  {chain : Chain}

theorem CommandOf.weight {hasWord : Bool} (one : CommandOf hasWord command tokens) :
    command.weight = tokensWeight tokens := by
  induction one with
  | nil => rfl
  | word _ _ ih | redirect _ ih =>
    rw [tokensWeight_cons, ← ih]
    simp only [Command.weight, List.map_cons, List.sum_cons, CommandToken.weight]
    omega

theorem PipelineOf.weight (single : PipelineOf commands tokens) :
    (commands.map Command.weight).sum = tokensWeight tokens := by
  induction single with
  | last _ one => simpa using one.weight
  | more _ one _ ih =>
    rw [List.map_cons, List.sum_cons, one.weight, ih, tokensWeight_append, tokensWeight_cons]
    exact congrArg _ (Nat.zero_add _).symm

theorem OperandOf.weight (operand : OperandOf chain tokens) :
    chain.weight = tokensWeight tokens := by
  induction operand with
  | pipeline _ single => exact single.weight
  | not negates _ ih =>
    rw [Chain.weight, ih, tokensWeight_cons, ChainReader.weight_of_isNegation negates, Nat.add_comm]

theorem JoinedOf.weight (joined : JoinedOf chain tokens) : chain.weight = tokensWeight tokens := by
  induction joined with
  | operand single => exact single.weight
  | and joins _ second ih =>
    rw [Chain.weight, ih, second.weight, tokensWeight_append, tokensWeight_cons,
      ChainReader.weight_of_isAnd joins]
    omega
  | or joins _ second ih =>
    rw [Chain.weight, ih, second.weight, tokensWeight_append, tokensWeight_cons,
      ChainReader.weight_of_isOr joins]
    omega

theorem ChainOf.weight (read : ChainOf chain tokens) : chain.weight = tokensWeight tokens := by
  cases read with
  | foreground joined => exact joined.weight
  | background single =>
    rw [Chain.weight, single.weight, tokensWeight_append]
    rfl

end Weights

namespace CommandScanner

/-! ### Joining atoms -/

variable {rest : List WordAtom}

theorem joinAtoms_plain_eq_cons (character : Char) (rest : List WordAtom) :
    ∃ text parts, joinAtoms (.plain character :: rest) = .literal text false :: parts := by
  unfold joinAtoms
  split <;> exact ⟨_, _, rfl⟩

theorem joinAtoms_quoted_eq_cons (character : Char) (rest : List WordAtom) :
    ∃ text parts, joinAtoms (.quoted character :: rest) = .literal text true :: parts := by
  unfold joinAtoms
  split <;> exact ⟨_, _, rfl⟩

theorem append_part_ne_cons {atom : Char → WordAtom}
    (apart : ∀ following tail, rest ≠ atom following :: tail)
    (notPart : ∀ following part, atom following ≠ .part part) (part : WordPart)
    (others : List WordAtom) (following : Char) (tail : List WordAtom) :
    rest ++ .part part :: others ≠ atom following :: tail := by
  intro same
  cases rest with
  | nil => exact notPart following part (List.cons.inj same).1.symm
  | cons next rest => exact apart following rest (by rw [(List.cons.inj same).1])

/-- A part between atoms keeps those before it and those after it from being joined. -/
theorem joinAtoms_append_part (atoms others : List WordAtom) (part : WordPart) :
    joinAtoms (atoms ++ .part part :: others) = joinAtoms atoms ++ part :: joinAtoms others := by
  fun_induction joinAtoms atoms
  case case1 => rfl
  case case2 rest ih => exact ih
  case case3 first rest ih => exact congrArg (first :: ·) ih
  case case4 character text parts following tail shape ih =>
    rw [shape] at ih ⊢
    rw [List.cons_append]
    conv => lhs; unfold joinAtoms
    rw [ih]
    rfl
  case case5 character rest notJoined ih =>
    have apart : ∀ following tail, rest ≠ .plain following :: tail := by
      rintro following tail rfl
      obtain ⟨text, parts, shape⟩ := joinAtoms_plain_eq_cons following tail
      exact notJoined text parts following tail shape rfl
    have still := append_part_ne_cons apart (by rintro _ _ ⟨⟩) part others
    conv => lhs; unfold joinAtoms
    simp_all
  case case6 character text parts following tail shape ih =>
    rw [shape] at ih ⊢
    rw [List.cons_append]
    conv => lhs; unfold joinAtoms
    rw [ih]
    rfl
  case case7 character rest notJoined ih =>
    have apart : ∀ following tail, rest ≠ .quoted following :: tail := by
      rintro following tail rfl
      obtain ⟨text, parts, shape⟩ := joinAtoms_quoted_eq_cons following tail
      exact notJoined text parts following tail shape rfl
    have still := append_part_ne_cons apart (by rintro _ _ ⟨⟩) part others
    conv => lhs; unfold joinAtoms
    simp_all

/-! ### An escaped character after a text -/

theorem exists_eq_append_escape {text : List Char} (escapes : endsInEscape text = true) :
    ∃ sooner, text = sooner ++ ['\\'] := by
  by_cases last : text.getLast? = some '\\'
  · exact List.getLast?_eq_some_iff.mp last
  · have complete := endsInEscape_append last []
    rw [List.append_nil, escapes] at complete
    cases complete

section Growth

variable {readers : BodyReaders}

variable {text later spelled rest : List Char} {atoms others : List WordAtom} {character : Char}
  {atStart : Bool} {tokens : List CommandToken}

theorem WordPiece.unique {after : List Char} (first : WordPiece readers atStart text later atoms)
    (second : WordPiece readers atStart spelled after others)
    (whole : text ++ later = spelled ++ after) :
    text = spelled ∧ later = after ∧ atoms = others := by
  obtain ⟨character, rest, rfl, _, read⟩ := first.wordStep
  obtain ⟨other, tail, rfl, _, readToo⟩ := second.wordStep
  obtain ⟨rfl, sameRest⟩ := List.cons.inj whole
  have sameRest : rest ++ later = tail ++ after := sameRest
  have same := readToo 1
  rw [← sameRest, read 1] at same
  injection same with same
  injection same with sameAtoms sameLength
  obtain ⟨rfl, rfl⟩ := List.append_inj sameRest sameLength
  exact ⟨rfl, rfl, sameAtoms⟩

theorem WordText.uncons {after : List Char} {all : List WordAtom}
    (word : WordText readers atStart spelled later all)
    (piece : WordPiece readers atStart text after atoms)
    (whole : spelled ++ later = text ++ after) :
    ∃ rest others, after = rest ++ later ∧ all = atoms ++ others ∧
      WordText readers (atStart && atoms.isEmpty) rest later others := by
  cases word with
  | done ends =>
    obtain ⟨character, rest, rfl, inside, _⟩ := piece.wordStep
    rw [List.nil_append] at whole
    rw [whole] at ends
    exact absurd (inside.symm.trans ends) Bool.false_ne_true
  | @piece _ _ others _ _ otherAtoms first rest =>
    rw [List.append_assoc] at whole
    obtain ⟨_, rfl, rfl⟩ := first.unique piece whole
    exact ⟨others, otherAtoms, rfl, rfl, rest⟩

theorem WordText.atoms_eq_nil (word : WordText readers atStart [] [] atoms) : atoms = [] := by
  have read := word.wordAtoms 1
  rw [List.append_nil, wordAtoms_nil] at read
  cases read
  rfl

theorem WordText.grows (word : WordText readers atStart text [] atoms)
    (escapes : HybridShell.endsInEscape text = true)
    (longer : WordText readers atStart spelled later others)
    (whole : spelled ++ later = text ++ character :: rest) :
    ∃ part more, others = atoms ++ .part part :: more := by
  generalize nothing : [] = after at word
  induction word generalizing spelled others with
  | done => cases escapes
  | @piece atStart text tail after atoms otherAtoms piece word ih =>
    subst nothing
    rw [List.append_assoc] at whole
    rcases piece.isSelfContained with contained | ⟨rfl, none⟩
    · -- What follows the piece differs only after the last backslash.
      rw [contained.escapes] at escapes
      obtain ⟨sooner, rfl⟩ := exists_eq_append_escape escapes
      rw [List.append_nil] at piece
      have kept := piece.exchange (.cons (by decide) []) (.cons (by decide) (character :: rest))
        rfl contained.complete
      rw [List.append_assoc] at whole
      obtain ⟨remaining, more, same, rfl, tail⟩ := longer.uncons kept whole
      obtain ⟨part, more, rfl⟩ := ih escapes tail (by rw [← same, List.append_assoc]; rfl) rfl
      exact ⟨part, more, by rw [List.append_assoc]⟩
    · -- The backslash at the end stood for nothing, and now escapes the character.
      obtain ⟨rfl, _⟩ := List.append_eq_nil_iff.mp none
      obtain ⟨_, _, rfl⟩ := piece.unique .dangling rfl
      rw [word.atoms_eq_nil]
      obtain ⟨_, more, _, rfl, _⟩ := longer.uncons .escaped whole
      exact ⟨_, more, rfl⟩

theorem Severs.escape (later : List Char) : Severs ('\\' :: later) :=
  .cons (by decide) later

theorem redirectOperator?_append_escape (escapes : HybridShell.endsInEscape text = true)
    (later : List Char) : redirectOperator? (text ++ later) = redirectOperator? text := by
  obtain ⟨sooner, rfl⟩ := exists_eq_append_escape escapes
  rw [List.append_assoc, redirectOperator?_append_severs (.escape []), List.singleton_append,
    redirectOperator?_append_severs (.escape later)]

theorem duplicateLength?_append_escape (escapes : HybridShell.endsInEscape text = true)
    (operator : RedirectOperator) (later : List Char) :
    duplicateLength? operator (text ++ later) = duplicateLength? operator text := by
  obtain ⟨sooner, rfl⟩ := exists_eq_append_escape escapes
  rw [List.append_assoc]
  exact duplicateLength?_swap (.escape later) (.escape []) rfl operator sooner

theorem length_lt_of_word (word : WordText readers true text [] atoms)
    (escapes : HybridShell.endsInEscape text = true)
    (longer : WordText readers true spelled later others)
    (whole : spelled ++ later = text ++ character :: rest) :
    (joinAtoms atoms).length < (joinAtoms others).length := by
  obtain ⟨part, more, rfl⟩ := word.grows escapes longer whole
  rw [joinAtoms_append_part, List.length_append, List.length_cons]
  omega

theorem TokenText.weight_lt_file {operator : RedirectOperator} {arrow blanks name : List Char}
    {other : CommandToken} (operates : redirectOperator? (spelled ++ later) = some operator)
    (length : operator.length = arrow.length)
    (notNamed : duplicateLength? operator (blanks ++ name) = none) (blank : BlankText blanks)
    (stops : blankLength name = 0) (filled : name ≠ [])
    (target : WordText readers true name [] atoms) (escapes : HybridShell.endsInEscape name = true)
    (notNewline : character ≠ '\n') (longer : TokenText readers spelled later other)
    (whole : spelled ++ later = arrow ++ (blanks ++ (name ++ character :: rest))) :
    (joinAtoms atoms).length < other.weight := by
  cases longer with
  | or | pipe | and => cases operates
  | background single notRedirect => 
    rw [List.singleton_append, notRedirect] at operates
    cases operates
  | word notRedirect inside parts => 
    rw [notRedirect] at operates
    cases operates
  | duplicate operatesToo size names =>
    rw [List.append_assoc, operatesToo] at operates
    cases operates
    rw [List.append_assoc] at whole
    obtain ⟨_, same⟩ := List.append_inj whole (size.symm.trans length)
    have escapesToo : HybridShell.endsInEscape (blanks ++ name) = true := by
      rw [blank.isSelfContained.escapes, escapes]
    rw [same, ← List.append_assoc, duplicateLength?_append_escape escapesToo, notNamed] at names
    cases names
  | @file spelled spaces otherName later found others operatesToo size _ spacesBlank otherStops _
      otherTarget =>
      rw [List.append_assoc, List.append_assoc, operatesToo] at operates
      cases operates
      rw [List.append_assoc, List.append_assoc] at whole
      obtain ⟨_, same⟩ := List.append_inj whole (size.symm.trans length)
      have spacesEqual : spaces.length = blanks.length := by
        have lengths := congrArg blankLength same
        have starts : blankLength (name ++ character :: rest) = 0 :=
          (blankLength_append filled fun _ => by simpa using notNewline).mpr stops
        rw [spacesBlank.blankLength, otherStops, blank.blankLength, starts] at lengths
        exact lengths
      obtain ⟨_, same⟩ := List.append_inj same spacesEqual
      exact length_lt_of_word target escapes otherTarget same

theorem TokenText.weight_lt {token other : CommandToken} (grammar : TokenText readers text [] token)
    (escapes : HybridShell.endsInEscape text = true) (notNewline : character ≠ '\n')
    (longer : TokenText readers spelled later other)
    (whole : spelled ++ later = text ++ character :: rest) : token.weight < other.weight := by
  have operator := redirectOperator?_append_escape escapes (character :: rest)
  rw [← whole] at operator
  cases grammar with
  | or | pipe | and | background => cases escapes
  | duplicate operates length names =>
    have spelled := isSelfContained_operator operates length
    rw [(spelled.append (isSelfContained_target names)).complete] at escapes
    cases escapes
  | file operates length notNamed blank stops inside target =>
    rw [(isSelfContained_operator operates length).escapes,
      blank.isSelfContained.escapes] at escapes
    have filled := target.ne_nil inside
    rw [List.append_nil] at operates notNamed stops
    simp only [List.append_assoc] at whole
    exact weight_lt_file (operator.trans operates) length notNamed blank stops filled target
      escapes notNewline longer whole
  | word notRedirect inside parts =>
    rw [List.append_nil] at notRedirect inside
    rw [notRedirect] at operator
    have boundary : atBoundary (spelled ++ later) = false := by
      rw [whole]
      cases text with
      | nil => cases escapes
      | cons head tail => exact inside
    have read := longer.tokenAt 1
    rw [tokenAt_word operator boundary, Except.map_eq_ok_iff] at read
    obtain ⟨⟨name, length⟩, read, same⟩ := read
    obtain ⟨longerText, after, others, split, _, longerParts, rfl⟩ := word_eq_ok_iff.mp read
    cases same
    exact length_lt_of_word parts escapes longerParts (split.symm.trans whole)

theorem CommandText.tokens_eq_nil (grammar : CommandText readers [] tokens) : tokens = [] := by
  have read := tokens_eq_ok_iff.mpr grammar
  cases read
  rfl

theorem CommandText.weight_lt {others : List CommandToken}
    (grammar : CommandText readers text tokens) (escapes : HybridShell.endsInEscape text = true)
    (notNewline : character ≠ '\n')
    (longer : CommandText readers (text ++ character :: rest) others) :
    tokensWeight tokens < tokensWeight others := by
  induction grammar generalizing others with
  | done blank => grind [blank.isSelfContained.complete]
  | @token blanks text later token tokens blank stops first grammar ih =>
    rw [blank.isSelfContained.escapes] at escapes
    rcases first.isSelfContained with contained | ⟨dangling, rfl⟩
    · rw [contained.escapes] at escapes
      obtain ⟨sooner, rfl⟩ := exists_eq_append_escape escapes
      rw [List.append_assoc, List.append_assoc, List.append_assoc] at longer
      obtain ⟨others, rfl, remaining⟩ := longer.uncons_exchange (.escape [])
        (.escape (character :: rest)) rfl blank stops first contained.complete
      rw [← List.singleton_append, ← List.append_assoc] at remaining
      exact Nat.add_lt_add_left (ih escapes remaining) _
    · rw [List.append_nil] at stops
      rw [grammar.tokens_eq_nil]
      rw [List.append_nil, List.append_assoc] at longer
      have starts : blankLength (text ++ character :: rest) = 0 :=
        (blankLength_append first.ne_nil fun _ => by simpa using notNewline).mpr stops
      obtain ⟨spelled, after, other, others, whole, rfl, second, _⟩ :=
        longer.exists_token blank starts (by simp)
      have here := first.weight_lt dangling.endsInEscape notNewline second whole.symm
      rw [tokensWeight_cons, tokensWeight_cons]
      change token.weight + 0 < _
      omega

theorem CommandText.complete_of_same_chain {others : List CommandToken} {chain : Chain}
    (notNewline : character ≠ '\n') (grammar : CommandText readers text tokens)
    (read : ChainReader.chain tokens = .ok chain)
    (longer : CommandText readers (text ++ character :: rest) others)
    (readToo : ChainReader.chain others = .ok chain) : HybridShell.endsInEscape text = false := by
  rw [Bool.eq_false_iff]
  intro escapes
  have heavier := grammar.weight_lt escapes notNewline longer
  rw [← (ChainReader.chainOf_of_chain read).weight,
    ← (ChainReader.chainOf_of_chain readToo).weight] at heavier
  exact Nat.lt_irrefl _ heavier

end Growth

end CommandScanner

end HybridShell
