import HybridShell.Proofs.SelfContainedText
import Mathlib.Data.List.Basic
import Mathlib.Data.List.Find
import Mathlib.Data.List.Induction

/-!
# What command text continues with

A blank, a semicolon and a backslash sever the text before them from what
follows: no variable, operator or bracket goes on across them.  So a piece of
command text is read the same before all texts that start with such a
character.  It follows what blanks, a semicolon or an escaped character after
an accepted text do to its tokens.
-/

namespace HybridShell

theorem Text.isAlphanum_of_isBlank {character : Char}
    (blank : Text.isBlank character = true) : character.isAlphanum = false := by
  rw [Bool.eq_false_iff]
  intro letter
  simp only [Text.isBlank, Bool.or_eq_true, Bool.and_eq_true, decide_eq_true_eq,
    beq_iff_eq] at blank
  change (decide (65 ≤ character.val ∧ character.val ≤ 90) ||
    (97 ≤ character.val && character.val ≤ 122) ||
    (48 ≤ character.val && character.val ≤ 57)) = true at letter
  simp only [Bool.or_eq_true, Bool.and_eq_true, decide_eq_true_eq,
    UInt32.le_iff_toNat_le] at letter
  change ((65 ≤ character.toNat ∧ character.toNat ≤ 90) ∨
    (97 ≤ character.toNat ∧ character.toNat ≤ 122)) ∨
    (48 ≤ character.toNat ∧ character.toNat ≤ 57) at letter
  omega

namespace CommandScanner

/-- Characters over which no piece of a word or operator extends, unless quoted or escaped. -/
def isSevering (character : Char) : Bool :=
  Text.isBlank character || character == ';' || character == '\\'

def Severs (text : List Char) : Prop :=
  ∀ character, text.head? = some character → isSevering character = true

theorem Severs.nil : Severs [] := by
  intro character starts
  cases starts

variable {character : Char} {later text : List Char}

theorem Severs.cons (severing : isSevering character = true) (rest : List Char) :
    Severs (character :: rest) := by
  intro other starts
  cases starts
  exact severing

theorem Severs.head?_ne (severs : Severs text) (notSevering : isSevering character = false) :
    text.head? ≠ some character := by
  intro starts
  exact Bool.false_ne_true (notSevering.symm.trans (severs character starts))

theorem isAlphanum_of_severing (severing : isSevering character = true) :
    character.isAlphanum = false := by
  rw [isSevering, Bool.or_eq_true, Bool.or_eq_true, beq_iff_eq, beq_iff_eq] at severing
  rcases severing with (blank | rfl) | rfl
  · exact Text.isAlphanum_of_isBlank blank
  · decide
  · decide

theorem isNameCharacter_of_severing (severing : isSevering character = true) :
    Lexer.isNameCharacter character = false := by
  rw [Lexer.isNameCharacter, isAlphanum_of_severing severing, Bool.false_or,
    beq_eq_false_iff_ne]
  rintro rfl
  exact absurd severing (by decide)

theorem isSevering_of_redirect (spelled : isRedirectCharacter character = true) :
    isSevering character = false := by
  rw [Bool.eq_false_iff]
  intro severing
  have letter := isAlphanum_of_severing severing
  rw [Char.isAlphanum, Bool.or_eq_false_iff] at letter
  rw [isRedirectCharacter, letter.1, Bool.false_or, List.contains_iff_mem] at spelled
  simp only [List.mem_cons, List.not_mem_nil, or_false] at spelled
  rcases spelled with rfl | rfl | rfl | rfl | rfl <;> exact absurd severing (by decide)

theorem variableName?_append_severs (severs : Severs later) (text : List Char) :
    variableName? (text ++ later) = variableName? text := by
  cases later with
  | nil => rw [List.append_nil]
  | cons character rest =>
    have severing := severs character rfl
    refine variableName?_append_stop (isNameCharacter_of_severing severing) ?_ ?_
    · rintro rfl
      exact absurd severing (by decide)
    · rintro rfl
      exact absurd severing (by decide)

theorem isPrefixOf_append_severs {source : List Char} (severs : Severs later)
    (solid : source.any isSevering = false) (text : List Char) :
    source.isPrefixOf (text ++ later) = source.isPrefixOf text := by
  induction source generalizing text with
  | nil => simp
  | cons character rest ih =>
    rw [List.any_cons, Bool.or_eq_false_iff] at solid
    obtain ⟨here, others⟩ := solid
    cases text with
    | nil =>
      cases later with
      | nil => rfl
      | cons head tail =>
        have different : character ≠ head := by
          rintro rfl
          exact severs.head?_ne here rfl
        simp [List.isPrefixOf, different]
    | cons head tail =>
      rw [List.cons_append, List.isPrefixOf, List.isPrefixOf, ih others]

theorem solid_of_redirect (spelled : text.all isRedirectCharacter = true) :
    text.any isSevering = false := by
  rw [List.any_eq_false]
  intro character member
  rw [isSevering_of_redirect (List.all_eq_true.mp spelled character member)]
  exact Bool.false_ne_true

theorem operatorOf?_append_severs (severs : Severs later) {entry : String × Stream}
    (spelled : entry.1.toList.all isRedirectCharacter = true) (text : List Char) :
    operatorOf? (text ++ later) entry = operatorOf? text entry := by
  have notGreater : later.head? ≠ some '>' := severs.head?_ne (by decide)
  have notLess : later.head? ≠ some '<' := severs.head?_ne (by decide)
  simp only [operatorOf?, isPrefixOf_append_severs severs (solid_of_redirect spelled)]
  split
  · next starts =>
    obtain ⟨rest, rfl⟩ := List.isPrefixOf_iff_prefix.mp starts
    rw [List.append_assoc, List.drop_left, List.drop_left]
    cases rest with
    | nil =>
      cases later with
      | nil => rfl
      | cons head tail => simp_all
    | cons first rest =>
      by_cases greater : first = '>'
      · cases rest with
        | nil =>
          cases later with
          | nil => rfl
          | cons head tail => simp_all
        | cons second others => grind
      · grind
  · rfl

theorem redirectOperator?_append_severs (severs : Severs later) (text : List Char) :
    redirectOperator? (text ++ later) = redirectOperator? text := by
  have sources : ∀ entry ∈ redirectSources, entry.1.toList.all isRedirectCharacter = true := by
    decide
  have same : ∀ entries : List (String × Stream), entries ⊆ redirectSources →
      entries.findSome? (operatorOf? (text ++ later)) = entries.findSome? (operatorOf? text) := by
    intro entries
    induction entries with
    | nil => intro _; rfl
    | cons entry rest ih =>
      intro subset
      have spelled := sources entry (subset List.mem_cons_self)
      have others := ih fun other member => subset (List.mem_cons_of_mem _ member)
      rw [List.findSome?_cons, List.findSome?_cons, operatorOf?_append_severs severs spelled,
        others]
  exact same redirectSources (List.Subset.refl _)

variable {first second : List Char} {tokens others : List CommandToken}

theorem atBoundary_append (same : atBoundary first = atBoundary second) :
    atBoundary (text ++ first) = atBoundary (text ++ second) := by
  cases text with
  | nil => exact same
  | cons head tail => rfl

theorem duplicateLength?_swap (severs : Severs first) (seversToo : Severs second)
    (same : atBoundary first = atBoundary second) (operator : RedirectOperator) (text : List Char) :
    duplicateLength? operator (text ++ first) = duplicateLength? operator (text ++ second) := by
  have tests : ∀ target ∈ duplicateTargets operator,
      (target.toList.isPrefixOf (text ++ first) &&
          atBoundary ((text ++ first).drop target.length)) =
        (target.toList.isPrefixOf (text ++ second) &&
          atBoundary ((text ++ second).drop target.length)) := by
    intro target member
    have solid := solid_of_redirect (duplicateTargets_characters member)
    rw [isPrefixOf_append_severs severs solid, isPrefixOf_append_severs seversToo solid]
    cases starts : target.toList.isPrefixOf text with
    | false => rfl
    | true =>
      obtain ⟨rest, rfl⟩ := List.isPrefixOf_iff_prefix.mp starts
      rw [← String.length_toList, List.append_assoc, List.append_assoc, List.drop_left,
        List.drop_left, atBoundary_append same]
  simp_all [duplicateLength?]

/-! ### Exchanging what follows -/

section Exchange

variable {readers : BodyReaders} {first second : List Char}

variable {text later : List Char}

variable {character : Char} {atStart : Bool} {atoms : List WordAtom}

theorem head?_append_ne (other : second.head? ≠ some character)
    (starts : (text ++ first).head? ≠ some character) :
    (text ++ second).head? ≠ some character := by
  cases text with
  | nil => exact other
  | cons head tail => exact starts

theorem head?_append_beq (notFirst : first.head? ≠ some character)
    (notSecond : second.head? ≠ some character) (text : List Char) :
    ((text ++ first).head? == some character) = ((text ++ second).head? == some character) := by
  cases text with
  | nil => simp_all
  | cons head tail => rfl

theorem WordPiece.exchange (severs : Severs first) (seversToo : Severs second)
    (same : atBoundary first = atBoundary second)
    (piece : WordPiece readers atStart text (later ++ first) atoms)
    (complete : endsInEscape text = false) :
    WordPiece readers atStart text (later ++ second) atoms := by
  have leading : (atBoundary (later ++ first) || (later ++ first).head? == some '/') =
      (atBoundary (later ++ second) || (later ++ second).head? == some '/') := by
    rw [atBoundary_append same, head?_append_beq (severs.head?_ne (by decide))
      (seversToo.head?_ne (by decide))]
  -- Only variables, tildes and at signs look at what follows them.
  generalize after : later ++ first = rest at piece
  cases piece with try subst after
  | singleQuoted inside => exact .singleQuoted inside
  | doubleQuoted quoted => exact .doubleQuoted quoted
  | dangling => cases complete
  | escaped => exact .escaped
  | captured closes read => exact .captured closes read
  | splitCaptured closes read => exact .splitCaptured closes read
  | splice closes read => exact .splice closes read
  | environment named =>
    rw [← List.append_assoc, variableName?_append_severs severs] at named
    refine .environment ?_
    rw [← List.append_assoc, variableName?_append_severs seversToo, named]
  | dollar notCaptured unnamed =>
    rw [variableName?_append_severs severs] at unnamed
    refine .dollar (head?_append_ne (seversToo.head?_ne (by decide)) notCaptured) ?_
    rw [variableName?_append_severs seversToo, unnamed]
  | tilde atFront =>
    exact .tilde (by rw [← leading, atFront])
  | plainTilde inside =>
    exact .plainTilde (by rw [← leading, inside])
  | plainAt notSplice notCaptured =>
    refine .plainAt (head?_append_ne (seversToo.head?_ne (by decide)) notSplice) ?_
    rw [← List.isPrefixOf_iff_prefix, isPrefixOf_append_severs severs (by decide)] at notCaptured
    rwa [← List.isPrefixOf_iff_prefix, isPrefixOf_append_severs seversToo (by decide)]
  | plain inside ordinary => exact .plain inside ordinary

theorem WordText.exchange (severs : Severs first) (seversToo : Severs second)
    (same : atBoundary first = atBoundary second)
    (word : WordText readers atStart text (later ++ first) atoms)
    (complete : endsInEscape text = false) :
    WordText readers atStart text (later ++ second) atoms := by
  generalize after : later ++ first = rest at word
  induction word with subst after
  | done ends =>
    exact .done (by rw [← atBoundary_append same, ends])
  | @piece atStart text others rest atoms otherAtoms piece word ih =>
    rcases piece.isSelfContained with contained | ⟨rfl, none⟩
    · rw [contained.escapes] at complete
      rw [← List.append_assoc] at piece
      refine .piece ?_ (ih complete rfl)
      rw [← List.append_assoc]
      exact piece.exchange severs seversToo same contained.complete
    · rw [(List.append_eq_nil_iff.mp none).1] at complete
      cases complete

/-- More text after a text makes no blanks at its front, unless it continues a line. -/
theorem blankLength_append (filled : text ≠ []) (apart : text = ['\\'] → later.head? ≠ some '\n') :
    blankLength (text ++ later) = 0 ↔ blankLength text = 0 := by
  cases text with
  | nil => exact absurd rfl filled
  | cons character rest =>
    by_cases continued : ∃ after, character = '\\' ∧ rest = '\n' :: after
    · grind [blankLength_continuation]
    · have alone : ∀ after, character = '\\' → rest = '\n' :: after → False :=
        fun after escape newline => continued ⟨after, escape, newline⟩
      have still : ∀ after, character = '\\' → rest ++ later = '\n' :: after → False := by
        intro after escape newline
        cases rest with
        | nil => exact apart (by rw [escape]) (by rw [← List.nil_append later, newline]; rfl)
        | cons next others => simp_all
      rw [List.cons_append, blankLength_cons still, blankLength_cons alone]
      split <;> simp

theorem blankLength_append_complete (filled : text ≠ []) (complete : endsInEscape text = false)
    (later : List Char) : blankLength (text ++ later) = 0 ↔ blankLength text = 0 := by
  refine blankLength_append filled ?_
  rintro rfl
  cases complete

theorem TokenText.exchange (severs : Severs first) (seversToo : Severs second)
    (same : atBoundary first = atBoundary second) {token : CommandToken}
    (grammar : TokenText readers text (later ++ first) token) (complete : endsInEscape text = false)
    : TokenText readers text (later ++ second) token := by
  generalize after : later ++ first = rest at grammar
  cases grammar with subst after
  | or => exact .or
  | pipe single =>
    exact .pipe (head?_append_ne (seversToo.head?_ne (by decide)) single)
  | and => exact .and
  | background single notRedirect =>
    refine .background (head?_append_ne (seversToo.head?_ne (by decide)) single) ?_
    rw [← List.cons_append, redirectOperator?_append_severs severs] at notRedirect
    rw [← List.cons_append, redirectOperator?_append_severs seversToo, notRedirect]
  | duplicate operates length names =>
    rw [← List.append_assoc, ← List.append_assoc,
      redirectOperator?_append_severs severs] at operates
    rw [← List.append_assoc, duplicateLength?_swap severs seversToo same,
      List.append_assoc] at names
    refine .duplicate ?_ length names
    rw [← List.append_assoc, ← List.append_assoc, redirectOperator?_append_severs seversToo,
      operates]
  | @file spelled blanks name _ operator atoms operates length notNamed blank stops inside target =>
      rw [(isSelfContained_operator operates length).escapes,
        blank.isSelfContained.escapes] at complete
      have filled := target.ne_nil inside
      rw [blankLength_append_complete filled complete] at stops
      simp only [← List.append_assoc] at operates notNamed inside
      rw [redirectOperator?_append_severs severs] at operates
      rw [duplicateLength?_swap severs seversToo same] at notNamed
      rw [atBoundary_append same] at inside
      refine .file ?_ length ?_ blank ?_ ?_ (target.exchange severs seversToo same complete)
      · simp only [← List.append_assoc]
        rw [redirectOperator?_append_severs seversToo, operates]
      · simpa only [List.append_assoc] using notNamed
      · rwa [blankLength_append_complete filled complete]
      · simpa only [List.append_assoc] using inside
  | word notRedirect inside parts =>
    rw [← List.append_assoc, redirectOperator?_append_severs severs] at notRedirect
    rw [← List.append_assoc, atBoundary_append same, List.append_assoc] at inside
    refine .word ?_ inside (parts.exchange severs seversToo same complete)
    rw [← List.append_assoc, redirectOperator?_append_severs seversToo, notRedirect]

end Exchange

/-! ### Blanks around a text -/

section Blanks

variable {readers : BodyReaders}

variable {character : Char} {atStart : Bool} {later : List Char} {atoms : List WordAtom}

theorem isBlank_eq_false_of_named (named : Lexer.isNameCharacter character = true) :
    Text.isBlank character = false := by
  rw [Bool.eq_false_iff]
  intro blank
  have severing : isSevering character = true := by rw [isSevering, blank]; rfl
  exact Bool.false_ne_true ((isNameCharacter_of_severing severing).symm.trans named)

theorem isBlank_eq_false_of_redirect (spelled : isRedirectCharacter character = true) :
    Text.isBlank character = false := by
  have solid := isSevering_of_redirect spelled
  simp_all [isSevering]

variable {text blanks : List Char} {blank : Char} {tokens : List CommandToken}

theorem WordPiece.last (piece : WordPiece readers atStart text later atoms) :
    (∃ character, text = ['\\', character]) ∨
      ∃ character, text.getLast? = some character ∧ Text.isBlank character = false := by
  cases piece with
  | singleQuoted => exact .inr ⟨'\'', by simp [List.getLast?_cons], by decide⟩
  | doubleQuoted => exact .inr ⟨'"', by simp [List.getLast?_cons], by decide⟩
  | dangling => exact .inr ⟨'\\', rfl, by decide⟩
  | escaped => exact .inl ⟨_, rfl⟩
  | captured | splitCaptured | splice =>
    exact .inr ⟨')', by simp [List.getLast?_cons], by decide⟩
  | @environment spelled later name named =>
    refine .inr ⟨('$' :: spelled).getLast (List.cons_ne_nil _ _),
      List.getLast?_eq_some_getLast _, ?_⟩
    have member := List.getLast_mem (List.cons_ne_nil '$' spelled)
    rcases List.mem_cons.mp member with dollar | inside
    · rw [dollar]
      decide
    · rcases variableName?_characters named inside with named | brace | brace
      · exact isBlank_eq_false_of_named named
      · rw [brace]
        decide
      · rw [brace]
        decide
  | dollar | tilde | plainTilde | plainAt => exact .inr ⟨_, rfl, by decide⟩
  | plain inside ordinary => simp_all [isBoundary]

theorem WordPiece.eq_escape (isBlank : Text.isBlank blank = true)
    (piece : WordPiece readers atStart (text ++ [blank]) later atoms) : text = ['\\'] := by
  rcases piece.last with ⟨character, whole⟩ | ⟨character, ends, solid⟩
  · have split : text ++ [blank] = ['\\'] ++ [character] := whole
    exact (List.append_singleton_inj.mp split).1
  · simp_all

theorem WordText.endsInEscape {text : List Char} {blank : Char}
    (isBlank : Text.isBlank blank = true)
    (word : WordText readers atStart (text ++ [blank]) later atoms) : endsInEscape text = true := by
  generalize whole : text ++ [blank] = spelled at word
  induction word generalizing text with
  | done => exact absurd whole (by simp)
  | @piece atStart spelled others later atoms otherAtoms piece word ih =>
    rcases List.eq_nil_or_concat others with rfl | ⟨sooner, last, rfl⟩
    · rw [List.append_nil] at whole
      subst whole
      rw [piece.eq_escape isBlank]
      rfl
    · rw [List.concat_eq_append, ← List.append_assoc] at whole
      obtain ⟨rfl, rfl⟩ := List.append_singleton_inj.mp whole
      rw [List.concat_eq_append] at piece ih
      rcases piece.isSelfContained with contained | ⟨_, none⟩
      · rw [contained.escapes]
        exact ih rfl
      · simp at none

theorem TokenText.endsInEscape {text : List Char} {blank : Char} {token : CommandToken}
    (isBlank : Text.isBlank blank = true)
    (grammar : TokenText readers (text ++ [blank]) later token) : endsInEscape text = true := by
  generalize whole : text ++ [blank] = spelled at grammar
  have solid (ends : spelled.any Text.isBlank = false) : False := by
    have member : blank ∈ spelled := by simp [← whole]
    exact List.any_eq_false.mp ends blank member isBlank
  cases grammar with
  | or | pipe | and | background => exact absurd (by decide) solid
  | duplicate operates length names =>
    refine absurd (List.any_eq_false.mpr ?_) solid
    intro character member
    rw [Bool.not_eq_true]
    rcases List.mem_append.mp member with inside | inside
    · have spelled := List.all_eq_true.mp (operator_spelling operates length).2
      exact isBlank_eq_false_of_redirect (spelled character inside)
    · have spelled := List.all_eq_true.mp (target_spelling names).1
      exact isBlank_eq_false_of_redirect (spelled character inside)
  | @file spelled blanks name later operator atoms operates length notNamed blankText stops
      inside target =>
      have operator := isSelfContained_operator operates length
      have before := operator.append blankText.isSelfContained
      rcases List.eq_nil_or_concat name with rfl | ⟨sooner, last, rfl⟩
      · exact absurd rfl (target.ne_nil inside)
      · rw [List.concat_eq_append, ← List.append_assoc, ← List.append_assoc] at whole
        obtain ⟨rfl, rfl⟩ := List.append_singleton_inj.mp whole
        rw [List.concat_eq_append] at target
        rw [before.escapes]
        exact target.endsInEscape isBlank
  | word notRedirect inside parts =>
    subst whole
    exact parts.endsInEscape isBlank

theorem BlankText.dropLast (blanks : BlankText (text ++ [blank]))
    (complete : HybridShell.endsInEscape text = false) : BlankText text := by
  generalize whole : text ++ [blank] = all at blanks
  induction blanks generalizing text with
  | nil => exact absurd whole (by simp)
  | @continuation rest others ih =>
    match text with
    | [] => cases whole
    | [_] =>
      cases whole
      cases complete
    | _ :: _ :: text =>
      cases whole
      exact .continuation (ih complete rfl)
  | @blank character rest here others ih =>
    cases text with
    | nil => exact .nil
    | cons first text =>
      obtain ⟨rfl, rfl⟩ := List.cons.inj whole
      have notEscape : first ≠ '\\' := by
        rintro rfl
        exact absurd here (by decide)
      rw [endsInEscape_cons notEscape] at complete
      exact .blank here (ih complete rfl)

/-- A blank at the end of a text, unless it is escaped, makes no difference to its tokens. -/
theorem CommandText.dropLast (isBlank : Text.isBlank blank = true)
    (grammar : CommandText readers (text ++ [blank]) tokens)
    (complete : HybridShell.endsInEscape text = false) : CommandText readers text tokens := by
  generalize whole : text ++ [blank] = all at grammar
  induction grammar generalizing text with
  | done blanks =>
    subst whole
    exact .done (blanks.dropLast complete)
  | @token blanks spelled later token tokens blankText stops first rest ih =>
    -- The blank ends the first token, where it is escaped, or the text after that token.
    rcases List.eq_nil_or_concat later with rfl | ⟨sooner, last, rfl⟩
    · rcases List.eq_nil_or_concat spelled with rfl | ⟨sooner, last, rfl⟩
      · exact absurd rfl first.ne_nil
      · rw [List.append_nil, List.concat_eq_append, ← List.append_assoc] at whole
        obtain ⟨rfl, rfl⟩ := List.append_singleton_inj.mp whole
        rw [List.concat_eq_append] at first
        rw [blankText.isSelfContained.escapes, first.endsInEscape isBlank] at complete
        cases complete
    · rw [List.concat_eq_append] at whole first stops ih
      rw [← List.append_assoc, ← List.append_assoc] at whole
      obtain ⟨rfl, rfl⟩ := List.append_singleton_inj.mp whole
      rcases first.isSelfContained with contained | ⟨_, none⟩
      · rw [blankText.isSelfContained.append contained |>.escapes] at complete
        rw [blankLength_append_complete first.ne_nil contained.complete] at stops
        have kept : TokenText readers spelled (sooner ++ []) token :=
          first.exchange (.cons (by rw [isSevering, isBlank]; rfl) []) .nil
            (by simp [atBoundary, isBoundary, isBlank]) contained.complete
        rw [List.append_nil] at kept
        rw [List.append_assoc]
        refine .token blankText ?_ kept (ih complete rfl)
        rwa [blankLength_append_complete first.ne_nil contained.complete]
      · exact absurd none (by simp)

theorem endsInEscape_append_blanks (allBlank : blanks.all Text.isBlank = true)
    (complete : HybridShell.endsInEscape text = false) :
    HybridShell.endsInEscape (text ++ blanks) = false := by
  cases blanks with
  | nil => rwa [List.append_nil]
  | cons blank rest =>
    have last : (text ++ blank :: rest).getLast? ≠ some '\\' := by
      intro escape
      have member : '\\' ∈ blank :: rest := by grind
      exact absurd (List.all_eq_true.mp allBlank _ member) (by decide)
    have alone := endsInEscape_append last []
    rwa [List.append_nil] at alone

/-- Blanks at the end of a text make no difference to its tokens, unless the first is escaped. -/
theorem CommandText.dropBlanks (allBlank : blanks.all Text.isBlank = true)
    (grammar : CommandText readers (text ++ blanks) tokens)
    (complete : HybridShell.endsInEscape text = false) : CommandText readers text tokens := by
  induction blanks using List.reverseRecOn with
  | nil => rwa [List.append_nil] at grammar
  | append_singleton blanks blank ih =>
    rw [List.all_append, Bool.and_eq_true, List.all_cons, List.all_nil,
      Bool.and_true] at allBlank
    rw [← List.append_assoc] at grammar
    have before := endsInEscape_append_blanks allBlank.1 complete
    exact ih allBlank.1 (grammar.dropLast allBlank.2 before)

theorem BlankText.append {others : List Char} (first : BlankText blanks) (second : BlankText others)
    : BlankText (blanks ++ others) := by
  induction first with
  | nil => exact second
  | continuation rest ih => exact .continuation ih
  | blank here rest ih => exact .blank here ih

theorem CommandText.dropFront (blank : BlankText blanks)
    (grammar : CommandText readers (blanks ++ text) tokens) : CommandText readers text tokens := by
  obtain ⟨spaces, rest, rfl, _, spacesBlank, stops⟩ := exists_blankText text
  rw [← List.append_assoc] at grammar
  have front := blank.append spacesBlank
  cases rest with
  | nil =>
    rw [List.append_nil] at grammar ⊢
    have scanned := tokens_eq_ok_iff.mpr grammar
    rw [tokens_eq_ok_iff.mpr (.done front)] at scanned
    cases scanned
    exact .done spacesBlank
  | cons character rest =>
    obtain ⟨spelled, later, token, others, whole, rfl, first, remaining⟩ :=
      grammar.exists_token front stops (List.cons_ne_nil _ _)
    rw [whole] at stops ⊢
    exact .token spacesBlank stops first remaining

end Blanks

/-! ### A semicolon after a text -/

variable {blanks later : List Char} {readers : BodyReaders}

theorem blankText_of_all (allBlank : blanks.all Text.isBlank = true) : BlankText blanks := by
  induction blanks with
  | nil => exact .nil
  | cons character rest ih =>
    rw [List.all_cons, Bool.and_eq_true] at allBlank
    exact .blank allBlank.1 (ih allBlank.2)

theorem not_commandText_semicolon (blank : BlankText blanks) :
    ¬ CommandText readers (blanks ++ ';' :: later) tokens := by
  intro grammar
  obtain ⟨text, after, token, others, whole, _, first, _⟩ :=
    grammar.exists_token blank rfl (List.cons_ne_nil _ _)
  have read := first.tokenAt 1
  rw [← whole] at read
  cases read

/--
The first token of a text is the first token of every text that severs it from
the rest in the same way.
-/
theorem CommandText.uncons_exchange {text : List Char} {token : CommandToken}
    (severs : Severs first) (seversToo : Severs second)
    (same : atBoundary first = atBoundary second) (blank : BlankText blanks)
    (stops : blankLength (text ++ (later ++ first)) = 0)
    (grammar : TokenText readers text (later ++ first) token) (complete : endsInEscape text = false)
    (longer : CommandText readers (blanks ++ (text ++ (later ++ second))) others) :
    ∃ remaining, others = token :: remaining ∧ CommandText readers (later ++ second) remaining := by
  have starts := blankLength_append_complete grammar.ne_nil complete
  have kept := grammar.exchange severs seversToo same complete
  exact longer.uncons blank ((starts _).mpr ((starts _).mp stops)) kept

/-- No accepted text goes on after a semicolon that is not quoted, escaped or in brackets. -/
theorem CommandText.not_semicolon {text : List Char} (grammar : CommandText readers text tokens)
    (complete : endsInEscape text = false) (allBlank : blanks.all Text.isBlank = true) :
    ¬ CommandText readers (text ++ (blanks ++ ';' :: later)) others := by
  have severs : Severs (blanks ++ ';' :: later) := by
    cases blanks with
    | nil => exact .cons (by decide) later
    | cons blank rest =>
      rw [List.all_cons, Bool.and_eq_true] at allBlank
      exact .cons (by rw [isSevering, allBlank.1]; rfl) _
  have boundary : atBoundary (blanks ++ ';' :: later) = true := by
    cases blanks with
    | nil => rfl
    | cons blank rest =>
      rw [List.all_cons, Bool.and_eq_true] at allBlank
      simp [atBoundary, isBoundary, allBlank.1]
  induction grammar generalizing others with
  | done blank =>
    rw [← List.append_assoc]
    exact not_commandText_semicolon (blank.append (blankText_of_all allBlank))
  | @token spaces text rest token tokens blank stops first grammar ih =>
    intro longer
    rw [blank.isSelfContained.escapes] at complete
    rcases first.isSelfContained with contained | ⟨dangling, rfl⟩
    · rw [contained.escapes] at complete
      rw [← List.append_nil rest] at first stops
      rw [List.append_assoc, List.append_assoc] at longer
      obtain ⟨_, _, remaining⟩ := longer.uncons_exchange .nil severs boundary.symm blank stops
        first contained.complete
      exact ih complete remaining
    · simp_all [dangling.endsInEscape]

end CommandScanner

end HybridShell
