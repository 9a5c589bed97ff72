import HybridShell.Token.Lexer

/-!
# Matching the brackets of a body

The bracket matcher looks for the bracket that closes a body.  What it finds
depends only on the text up to that bracket, and a body that it closes at one
depth is passed over as a whole at every greater depth.
-/

namespace HybridShell

namespace Lexer

/-- The kind of text after a character that no backslash escapes. -/
def Quoting.past : Quoting → Char → Quoting
  | .plain, character =>
    if character = '\'' then .single else if character = '"' then .double else .plain
  | .single, character => if character = '\'' then .plain else .single
  | .double, character => if character = '"' then .plain else .double

def AreBrackets (opening closing : Char) : Prop :=
  opening = '(' ∧ closing = ')' ∨ opening = '[' ∧ closing = ']'

/-- What stands next in a body, and how it changes the kind of text and the depth. -/
inductive BodyStep (opening closing : Char) : Quoting → Nat → List Char → Quoting → Nat → Prop
  | escape (notSingle : quoting ≠ .single) :
      BodyStep opening closing quoting depth ['\\', character] quoting depth
  | opens : BodyStep opening closing .plain depth [opening] .plain (depth + 1)
  | closes : BodyStep opening closing .plain (depth + 1) [closing] .plain depth
  | other (counts : quoting = .single ∨ character ≠ '\\')
      (inside : quoting = .plain → character ≠ opening ∧ character ≠ closing) :
      BodyStep opening closing quoting depth [character] (quoting.past character) depth

/-- Text with the given kind and depth at its start, which the bracket after it closes. -/
inductive BodyText (opening closing : Char) : Quoting → Nat → List Char → Prop
  | done : BodyText opening closing .plain 0 []
  | step (first : BodyStep opening closing quoting depth text next after)
      (others : BodyText opening closing next after rest) :
      BodyText opening closing quoting depth (text ++ rest)

variable {opening closing : Char}

/--
The matcher, in the given kind of text and at the given depth, closes a body
at the bracket after it.  Deeper, it passes that bracket and goes on.
-/
structure Closes (opening closing : Char) (quoting : Quoting) (depth : Nat)
    (inner : List Char) : Prop where
  ends : ∀ later : List Char,
    bodyLength opening closing quoting depth (inner ++ closing :: later) = some inner.length
  passes : ∀ (outer : Nat) (later : List Char),
    bodyLength opening closing quoting (depth + outer + 1) (inner ++ closing :: later) =
      (bodyLength opening closing .plain outer later).map (· + (inner.length + 1))

variable {quoting next : Quoting} {text inner : List Char} {character : Char} {depth : Nat}

/-- Text that changes the matcher's state in a fixed way stands before a closed body. -/
theorem Closes.prepend {after : Nat} (closes : Closes opening closing next after inner)
    (step : ∀ (outer : Nat) (later : List Char),
      bodyLength opening closing quoting (depth + outer) (text ++ later) =
        (bodyLength opening closing next (after + outer) later).map (· + text.length)) :
    Closes opening closing quoting depth (text ++ inner) where
  ends later := by
    have first := step 0 (inner ++ closing :: later)
    rw [Nat.add_zero, Nat.add_zero, closes.ends later] at first
    rw [List.append_assoc, first, Option.map_some, List.length_append, Nat.add_comm]
  passes outer later := by
    have first := step (outer + 1) (inner ++ closing :: later)
    rw [← Nat.add_assoc, ← Nat.add_assoc, closes.passes outer later, Option.map_map] at first
    rw [List.append_assoc, first]
    congr 1
    grind

theorem bodyLength_single (depth : Nat) (character : Char) (rest : List Char) :
    bodyLength opening closing .single depth (character :: rest) =
      (bodyLength opening closing (if character = '\'' then .plain else .single) depth rest).map
        (· + 1) := by
  simp only [bodyLength]

theorem bodyLength_escape (notSingle : quoting ≠ .single) (depth : Nat) (character : Char)
    (rest : List Char) :
    bodyLength opening closing quoting depth ('\\' :: character :: rest) =
      (bodyLength opening closing quoting depth rest).map (· + 2) := by
  cases quoting with
  | plain => simp only [bodyLength]
  | single => exact absurd rfl notSingle
  | double => simp only [bodyLength]

theorem bodyLength_double (notEscape : character ≠ '\\') (depth : Nat) (rest : List Char) :
    bodyLength opening closing .double depth (character :: rest) =
      (bodyLength opening closing (if character = '"' then .plain else .double) depth rest).map
        (· + 1) := by
  rw [bodyLength]
  all_goals simp [notEscape]

theorem bodyLength_plain (notEscape : character ≠ '\\') (depth : Nat) (rest : List Char) :
    bodyLength opening closing .plain depth (character :: rest) =
      if character = '\'' then (bodyLength opening closing .single depth rest).map (· + 1)
      else if character = '"' then (bodyLength opening closing .double depth rest).map (· + 1)
      else if character = opening then
        (bodyLength opening closing .plain (depth + 1) rest).map (· + 1)
      else if character = closing then
        match depth with
        | 0 => some 0
        | depth + 1 => (bodyLength opening closing .plain depth rest).map (· + 1)
      else (bodyLength opening closing .plain depth rest).map (· + 1) := by
  cases depth <;> rw [bodyLength] <;> simp [notEscape]

theorem ne_escape {rest : List Char} (lone : character = '\\' → rest = [] → False)
    (pair : ∀ (head : Char) (tail : List Char), character = '\\' → rest = head :: tail → False) :
    character ≠ '\\' := by
  intro escape
  cases rest with
  | nil => exact lone escape rfl
  | cons head tail => exact pair head tail escape rfl

theorem bodyLength_other (counts : quoting = .single ∨ character ≠ '\\')
    (inside : quoting = .plain → character ≠ opening ∧ character ≠ closing) (depth : Nat)
    (rest : List Char) :
    bodyLength opening closing quoting depth (character :: rest) =
      (bodyLength opening closing (quoting.past character) depth rest).map (· + 1) := by
  cases quoting with
  | single => exact bodyLength_single depth character rest
  | double => exact bodyLength_double (counts.resolve_left (by decide)) depth rest
  | plain =>
    obtain ⟨notOpening, notClosing⟩ := inside rfl
    rw [bodyLength_plain (counts.resolve_left (by decide)), if_neg notOpening, if_neg notClosing,
      Quoting.past]
    split
    · rfl
    · split <;> rfl

/-- A body ends here, or its next step stands here, unless a backslash is all that is left. -/
theorem exists_step (quoting : Quoting) (depth : Nat) (text : List Char) :
    text = [] ∨ (text = ['\\'] ∧ quoting ≠ .single) ∨
      (quoting = .plain ∧ depth = 0 ∧ ∃ later, text = closing :: later) ∨
      ∃ chunk rest next after, text = chunk ++ rest ∧ 0 < chunk.length ∧
        BodyStep opening closing quoting depth chunk next after := by
  cases text with
  | nil => exact .inl rfl
  | cons character rest =>
    refine .inr ?_
    by_cases counts : quoting = .single ∨ character ≠ '\\'
    · by_cases inside : quoting = .plain → character ≠ opening ∧ character ≠ closing
      · exact .inr (.inr ⟨[character], rest, _, _, rfl, Nat.one_pos, .other counts inside⟩)
      · obtain ⟨rfl, bracket⟩ := Classical.not_imp.mp inside
        by_cases opens : character = opening
        · subst opens
          exact .inr (.inr ⟨[character], rest, _, _, rfl, Nat.one_pos, .opens⟩)
        · have closes : character = closing := by simpa [opens] using bracket
          subst closes
          cases depth with
          | zero => exact .inr (.inl ⟨rfl, rfl, rest, rfl⟩)
          | succ depth => exact .inr (.inr ⟨[character], rest, _, _, rfl, Nat.one_pos, .closes⟩)
    · obtain ⟨notSingle, escape⟩ := not_or.mp counts
      obtain rfl := Classical.not_not.mp escape
      cases rest with
      | nil => exact .inl ⟨rfl, notSingle⟩
      | cons escaped rest =>
        exact .inr (.inr ⟨['\\', escaped], rest, _, _, rfl, Nat.two_pos, .escape notSingle⟩)

section Brackets

variable (brackets : AreBrackets opening closing)

include brackets

theorem bodyLength_opening (depth : Nat) (rest : List Char) :
    bodyLength opening closing .plain depth (opening :: rest) =
      (bodyLength opening closing .plain (depth + 1) rest).map (· + 1) := by
  rcases brackets with ⟨rfl, rfl⟩ | ⟨rfl, rfl⟩ <;> rfl

theorem bodyLength_closing (depth : Nat) (rest : List Char) :
    bodyLength opening closing .plain (depth + 1) (closing :: rest) =
      (bodyLength opening closing .plain depth rest).map (· + 1) := by
  rcases brackets with ⟨rfl, rfl⟩ | ⟨rfl, rfl⟩ <;> rfl

theorem bodyLength_step {after : Nat}
    (step : BodyStep opening closing quoting depth text next after) (outer : Nat)
    (later : List Char) :
    bodyLength opening closing quoting (depth + outer) (text ++ later) =
      (bodyLength opening closing next (after + outer) later).map (· + text.length) := by
  cases step with
  | escape notSingle => exact bodyLength_escape notSingle _ _ _
  | opens =>
    rw [Nat.add_right_comm]
    exact bodyLength_opening brackets _ _
  | closes =>
    rw [Nat.add_right_comm]
    exact bodyLength_closing brackets _ _
  | other counts inside => exact bodyLength_other counts inside _ _

theorem BodyStep.bodyLength_eq {after : Nat}
    (step : BodyStep opening closing quoting depth text next after) (later : List Char) :
    bodyLength opening closing quoting depth (text ++ later) =
      (bodyLength opening closing next after later).map (· + text.length) :=
  bodyLength_step brackets step 0 later

theorem BodyText.closed (body : BodyText opening closing quoting depth inner) :
    Closes opening closing quoting depth inner := by
  induction body with
  | done =>
    refine ⟨fun later => ?_, fun outer later => ?_⟩
    · rcases brackets with ⟨rfl, rfl⟩ | ⟨rfl, rfl⟩ <;> rfl
    · rw [Nat.zero_add]
      exact bodyLength_closing brackets outer later
  | step first _ ih => exact ih.prepend (bodyLength_step brackets first)

/-- What the matcher passes is the text of a body, and a closing bracket follows it. -/
theorem bodyText_of_bodyLength {length : Nat}
    (found : bodyLength opening closing quoting depth text = some length) :
    BodyText opening closing quoting depth (text.take length) ∧
      ∃ later, text.drop length = closing :: later := by
  induction size : text.length using Nat.strongRecOn generalizing quoting depth text length with
  | _ count ih =>
    rcases @exists_step opening closing quoting depth text with rfl | ⟨rfl, notSingle⟩ |
      ⟨rfl, rfl, later, rfl⟩ | ⟨chunk, rest, next, after, rfl, filled, step⟩
    · cases quoting <;> cases found
    · cases quoting with
      | single => exact absurd rfl notSingle
      | _ => cases found
    · cases (BodyText.done.closed brackets).ends later |>.symm.trans found
      exact ⟨.done, later, rfl⟩
    · rw [step.bodyLength_eq brackets] at found
      obtain ⟨inside, passed, rfl⟩ := Option.map_eq_some_iff.mp found
      obtain ⟨body, closed⟩ := ih rest.length (by grind) passed rfl
      rw [Nat.add_comm, List.take_length_add_append, List.drop_length_add_append]
      exact ⟨.step step body, closed⟩

theorem closes_iff_bodyText :
    Closes opening closing quoting depth inner ↔ BodyText opening closing quoting depth inner := by
  refine ⟨fun closes => ?_, fun body => body.closed brackets⟩
  have body := (bodyText_of_bodyLength brackets (closes.ends [])).1
  rwa [List.take_left] at body

/-- The matcher finds a bracket exactly where it closes the text before it. -/
theorem bodyLength_eq_some_iff {length : Nat} :
    bodyLength opening closing quoting depth text = some length ↔
      ∃ inner later, text = inner ++ closing :: later ∧ length = inner.length ∧
        BodyText opening closing quoting depth inner := by
  constructor
  · intro found
    obtain ⟨body, later, follows⟩ := bodyText_of_bodyLength brackets found
    refine ⟨text.take length, later, ?_, ?_, body⟩
    · rw [← follows, List.take_append_drop]
    · have inside := congrArg List.length follows
      rw [List.length_drop, List.length_cons] at inside
      rw [List.length_take]
      omega
  · rintro ⟨inner, later, rfl, rfl, body⟩
    exact (body.closed brackets).ends later

end Brackets

/-! ### Text without a bracket of its own -/

/--
The matcher for parentheses passes over a text at every depth.  It enters the
text in one kind of quoting and leaves it in another.
-/
def Passes (quoting : Quoting) (text : List Char) (next : Quoting) : Prop :=
  ∀ (depth : Nat) (later : List Char),
    bodyLength '(' ')' quoting depth (text ++ later) =
      (bodyLength '(' ')' next depth later).map (· + text.length)

theorem Passes.nil (quoting : Quoting) : Passes quoting [] quoting := by
  intro depth later
  simp

theorem Passes.append {middle : Quoting} {others : List Char} (first : Passes quoting text middle)
    (second : Passes middle others next) : Passes quoting (text ++ others) next := by
  intro depth later
  rw [List.append_assoc, first depth, second depth, Option.map_map]
  congr 1
  grind

theorem passes_escape (notSingle : quoting ≠ .single) (character : Char) :
    Passes quoting ['\\', character] quoting :=
  fun _ _ => bodyLength_escape notSingle _ _ _

theorem passes_other (counts : quoting = .single ∨ character ≠ '\\')
    (inside : quoting = .plain → character ≠ '(' ∧ character ≠ ')') :
    Passes quoting [character] (quoting.past character) :=
  fun _ _ => bodyLength_other counts inside _ _

theorem passes_double (notEscape : character ≠ '\\') (inside : character ≠ '"') :
    Passes .double [character] .double := by
  have passes := @passes_other .double character (.inr notEscape) nofun
  rwa [Quoting.past, if_neg inside] at passes

/-- A character that is no quote, bracket or backslash. -/
def isOrdinary (character : Char) : Bool :=
  !(['\'', '"', '\\', '(', ')'].contains character)

theorem passes_ordinary (ordinary : text.all isOrdinary = true) : Passes quoting text quoting := by
  induction text with
  | nil => exact .nil quoting
  | cons character rest ih =>
    simp only [List.all_cons, isOrdinary, List.contains_cons, List.contains_nil, Bool.or_false,
      Bool.and_eq_true, Bool.not_eq_true', Bool.or_eq_false_iff, beq_eq_false_iff_ne] at ordinary
    obtain ⟨⟨notSingle, notDouble, notEscape, notBracket⟩, others⟩ := ordinary
    have kept : quoting.past character = quoting := by
      cases quoting <;> simp [Quoting.past, notSingle, notDouble]
    have first := @passes_other quoting character (.inr notEscape) fun _ => notBracket
    rw [kept] at first
    exact first.append (ih others)

theorem passes_singleQuoted (inside : '\'' ∉ inner) :
    Passes .plain ('\'' :: (inner ++ ['\''])) .plain := by
  have opens : Passes .plain ['\''] .single := by
    intro depth later
    rfl
  have closes : Passes .single ['\''] .plain := by
    intro depth later
    rfl
  have body : Passes .single inner .single := by
    induction inner with
    | nil => exact .nil .single
    | cons character rest ih =>
      rw [List.mem_cons, not_or] at inside
      have first := @passes_other .single character (.inl rfl) nofun
      rw [Quoting.past, if_neg (Ne.symm inside.1)] at first
      exact first.append (ih inside.2)
  exact opens.append (body.append closes)

theorem passes_doubleQuoted (body : Passes .double inner .double) :
    Passes .plain ('"' :: (inner ++ ['"'])) .plain := by
  have opens : Passes .plain ['"'] .double := by
    intro depth later
    rfl
  have closes : Passes .double ['"'] .plain := by
    intro depth later
    rfl
  exact opens.append (body.append closes)

theorem passes_bracketed (closes : Closes '(' ')' .plain 0 inner) :
    Passes .plain ('(' :: (inner ++ [')'])) .plain := by
  intro depth later
  have opens := bodyLength_opening (.inl ⟨rfl, rfl⟩) depth (inner ++ ')' :: later)
  have inside := closes.passes depth later
  rw [Nat.zero_add] at inside
  rw [List.cons_append, List.append_assoc, List.singleton_append, opens, inside, Option.map_map]
  congr 1
  grind

theorem Passes.closes (passes : Passes .plain inner .plain) : Closes '(' ')' .plain 0 inner := by
  have done : Closes '(' ')' .plain 0 [] := BodyText.done.closed (.inl ⟨rfl, rfl⟩)
  have closed := done.prepend fun outer later => passes (0 + outer) later
  rwa [List.append_nil] at closed

end Lexer

end HybridShell
