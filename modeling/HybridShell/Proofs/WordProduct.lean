import HybridShell.Expansion.Word
import Mathlib.Algebra.GroupWithZero.Nat
import Mathlib.Data.List.Forall2

/-!
# Words are outer products

The arguments of a word come from the choices of one alternative per piece,
taken in the order of a dictionary: the first piece varies slowest.  A choice
gives its text or, when the word has a live wildcard, the paths that match its
pattern.  Only live text with a wildcard in it is ever matched; all other text
stands for itself, and no text is divided.
-/

namespace HybridShell

namespace WordPiece

variable (environment : Dictionary String)

/-- The texts a piece may stand for; the tilde is the home directory, if there is one. -/
def texts : WordPiece → List String
  | text characters _ => [characters]
  | items choices => choices
  | tilde => [(environment.get? "HOME").getD "~"]

/-- Live text with a wildcard in it. -/
def isWild : WordPiece → Bool
  | text characters live =>
    live && characters.toList.any fun character =>
      character = '*' ∨ character = '?' ∨ character = '['
  | items _ => false
  | tilde => false

/-- How a text of the piece is written in a pattern: only live text is taken as it is. -/
def patternOf (chosen : String) : WordPiece → String
  | text _ true => chosen
  | _ => String.ofList (Pattern.escape chosen.toList)

def textAt (piece : WordPiece) (position : Nat) : String :=
  (piece.texts environment).getD position ""

theorem alternatives_eq (piece : WordPiece) :
    piece.alternatives ((environment.get? "HOME").getD "~") =
      (List.range (piece.texts environment).length).map fun position =>
        ⟨piece.textAt environment position,
          piece.patternOf (piece.textAt environment position), piece.isWild⟩ := by
  cases piece with
  | text characters live =>
    have wild : hasWildcard characters = characters.toList.any fun character =>
        character = '*' ∨ character = '?' ∨ character = '[' := by
      simp [hasWildcard, Bool.decide_or]
    cases live with
    | true => simp [alternatives, texts, textAt, patternOf, isWild, wild]
    | false => rfl
  | tilde => rfl
  | items choices =>
    apply List.ext_getElem
    · simp [alternatives, texts]
    · intro position inside _
      have bound : position < choices.length := by simpa [alternatives] using inside
      simp [alternatives, textAt, texts, bound, Combination.plain, patternOf, isWild]

end WordPiece

namespace ExpandedWord

variable (environment : Dictionary String)

/-- How many texts each piece may stand for. -/
def counts (word : ExpandedWord) : List Nat :=
  word.map fun piece => (piece.texts environment).length

def textOf (word : ExpandedWord) (choice : List Nat) : String :=
  String.join (List.zipWith (WordPiece.textAt environment) word choice)

def patternOf (word : ExpandedWord) (choice : List Nat) : String :=
  String.join (List.zipWith
    (fun piece position => piece.patternOf (piece.textAt environment position)) word choice)

def isWild (word : ExpandedWord) : Bool :=
  word.any WordPiece.isWild

end ExpandedWord

/-- The choices of a position below each count, the first one varying slowest. -/
def choices : List Nat → List (List Nat)
  | [] => [[]]
  | count :: rest => (List.range count).flatMap fun position =>
    (choices rest).map (position :: ·)

theorem pairwise_choices (counts : List Nat) : (choices counts).Pairwise (· < ·) := by
  induction counts with
  | nil => simp [choices]
  | cons count rest ih =>
    rw [choices, List.pairwise_flatMap]
    constructor
    · simp_all [List.pairwise_map]
    · refine List.pairwise_lt_range.imp ?_
      intro position later smaller first isFirst second isSecond
      obtain ⟨_, _, rfl⟩ := List.mem_map.1 isFirst
      obtain ⟨_, _, rfl⟩ := List.mem_map.1 isSecond
      exact List.cons_lt_cons_iff.2 (.inl smaller)

variable {counts : List Nat}

theorem mem_choices_iff {choice : List Nat} :
    choice ∈ choices counts ↔ List.Forall₂ (· < ·) choice counts := by
  induction counts generalizing choice with
  | nil => simp [choices]
  | cons count rest ih =>
    rw [choices, List.mem_flatMap]
    constructor
    · rintro ⟨position, below, among⟩
      obtain ⟨others, isChoice, rfl⟩ := List.mem_map.1 among
      exact .cons (List.mem_range.1 below) (ih.1 isChoice)
    · rintro (_ | ⟨below, others⟩)
      exact ⟨_, List.mem_range.2 below, List.mem_map_of_mem (ih.2 others)⟩

theorem length_choices (counts : List Nat) : (choices counts).length = counts.prod := by
  induction counts with
  | nil => rfl
  | cons count rest ih => simp [choices, List.length_flatMap, ih]

theorem choices_eq_nil_of_zero_mem (zero : 0 ∈ counts) : choices counts = [] := by
  induction counts with
  | nil => simp at zero
  | cons count rest ih =>
    rcases List.mem_cons.1 zero with rfl | later
    · rfl
    · simp [choices, ih later]

namespace ExpansionContext

variable {context : ExpansionContext} {word : ExpandedWord}

theorem combinations_eq (context : ExpansionContext) (word : ExpandedWord) :
    context.combinations word = (choices (word.counts context.environment)).map fun choice =>
      ⟨word.textOf context.environment choice, word.patternOf context.environment choice,
        word.isWild⟩ := by
  induction word with
  | nil => rfl
  | cons piece rest ih =>
    rw [combinations, home, WordPiece.alternatives_eq, ih]
    simp [choices, ExpandedWord.counts, ExpandedWord.textOf, ExpandedWord.patternOf,
      ExpandedWord.isWild, Combination.append, List.flatMap_map, List.map_flatMap,
      Function.comp_def]

theorem flatten_mapM_single {α : Type} (items : List α) (text : α → String) :
    (items.mapM fun item => (.ok [text item] : Except ProcessError (List String))).map
      List.flatten = .ok (items.map text) := by
  have single : (items.map fun item => [text item]).flatten = items.map text := by
    induction items with
    | nil => rfl
    | cons item rest ih => simp [ih]
  have each : items.mapM (fun item => (.ok [text item] : Except ProcessError (List String))) =
      .ok (items.map fun item => [text item]) := List.mapM_pure
  rw [each]
  exact congrArg Except.ok single

/-- The lone splice, which gives its items, is no exception to the product. -/
theorem arguments_eq (context : ExpansionContext) (word : ExpandedWord) :
    context.arguments word =
      ((context.combinations word).mapM context.combinationArguments).map List.flatten := by
  unfold arguments
  split
  · next items =>
    have plain : context.combinations [.items items] = items.map .plain := by
      simp [combinations, WordPiece.alternatives, Combination.append]
    have product := flatten_mapM_single items id
    rw [List.map_id] at product
    rw [plain, List.mapM_map]
    exact product.symm
  · rfl

/-- The pattern that is matched, from the root of the file tree. -/
def fullPattern (context : ExpansionContext) (pattern : String) : String :=
  if Path.isAbsolute pattern then pattern
  else String.ofList (Pattern.escape context.directory.toList) ++ "/" ++ pattern

/-- A path that was found for a pattern, as an argument. -/
def shown (context : ExpansionContext) (pattern path : String) : String :=
  if Path.isAbsolute pattern then path
  else (Path.stripDirectory? path context.directory).getD path

/-- What a choice of this text and pattern gives in a word with or without a live wildcard. -/
inductive Gives (context : ExpansionContext) (text pattern : String) :
    Bool → Except ProcessError (List String) → Prop
  | plain : Gives context text pattern false (.ok [text])
  | invalid (refused : PathPattern.read (context.fullPattern pattern) = .error error) :
      Gives context text pattern true
        (.error (.malformed (.invalidPattern text error.position error.reason)))
  | found (read : PathPattern.read (context.fullPattern pattern) = .ok parsed)
      (all : paths.Perm ((parsed.paths context.tree).map (context.shown pattern)))
      (sorted : paths.Pairwise (· ≤ ·)) (some : paths ≠ []) :
      Gives context text pattern true (.ok paths)
  | literal (read : PathPattern.read (context.fullPattern pattern) = .ok parsed)
      (nothing : parsed.paths context.tree = []) (policy : context.noMatch = .literal) :
      Gives context text pattern true (.ok [text])
  | dropped (read : PathPattern.read (context.fullPattern pattern) = .ok parsed)
      (nothing : parsed.paths context.tree = []) (policy : context.noMatch = .drop) :
      Gives context text pattern true (.ok [])

theorem matches?_eq (context : ExpansionContext) (pattern : String) :
    context.matches? pattern =
      (PathPattern.read (context.fullPattern pattern)).map fun parsed =>
        ((parsed.paths context.tree).map (context.shown pattern)).mergeSort
          fun left right => left ≤ right := by
  unfold matches? fullPattern shown
  by_cases absolute : Path.isAbsolute pattern = true <;> simp [absolute]

theorem pairwise_sorted (paths : List String) :
    (paths.mergeSort fun left right => left ≤ right).Pairwise (· ≤ ·) := by
  have sorted := @List.pairwise_mergeSort String (fun left right => left ≤ right)
    (by simpa using fun _ _ _ => String.le_trans) (by simpa using String.le_total) paths
  simpa using sorted

theorem gives_combinationArguments (context : ExpansionContext) (text pattern : String)
    (wild : Bool) :
    context.Gives text pattern wild (context.combinationArguments ⟨text, pattern, wild⟩) := by
  cases wild with
  | false => exact .plain
  | true =>
    rw [combinationArguments, if_pos rfl, matches?_eq]
    cases read : PathPattern.read (context.fullPattern pattern) with
    | error error => exact .invalid read
    | ok parsed =>
      have sorted := pairwise_sorted ((parsed.paths context.tree).map (context.shown pattern))
      have all := List.mergeSort_perm
        ((parsed.paths context.tree).map (context.shown pattern)) fun left right => left ≤ right
      rw [Except.map]
      generalize ((parsed.paths context.tree).map (context.shown pattern)).mergeSort
        (fun left right => left ≤ right) = paths at *
      cases paths with
      | nil =>
        have nothing : parsed.paths context.tree = [] := by simpa using all
        cases policy : context.noMatch with
        | literal => simpa [policy] using Gives.literal read nothing policy
        | drop => simpa [policy] using Gives.dropped read nothing policy
      | cons path others => exact .found read all sorted (List.cons_ne_nil _ _)

/-- What the choices of a word give, one after the other. -/
def results (context : ExpansionContext) (word : ExpandedWord) :
    List (Except ProcessError (List String)) :=
  (choices (word.counts context.environment)).map fun choice => context.combinationArguments
    ⟨word.textOf context.environment choice, word.patternOf context.environment choice,
      word.isWild⟩

theorem arguments_eq_results (context : ExpansionContext) (word : ExpandedWord) :
    context.arguments word = ((context.results word).mapM id).map List.flatten := by
  rw [arguments_eq, combinations_eq, results, List.mapM_map, List.mapM_map]
  rfl

theorem arguments_of_tame (tame : word.isWild = false) :
    context.arguments word =
      .ok ((choices (word.counts context.environment)).map (word.textOf context.environment)) := by
  have each : context.results word =
      (choices (word.counts context.environment)).map fun choice =>
        .ok [word.textOf context.environment choice] := by
    rw [results, tame]
    rfl
  rw [arguments_eq_results, each, List.mapM_map]
  exact flatten_mapM_single _ _

/-- A splice without items takes all arguments away, whatever stands beside it. -/
theorem arguments_of_empty_splice (empty : .items [] ∈ word) : context.arguments word = .ok [] := by
  have zero : 0 ∈ word.counts context.environment := List.mem_map.2 ⟨_, empty, rfl⟩
  rw [arguments_eq_results, results, choices_eq_nil_of_zero_mem zero]
  rfl

end ExpansionContext

open ExpansionContext in
/--
The arguments of a word are the row-major outer product of its pieces: what the
choices of one alternative per piece give, with all choices in the order of a
dictionary.  The first choice that fails fails the word.  A word without a live
wildcard gives one argument per choice, a splice without items gives none, a
word without pieces gives one empty argument, and text that is not live stands
for itself.
-/
theorem word_arguments_are_the_outer_product (context : ExpansionContext) (word : ExpandedWord) :
    ∃ order : List (List Nat), order.Pairwise (· < ·) ∧
      (∀ choice, choice ∈ order ↔
        List.Forall₂ (fun position piece =>
          position < (WordPiece.texts context.environment piece).length) choice word) ∧
      (∃ results,
        List.Forall₂ (fun choice => context.Gives (word.textOf context.environment choice)
          (word.patternOf context.environment choice) word.isWild) order results ∧
        context.arguments word = (results.mapM id).map List.flatten) ∧
      (word.isWild = false →
        context.arguments word = .ok (order.map (word.textOf context.environment)) ∧
          order.length = (word.map fun piece => (piece.texts context.environment).length).prod) ∧
      (.items [] ∈ word → context.arguments word = .ok []) ∧
      context.arguments [] = .ok [""] ∧
      (∀ quoted, context.arguments [.text quoted false] = .ok [quoted]) ∧
      ∀ spliced, context.arguments [.items spliced] = .ok spliced := by
  refine ⟨choices (word.counts context.environment), pairwise_choices _, ?_,
    ⟨context.results word, ?_, arguments_eq_results context word⟩, ?_, arguments_of_empty_splice,
    ?_, ?_, ?_⟩
  · intro choice
    rw [mem_choices_iff, ExpandedWord.counts, List.forall₂_map_right_iff]
  · rw [results, List.forall₂_map_right_iff, List.forall₂_same]
    intro choice _
    exact gives_combinationArguments _ _ _ _
  · intro tame
    exact ⟨arguments_of_tame tame, length_choices _⟩
  · rfl
  · intro quoted
    rw [arguments_of_tame rfl]
    simp [ExpandedWord.counts, ExpandedWord.textOf, WordPiece.texts, WordPiece.textAt, choices]
  · intro spliced
    rfl

end HybridShell
