import HybridShell.Search.Resolution
import Mathlib.Data.List.Perm.Subperm

/-!
# Following aliases

A template replaces the first word of a command line, so what an alias table
does with a command line is decided by the names that come to stand first, one
after the other.  They stop at a name that no template leads on from, or they
come back to a name.  Either happens within as many steps as there are
aliases, and what is left of the command line is the last template, with the
tails of the earlier ones and the original arguments behind it.
-/

namespace HybridShell

namespace AliasTable

def next? (aliases : AliasTable) (name : String) : Option String :=
  match aliases.get? name with
  | some (.template (word :: _)) => if word = name then none else some word
  | _ => none

/-- The names that come to stand first, from a given one on, the latest first. -/
inductive Heads (aliases : AliasTable) (name : String) : List String → Prop
  | start : Heads aliases name [name]
  | next {current word : String} {earlier : List String}
      (heads : Heads aliases name (current :: earlier)) (leads : aliases.next? current = some word) :
      Heads aliases name (word :: current :: earlier)

/-- The names that come to stand first come back to one of them. -/
def Revisits (aliases : AliasTable) (name : String) : Prop :=
  ∃ heads, aliases.Heads name heads ∧ ¬ heads.Nodup

/-- The names that come to stand first end with the first of the given ones. -/
def StopsAt (aliases : AliasTable) (name last : String) (earlier : List String) : Prop :=
  aliases.Heads name (last :: earlier) ∧ aliases.next? last = none

def template? (aliases : AliasTable) (name : String) : Option (List String) :=
  match aliases.get? name with
  | some (.template words) => some words
  | _ => none

/--
A command line after templates were applied, the latest given first: the
latest in full, and of the earlier ones and of the command line the tails.
-/
def rewritten (arguments : List String) : List (List String) → List String
  | [] => arguments
  | last :: earlier => last ++ (earlier.flatMap List.tail ++ arguments.tail)

/-- The alias that a command line is reported to use. -/
def reported (aliases : AliasTable) (name : String) : Option String :=
  if aliases.contains name then some name else none

/-- What a name stands for itself, rather than for words. -/
def command? (aliases : AliasTable) (name : String) : Option Alias :=
  match aliases.get? name with
  | some (.template _) => none
  | found => found

/-- The resolution of a command line whose first name no template leads on from. -/
def resolutionAt (aliases : AliasTable) (cache : SearchCache) (tree : FileTree)
    (searchPath : Option String) (directory : String) (name last : String)
    (arguments : List String) : Except ProcessError Resolution × SearchCache :=
  match aliases.command? last with
  | some (.callable callable) =>
    (.ok ⟨arguments, .callable callable, aliases.reported name⟩, cache)
  | some (.nested code) => (.ok ⟨arguments, .nested code, aliases.reported name⟩, cache)
  | _ =>
    let (found, after) := cache.locate tree (arguments.headD "") searchPath directory
    (found.map fun path => ⟨arguments, .external path, aliases.reported name⟩, after)

variable {aliases : AliasTable} {name current last word : String} {earlier : List String}

theorem next?_eq_some_iff :
    aliases.next? name = some word ↔
      word ≠ name ∧ ∃ words, aliases.get? name = some (.template (word :: words)) := by
  unfold next?
  grind

theorem mem_keys_of_next? (leads : aliases.next? name = some word) : name ∈ aliases.keys := by
  obtain ⟨_, words, found⟩ := next?_eq_some_iff.1 leads
  obtain ⟨entry, present, _⟩ := Option.map_eq_some_iff.1 found
  have named : entry.1 = name := by simpa using List.find?_some present
  exact List.mem_map.2 ⟨entry, List.mem_of_find?_eq_some present, named⟩

namespace Heads

theorem eq_of_single (heads : aliases.Heads name [current]) : current = name := by
  cases heads
  rfl

theorem uncons (heads : aliases.Heads name (word :: current :: earlier)) :
    aliases.Heads name (current :: earlier) ∧ aliases.next? current = some word := by
  cases heads with
  | next heads leads => exact ⟨heads, leads⟩

variable {heads : List String}

theorem exists_next {head : String} (isHeads : aliases.Heads name (current :: heads))
    (earlierHead : head ∈ heads) : ∃ word ∈ current :: heads, aliases.next? head = some word := by
  induction heads generalizing current with
  | nil => simp at earlierHead
  | cons previous older ih =>
    obtain ⟨before, leads⟩ := isHeads.uncons
    grind

/-- Once a name has come back, every later head has been there before. -/
theorem mem_of_not_nodup (isHeads : aliases.Heads name (current :: heads))
    (repeats : ¬ (current :: heads).Nodup) : current ∈ heads := by
  induction heads generalizing current with
  | nil => simp at repeats
  | cons previous older ih =>
    by_contra fresh
    obtain ⟨before, leads⟩ := isHeads.uncons
    have earlierRepeats : ¬ (previous :: older).Nodup := fun distinct =>
      repeats (List.nodup_cons.2 ⟨fresh, distinct⟩)
    obtain ⟨word, found, leadsOn⟩ := before.exists_next (ih before earlierRepeats)
    simp_all

theorem exists_first_repeat (isHeads : aliases.Heads name heads) (repeats : ¬ heads.Nodup) :
    ∃ again earlier, aliases.Heads name (again :: earlier) ∧ earlier.Nodup ∧ again ∈ earlier := by
  induction isHeads with
  | start => simp at repeats
  | @next current word earlier heads leads ih =>
    by_cases distinct : (current :: earlier).Nodup
    · exact ⟨word, current :: earlier, heads.next leads, distinct,
        (heads.next leads).mem_of_not_nodup repeats⟩
    · exact ih distinct

theorem length_le (isHeads : aliases.Heads name (current :: earlier)) (distinct : earlier.Nodup) :
    earlier.length ≤ aliases.entries.length := by
  have named : earlier ⊆ aliases.keys := by
    intro head among
    obtain ⟨word, _, leads⟩ := isHeads.exists_next among
    exact mem_keys_of_next? leads
  calc
    earlier.length ≤ aliases.keys.length := (List.subperm_of_subset distinct named).length_le
    _ = aliases.entries.length := by simp [Dictionary.keys]

end Heads

theorem StopsAt.nodup (stops : aliases.StopsAt name last earlier) : (last :: earlier).Nodup := by
  obtain ⟨heads, ends⟩ := stops
  by_contra repeats
  obtain ⟨word, _, leads⟩ := heads.exists_next (heads.mem_of_not_nodup repeats)
  simp [ends] at leads

/-- Heads that are all different go on, unless they stop or come back to a name. -/
theorem exists_heads_of_length (aliases : AliasTable) (name : String) (count : Nat) :
    (∃ last earlier, aliases.StopsAt name last earlier) ∨ aliases.Revisits name ∨
      ∃ current earlier, aliases.Heads name (current :: earlier) ∧ earlier.Nodup ∧
        earlier.length = count := by
  induction count with
  | zero => exact .inr (.inr ⟨name, [], .start, List.nodup_nil, rfl⟩)
  | succ count ih =>
    rcases ih with stops | repeats | ⟨current, earlier, heads, distinct, rfl⟩
    · exact .inl stops
    · exact .inr (.inl repeats)
    · by_cases again : (current :: earlier).Nodup
      · cases leads : aliases.next? current with
        | none => exact .inl ⟨current, earlier, heads, leads⟩
        | some word => exact .inr (.inr ⟨word, current :: earlier, heads.next leads, again, rfl⟩)
      · exact .inr (.inl ⟨_, heads, again⟩)

/-- The heads stop or come back to a name: there are not enough names to go on for ever. -/
theorem stops_or_revisits (aliases : AliasTable) (name : String) :
    (∃ last earlier, aliases.StopsAt name last earlier) ∨ aliases.Revisits name := by
  rcases exists_heads_of_length aliases name (aliases.entries.length + 1) with
    stops | repeats | ⟨current, earlier, heads, distinct, length⟩
  · exact .inl stops
  · exact .inr repeats
  · have := heads.length_le distinct
    omega

/-- What stands behind the first name once the templates of some names were applied. -/
def tails (aliases : AliasTable) (names rest : List String) : List String :=
  (names.filterMap aliases.template?).flatMap List.tail ++ rest

theorem tails_cons {words rest : List String} (names : List String)
    (found : aliases.get? name = some (.template (word :: words))) :
    aliases.tails (name :: names) rest = words ++ aliases.tails names rest := by
  simp [template?, found, tails]

def reportedAfter (name : String) (names : List String) : Option String :=
  if names = [] then none else some name

theorem getD_reportedAfter (heads : aliases.Heads name (current :: earlier)) :
    (reportedAfter name earlier).getD current = name := by
  cases earlier with
  | nil => exact heads.eq_of_single
  | cons previous older => rfl

end AliasTable

namespace AliasExpansion

open AliasTable

variable {aliases : AliasTable} {name current last word : String} {earlier rest : List String}

theorem expand_next {visited : List String} {words : List String} (first : Option String)
    (rounds : Nat) (rest : List String) (fresh : current ∉ visited) (other : word ≠ current)
    (found : aliases.get? current = some (.template (word :: words))) :
    expand aliases visited first (rounds + 1) (current :: rest) =
      expand aliases (current :: visited) (some (first.getD current)) rounds
        (word :: (words ++ rest)) := by
  simp [expand, fresh, found, other]

/-- The rounds up to a head take the command line to that head. -/
theorem expand_of_heads (heads : aliases.Heads name (current :: earlier))
    (distinct : earlier.Nodup) (rounds : Nat) :
    expand aliases [] none (earlier.length + rounds) (name :: rest) =
      expand aliases earlier (reportedAfter name earlier) rounds
        (current :: aliases.tails earlier rest) := by
  -- Along the heads: the names that were replaced are the visited ones.
  induction earlier generalizing current rounds with
  | nil =>
    rw [heads.eq_of_single, List.length_nil, Nat.zero_add]
    rfl
  | cons previous older ih =>
    obtain ⟨before, leads⟩ := heads.uncons
    obtain ⟨fresh, olderDistinct⟩ := List.nodup_cons.1 distinct
    obtain ⟨other, words, found⟩ := next?_eq_some_iff.1 leads
    have shifted : (previous :: older).length + rounds = older.length + (rounds + 1) := by grind
    rw [shifted, ih before olderDistinct, expand_next _ _ _ fresh other found,
      getD_reportedAfter before, tails_cons _ found]
    rfl

/-- The rounds end with a cycle at the first name that comes back. -/
theorem expand_of_repeat (heads : aliases.Heads name (current :: earlier))
    (distinct : earlier.Nodup) (repeats : current ∈ earlier) (rounds : Nat) :
    expand aliases [] none (earlier.length + (rounds + 1)) (name :: rest) =
      some (.error (.aliasCycle current)) := by
  rw [expand_of_heads heads distinct]
  simp [expand, repeats]

theorem expand_of_emptyAlias (heads : aliases.Heads name (last :: earlier))
    (distinct : (last :: earlier).Nodup) (empty : aliases.get? last = some (.template []))
    (rounds : Nat) :
    expand aliases [] none (earlier.length + (rounds + 1)) (name :: rest) =
      some (.error (.malformed (.emptyAlias last))) := by
  obtain ⟨fresh, earlierDistinct⟩ := List.nodup_cons.1 distinct
  rw [expand_of_heads heads earlierDistinct]
  simp [expand, fresh, empty]

theorem ofTable_of_expand (heads : aliases.Heads name (current :: earlier))
    (distinct : earlier.Nodup) {answer : Except ProcessError AliasExpansion}
    (answers : ∀ rounds, expand aliases [] none (earlier.length + (rounds + 1)) (name :: rest) =
      some answer) :
    expand aliases [] none (aliases.entries.length + 1) (name :: rest) = some answer ∧
      ofTable aliases (name :: rest) = answer := by
  have enough := heads.length_le distinct
  have split : aliases.entries.length + 1 =
      earlier.length + (aliases.entries.length - earlier.length + 1) := by omega
  have expanded : expand aliases [] none (aliases.entries.length + 1) (name :: rest) =
      some answer := by
    rw [split]
    exact answers _
  exact ⟨expanded, by rw [ofTable, expanded, Option.getD_some]⟩

end AliasExpansion

namespace AliasTable

open AliasExpansion

variable {aliases : AliasTable} {name current last word : String} {earlier rest : List String}

theorem Heads.name_mem {heads : List String} (isHeads : aliases.Heads name heads) :
    name ∈ heads := by
  induction isHeads with
  | start => exact List.mem_singleton_self name
  | next heads leads ih => exact List.mem_cons_of_mem _ ih

theorem contains_of_next? (leads : aliases.next? name = some word) :
    aliases.contains name = true := by
  obtain ⟨_, words, found⟩ := next?_eq_some_iff.1 leads
  simp [Dictionary.contains, found]

theorem contains_of_replaced (heads : aliases.Heads name (current :: earlier))
    (replaced : earlier ≠ []) : aliases.contains name = true := by
  obtain ⟨previous, older, rfl⟩ := List.exists_cons_of_ne_nil replaced
  obtain ⟨word, _, leads⟩ := heads.exists_next heads.uncons.1.name_mem
  exact contains_of_next? leads

theorem reportedAfter_eq (heads : aliases.Heads name (last :: earlier))
    (unbound : aliases.get? last = none) : reportedAfter name earlier = aliases.reported name := by
  cases earlier with
  | nil =>
    obtain rfl := heads.eq_of_single
    simp [reported, reportedAfter, Dictionary.contains, unbound]
  | cons previous older =>
    simp [reported, reportedAfter, contains_of_replaced heads (List.cons_ne_nil _ _)]

theorem reported_eq_some (heads : aliases.Heads name (last :: earlier)) {found : Alias}
    (bound : aliases.get? last = some found) : aliases.reported name = some name := by
  cases earlier with
  | nil =>
    obtain rfl := heads.eq_of_single
    simp [reported, Dictionary.contains, bound]
  | cons previous older => simp [reported, contains_of_replaced heads (List.cons_ne_nil _ _)]

theorem rewritten_of_heads (heads : aliases.Heads name (current :: earlier)) :
    rewritten (name :: rest) (earlier.filterMap aliases.template?) =
      current :: aliases.tails earlier rest := by
  cases earlier with
  | nil =>
    obtain rfl := heads.eq_of_single
    rfl
  | cons previous older =>
    obtain ⟨_, leads⟩ := heads.uncons
    obtain ⟨_, words, found⟩ := next?_eq_some_iff.1 leads
    simp [template?, found, rewritten, tails]

/-- The command line where no template leads on, with the last template if there is one. -/
theorem rewritten_of_stop (stops : aliases.StopsAt name last earlier) :
    rewritten (name :: rest) ((last :: earlier).filterMap aliases.template?) =
      (aliases.template? last).getD [last] ++ aliases.tails earlier rest := by
  cases template : aliases.template? last with
  | none =>
    rw [List.filterMap_cons_none template, rewritten_of_heads stops.1]
    rfl
  | some words => simp [rewritten, tails, List.filterMap_cons_some template]

theorem expand_of_stop (stops : aliases.StopsAt name last earlier)
    (filled : aliases.get? last ≠ some (.template [])) (rounds : Nat) :
    expand aliases [] none (earlier.length + (rounds + 1)) (name :: rest) =
      some (.ok ⟨rewritten (name :: rest) ((last :: earlier).filterMap aliases.template?),
        aliases.command? last, aliases.reported name⟩) := by
  obtain ⟨fresh, distinct⟩ := List.nodup_cons.1 stops.nodup
  have reports := getD_reportedAfter stops.1
  rw [expand_of_heads stops.1 distinct, rewritten_of_stop stops]
  cases found : aliases.get? last with
  | none => simp [expand, fresh, found, template?, command?, reportedAfter_eq stops.1 found]
  | some meaning =>
    have reported := reported_eq_some stops.1 found
    cases meaning with
    | template words =>
      cases words with
      | nil => exact absurd found filled
      | cons word words =>
        -- A template that leads on would not be the last one.
        have itself : word = last := by
          by_contra other
          have leads := next?_eq_some_iff.2 ⟨other, words, found⟩
          simp [stops.2] at leads
        simp [expand, fresh, found, template?, command?, itself, reports, reported]
    | callable entry => simp [expand, fresh, found, template?, command?, reports, reported]
    | nested code => simp [expand, fresh, found, template?, command?, reports, reported]

variable (cache : SearchCache) (tree : FileTree) (searchPath : Option String) (directory : String)

theorem resolve_of_stop (stops : aliases.StopsAt name last earlier)
    (filled : aliases.get? last ≠ some (.template [])) :
    resolve cache tree aliases (name :: rest) searchPath directory =
      aliases.resolutionAt cache tree searchPath directory name last
        (rewritten (name :: rest) ((last :: earlier).filterMap aliases.template?)) := by
  have distinct := (List.nodup_cons.1 stops.nodup).2
  obtain ⟨_, expanded⟩ := ofTable_of_expand stops.1 distinct (expand_of_stop stops filled)
  rw [resolve, expanded, resolutionAt]
  generalize rewritten (name :: rest) ((last :: earlier).filterMap aliases.template?) = arguments
  generalize located : cache.locate tree (arguments.headD "") searchPath directory = answer
  obtain ⟨_ | path, after⟩ := answer <;>
    rcases aliases.command? last with _ | (words | entry | code) <;>
      simp only [located] <;> rfl

theorem resolve_of_repeat (heads : aliases.Heads name (current :: earlier))
    (distinct : earlier.Nodup) (repeats : current ∈ earlier) :
    resolve cache tree aliases (name :: rest) searchPath directory =
      (.error (.aliasCycle current), cache) := by
  have expanded : ofTable aliases (name :: rest) = _ :=
    (ofTable_of_expand heads distinct (expand_of_repeat heads distinct repeats)).2
  rw [resolve, expanded]

theorem resolve_of_emptyAlias (stops : aliases.StopsAt name last earlier)
    (empty : aliases.get? last = some (.template [])) :
    resolve cache tree aliases (name :: rest) searchPath directory =
      (.error (.malformed (.emptyAlias last)), cache) := by
  have distinct := (List.nodup_cons.1 stops.nodup).2
  have expanded : ofTable aliases (name :: rest) = _ :=
    (ofTable_of_expand stops.1 distinct (expand_of_emptyAlias stops.1 stops.nodup empty)).2
  rw [resolve, expanded]

theorem error_of_locate {sought : String} {error : ProcessError}
    (failed : (cache.locate tree sought searchPath directory).1 = .error error) :
    error = .notFound sought ∨ error = .notExecutable sought := by
  have answered : ∀ result, SearchCache.answer sought result = .error error →
      error = .notFound sought ∨ error = .notExecutable sought := by
    intro result failed
    cases result with
    | found path => simp [SearchCache.answer] at failed
    | notExecutable => exact .inr (Except.error.inj failed).symm
    | missing => exact .inl (Except.error.inj failed).symm
  unfold SearchCache.locate SearchCache.locatePath at failed
  grind

theorem error_of_resolutionAt {arguments : List String} {error : ProcessError}
    (failed : (aliases.resolutionAt cache tree searchPath directory name last arguments).1 =
      .error error) :
    ∃ sought, error = .notFound sought ∨ error = .notExecutable sought := by
  unfold resolutionAt at failed
  split at failed
  · simp at failed
  · simp at failed
  · generalize located : cache.locate tree (arguments.headD "") searchPath directory = answer
      at failed
    obtain ⟨_ | path, after⟩ := answer
    · obtain rfl := Except.error.inj failed
      exact ⟨_, error_of_locate cache tree searchPath directory (congrArg Prod.fst located)⟩
    · simp [Except.map] at failed

theorem resolve_eq_aliasCycle_iff :
    (∃ again, (resolve cache tree aliases (name :: rest) searchPath directory).1 =
      .error (.aliasCycle again)) ↔ aliases.Revisits name := by
  constructor
  · rintro ⟨again, failed⟩
    rcases stops_or_revisits aliases name with ⟨last, earlier, stops⟩ | repeats
    · by_cases empty : aliases.get? last = some (.template [])
      · rw [resolve_of_emptyAlias cache tree searchPath directory stops empty] at failed
        simp at failed
      · rw [resolve_of_stop cache tree searchPath directory stops empty] at failed
        have searched := error_of_resolutionAt cache tree searchPath directory failed
        simp at searched
    · exact repeats
  · rintro ⟨heads, isHeads, repeats⟩
    obtain ⟨again, earlier, first, distinct, among⟩ := isHeads.exists_first_repeat repeats
    exact ⟨again, by rw [resolve_of_repeat cache tree searchPath directory first distinct among]⟩

theorem resolve_eq_emptyAlias_iff (empty : String) :
    (resolve cache tree aliases (name :: rest) searchPath directory).1 =
        .error (.malformed (.emptyAlias empty)) ↔
      ∃ earlier, aliases.StopsAt name empty earlier ∧
        aliases.get? empty = some (.template []) := by
  constructor
  · intro failed
    rcases stops_or_revisits aliases name with ⟨last, earlier, stops⟩ | ⟨heads, isHeads, repeats⟩
    · by_cases found : aliases.get? last = some (.template [])
      · rw [resolve_of_emptyAlias cache tree searchPath directory stops found] at failed
        grind
      · rw [resolve_of_stop cache tree searchPath directory stops found] at failed
        have searched := error_of_resolutionAt cache tree searchPath directory failed
        simp at searched
    · obtain ⟨again, earlier, first, distinct, among⟩ := isHeads.exists_first_repeat repeats
      rw [resolve_of_repeat cache tree searchPath directory first distinct among] at failed
      simp at failed
  · rintro ⟨earlier, stops, found⟩
    rw [resolve_of_emptyAlias cache tree searchPath directory stops found]

/-- One round more than there are aliases is enough for an answer. -/
theorem exists_expansion (aliases : AliasTable) (name : String) (rest : List String) :
    ∃ answer, expand aliases [] none (aliases.entries.length + 1) (name :: rest) = some answer ∧
      ofTable aliases (name :: rest) = answer := by
  rcases stops_or_revisits aliases name with ⟨last, earlier, stops⟩ | ⟨heads, isHeads, repeats⟩
  · have distinct := (List.nodup_cons.1 stops.nodup).2
    by_cases empty : aliases.get? last = some (.template [])
    · exact ⟨_, ofTable_of_expand stops.1 distinct
        (expand_of_emptyAlias stops.1 stops.nodup empty)⟩
    · exact ⟨_, ofTable_of_expand stops.1 distinct (expand_of_stop stops empty)⟩
  · obtain ⟨again, earlier, first, distinct, among⟩ := isHeads.exists_first_repeat repeats
    exact ⟨_, ofTable_of_expand first distinct (expand_of_repeat first distinct among)⟩

end AliasTable

/--
Resolving a command line follows its heads.  It takes at most one round more
than there are aliases.  It reports a cycle just when a head comes back, and
an empty alias just when the heads stop at one.  Where they stop at another
name, the arguments are those that the templates leave, and the command is
what the name stands for, or what is found by that name.
-/
theorem resolve_follows_templates (cache : SearchCache) (tree : FileTree) (aliases : AliasTable)
    (name : String) (rest : List String) (searchPath : Option String) (directory : String) :
    (∃ answer,
      AliasExpansion.expand aliases [] none (aliases.entries.length + 1) (name :: rest) =
          some answer ∧
        AliasExpansion.ofTable aliases (name :: rest) = answer) ∧
      ((∃ again, (resolve cache tree aliases (name :: rest) searchPath directory).1 =
        .error (.aliasCycle again)) ↔ aliases.Revisits name) ∧
      (∀ empty, (resolve cache tree aliases (name :: rest) searchPath directory).1 =
          .error (.malformed (.emptyAlias empty)) ↔
        ∃ earlier, aliases.StopsAt name empty earlier ∧
          aliases.get? empty = some (.template [])) ∧
      ((∃ last earlier, aliases.StopsAt name last earlier) ∨ aliases.Revisits name) ∧
      ∀ last earlier, aliases.StopsAt name last earlier →
        aliases.get? last ≠ some (.template []) →
          resolve cache tree aliases (name :: rest) searchPath directory =
            aliases.resolutionAt cache tree searchPath directory name last
              (AliasTable.rewritten (name :: rest)
                ((last :: earlier).filterMap aliases.template?)) := by
  refine ⟨AliasTable.exists_expansion aliases name rest,
    AliasTable.resolve_eq_aliasCycle_iff cache tree searchPath directory,
    AliasTable.resolve_eq_emptyAlias_iff cache tree searchPath directory,
    AliasTable.stops_or_revisits aliases name, ?_⟩
  intro last earlier stops filled
  exact AliasTable.resolve_of_stop cache tree searchPath directory stops filled

-- The template of `tool` names itself: it is applied once, also behind another one.
example :
    (AliasExpansion.ofTable
      ⟨[("t", .template ["tool", "-x"]), ("tool", .template ["tool", "--flag"])]⟩
      ["t", "arg"]).toOption.map AliasExpansion.arguments =
        some ["tool", "--flag", "-x", "arg"] := by
  decide

end HybridShell
