import HybridShell.Job.Table
import Mathlib.Data.List.Nodup
import Mathlib.Data.List.Perm.Subperm
import Mathlib.Order.Bounds.Basic

/-!
# Job tables in order

A table is in order when its jobs have different positive numbers and the
order of use lists just these numbers.  Every change of the table keeps it in
order.  In a table in order the marks pick one job each, and a new job gets the
smallest number that is free.
-/

namespace HybridShell

namespace JobTable

/-- The numbers in use, in order. -/
def numbers (table : JobTable) : List Nat :=
  table.jobs.map Job.id

/-- The jobs have different positive numbers in order, and the order of use lists just them. -/
structure WellFormed (table : JobTable) : Prop where
  sorted : table.numbers.Pairwise (· < ·)
  positive : ∀ id ∈ table.numbers, 1 ≤ id
  nodup : table.order.Nodup
  mem_order (id : Nat) : id ∈ table.order ↔ id ∈ table.numbers

variable {table : JobTable} {id : Nat}

theorem wellFormed_empty : WellFormed empty :=
  ⟨.nil, List.forall_mem_nil _, .nil, fun _ => Iff.rfl⟩

theorem contains_iff : table.contains id = true ↔ id ∈ table.numbers := by
  simp [contains, numbers]

theorem contains_eq_false_iff : table.contains id = false ↔ id ∉ table.numbers := by
  rw [← contains_iff, Bool.not_eq_true]

/-! ### Looking up jobs -/

theorem WellFormed.nodup_numbers (wellFormed : table.WellFormed) : table.numbers.Nodup :=
  wellFormed.sorted.imp Nat.ne_of_lt

theorem WellFormed.eq_of_id (wellFormed : table.WellFormed) {first second : Job}
    (mem : first ∈ table.jobs) (other : second ∈ table.jobs) (same : first.id = second.id) :
    first = second :=
  List.inj_on_of_nodup_map wellFormed.nodup_numbers mem other same

variable {job : Job}

theorem get?_eq_some (found : table.get? id = some job) : job ∈ table.jobs ∧ job.id = id := by
  refine ⟨List.mem_of_find?_eq_some found, ?_⟩
  simpa using List.find?_some found

theorem WellFormed.get?_of_mem (wellFormed : table.WellFormed) (mem : job ∈ table.jobs) :
    table.get? job.id = some job := by
  cases found : table.get? job.id with
  | none =>
    have absent := List.find?_eq_none.mp found job mem
    simp at absent
  | some other =>
    obtain ⟨member, same⟩ := get?_eq_some found
    rw [wellFormed.eq_of_id member mem same]

/-! ### Putting jobs into the table -/

variable {other : Job} {jobs : List Job}

theorem mem_place (sorted : (jobs.map Job.id).Pairwise (· < ·)) :
    other ∈ place job jobs ↔ other = job ∨ other ∈ jobs ∧ other.id ≠ job.id := by
  induction jobs with
  | nil => simp [place]
  | cons first rest ih =>
    rw [List.map_cons, List.pairwise_cons] at sorted
    unfold place
    grind

theorem sorted_place (job : Job) (sorted : (jobs.map Job.id).Pairwise (· < ·)) :
    ((place job jobs).map Job.id).Pairwise (· < ·) := by
  induction jobs with
  | nil => simp [place]
  | cons first rest ih =>
    rw [List.map_cons, List.pairwise_cons] at sorted
    have kept := ih sorted.2
    unfold place
    split
    · rw [List.map_cons, List.pairwise_cons]
      refine ⟨fun id mem => ?_, kept⟩
      obtain ⟨other, placed, rfl⟩ := List.mem_map.mp mem
      rcases (mem_place sorted.2).mp placed with rfl | ⟨later, _⟩
      · assumption
      · exact sorted.1 _ (List.mem_map_of_mem later)
    · split
      · simp_all
      · grind [List.pairwise_cons]

theorem WellFormed.mem_put (wellFormed : table.WellFormed) :
    other ∈ (table.put job).jobs ↔ other = job ∨ other ∈ table.jobs ∧ other.id ≠ job.id :=
  mem_place wellFormed.sorted

theorem mem_order_touch {other : Nat} :
    other ∈ (table.touch id).order ↔ other ∈ table.order ∨ other = id := by
  simp only [touch]
  grind

theorem nodup_touch (nodup : table.order.Nodup) : (table.touch id).order.Nodup := by
  simp only [touch]
  grind

theorem WellFormed.put (wellFormed : table.WellFormed) (positive : 1 ≤ job.id) :
    (table.put job).WellFormed := by
  have placed (id : Nat) :
      id ∈ (table.put job).numbers ↔ id ∈ table.numbers ∨ id = job.id := by
    simp only [numbers, List.mem_map, wellFormed.mem_put]
    grind
  refine ⟨sorted_place job wellFormed.sorted, fun id mem => ?_, nodup_touch wellFormed.nodup,
    fun id => ?_⟩
  · rcases (placed id).mp mem with mem | rfl
    · exact wellFormed.positive id mem
    · exact positive
  · rw [placed, ← wellFormed.mem_order]
    exact mem_order_touch

/-! ### Removing and changing jobs -/

theorem mem_remove : job ∈ (table.remove id).jobs ↔ job ∈ table.jobs ∧ job.id ≠ id := by
  simp [remove]

theorem WellFormed.remove (wellFormed : table.WellFormed) (id : Nat) :
    (table.remove id).WellFormed := by
  have left (other : Nat) :
      other ∈ (table.remove id).numbers ↔ other ∈ table.numbers ∧ other ≠ id := by
    simp only [numbers, List.mem_map, mem_remove]
    grind
  refine ⟨?_, fun other mem => wellFormed.positive other ((left other).mp mem).1,
    wellFormed.nodup.filter _, fun other => ?_⟩
  · exact wellFormed.sorted.sublist (List.filter_sublist.map Job.id)
  · rw [left, ← wellFormed.mem_order]
    simp [JobTable.remove]

theorem mem_removeAll {gone : List Job} :
    job ∈ (gone.foldl (fun current other => current.remove other.id) table).jobs ↔
      job ∈ table.jobs ∧ ∀ other ∈ gone, job.id ≠ other.id := by
  induction gone generalizing table with
  | nil => simp
  | cons first rest ih =>
    rw [List.foldl_cons, ih, mem_remove, List.forall_mem_cons, and_assoc]

theorem WellFormed.removeAll (wellFormed : table.WellFormed) (gone : List Job) :
    (gone.foldl (fun current other => current.remove other.id) table).WellFormed := by
  induction gone generalizing table with
  | nil => exact wellFormed
  | cons first rest ih => exact ih (wellFormed.remove first.id)

@[simp] theorem numbers_setState (state : JobState) :
    (table.setState id state).numbers = table.numbers := by
  simp only [numbers, setState, List.map_map]
  refine List.map_congr_left fun job _ => ?_
  simp only [Function.comp]
  split <;> rfl

theorem WellFormed.setState (wellFormed : table.WellFormed) (id : Nat) (state : JobState) :
    (table.setState id state).WellFormed := by
  refine ⟨?_, ?_, wellFormed.nodup, fun other => ?_⟩
  · rw [numbers_setState]
    exact wellFormed.sorted
  · rw [numbers_setState]
    exact wellFormed.positive
  · rw [numbers_setState]
    exact wellFormed.mem_order other

theorem WellFormed.touch (wellFormed : table.WellFormed) (used : id ∈ table.numbers) :
    (table.touch id).WellFormed := by
  refine ⟨wellFormed.sorted, wellFormed.positive, nodup_touch wellFormed.nodup, fun other => ?_⟩
  rw [mem_order_touch, wellFormed.mem_order]
  exact or_iff_left_of_imp fun same => same ▸ used

/-! ### The smallest free number -/

variable (table) in
theorem freeFrom_spec (tries candidate : Nat) :
    candidate ≤ table.freeFrom tries candidate ∧
      (∀ id, candidate ≤ id → id < table.freeFrom tries candidate → id ∈ table.numbers) ∧
      (table.freeFrom tries candidate ∈ table.numbers →
        table.freeFrom tries candidate = candidate + tries) := by
  induction tries generalizing candidate with
  | zero => grind [freeFrom]
  | succ tries ih =>
    unfold freeFrom
    split
    · next used =>
      have used := contains_iff.mp used
      grind
    · next free =>
      refine ⟨Nat.le_refl _, fun id least below => by omega, fun mem => ?_⟩
      exact absurd (contains_iff.mpr mem) free

theorem nextId_not_mem : table.nextId ∉ table.numbers := by
  intro used
  obtain ⟨_, between, last⟩ := freeFrom_spec table (table.jobs.length + 1) 1
  have reached := last used
  have allUsed : List.range' 1 (table.jobs.length + 1) ⊆ table.numbers := by grind
  have fits := (List.subperm_of_subset List.nodup_range' allUsed).length_le
  simp only [List.length_range', numbers, List.length_map] at fits
  omega

variable (table) in
theorem isLeast_nextId : IsLeast {id | 1 ≤ id ∧ id ∉ table.numbers} table.nextId := by
  obtain ⟨positive, between, _⟩ := freeFrom_spec table (table.jobs.length + 1) 1
  refine ⟨⟨positive, nextId_not_mem⟩, fun id free => ?_⟩
  by_contra below
  exact free.2 (between id free.1 (Nat.lt_of_not_le below))

/-! ### Marks -/

theorem WellFormed.order_perm (wellFormed : table.WellFormed) :
    table.order.Perm table.numbers :=
  (List.perm_ext_iff_of_nodup wellFormed.nodup wellFormed.nodup_numbers).mpr wellFormed.mem_order

theorem WellFormed.length_order (wellFormed : table.WellFormed) :
    table.order.length = table.jobs.length := by
  rw [wellFormed.order_perm.length_eq, numbers, List.length_map]

theorem marker_eq_plus_iff : table.marker id = '+' ↔ table.current? = some id := by
  unfold marker
  grind

theorem marker_eq_minus_iff :
    table.marker id = '-' ↔ table.current? ≠ some id ∧ table.previous? = some id := by
  unfold marker
  grind

/-- A number that the order of use lists belongs to one job. -/
theorem WellFormed.existsUnique_id (wellFormed : table.WellFormed) (used : id ∈ table.order) :
    ∃! job, job ∈ table.jobs ∧ job.id = id := by
  obtain ⟨job, mem, rfl⟩ := List.mem_map.mp ((wellFormed.mem_order id).mp used)
  exact ⟨job, ⟨mem, rfl⟩, fun other both => wellFormed.eq_of_id both.1 mem both.2⟩

theorem WellFormed.existsUnique_plus (wellFormed : table.WellFormed) (some : table.jobs ≠ []) :
    ∃! job, job ∈ table.jobs ∧ table.marker job.id = '+' := by
  have used : table.order ≠ [] := by
    rw [← List.length_pos_iff, wellFormed.length_order, List.length_pos_iff]
    exact some
  have current (id : Nat) : table.marker id = '+' ↔ id = table.order.getLast used := by
    grind [marker_eq_plus_iff, current?]
  simp only [current]
  exact wellFormed.existsUnique_id (List.getLast_mem used)

theorem WellFormed.existsUnique_minus (wellFormed : table.WellFormed)
    (several : 2 ≤ table.jobs.length) :
    ∃! job, job ∈ table.jobs ∧ table.marker job.id = '-' := by
  rw [← wellFormed.length_order] at several
  have used : table.order ≠ [] := List.ne_nil_of_length_pos (by omega)
  have before : table.order.dropLast ≠ [] :=
    List.ne_nil_of_length_pos (by rw [List.length_dropLast]; omega)
  -- the two last numbers differ, so the mark of the current job does not hide the other
  have distinct : table.order.getLast used ≠ table.order.dropLast.getLast before := by
    intro same
    have nodup := wellFormed.nodup
    rw [← List.dropLast_append_getLast used, same] at nodup
    exact (List.disjoint_of_nodup_append nodup) (List.getLast_mem before) List.mem_cons_self
  have previous (id : Nat) :
      table.marker id = '-' ↔ id = table.order.dropLast.getLast before := by
    rw [marker_eq_minus_iff, current?, previous?, List.getLast?_eq_some_getLast used,
      List.getLast?_eq_some_getLast before, Option.some_inj, ne_eq, Option.some_inj]
    constructor
    · exact fun both => both.2.symm
    · rintro rfl
      exact ⟨distinct, rfl⟩
  simp only [previous]
  exact wellFormed.existsUnique_id (List.dropLast_subset _ (List.getLast_mem before))

end JobTable

end HybridShell
