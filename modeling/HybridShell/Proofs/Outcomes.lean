import Mathlib.Data.List.Forall2

/-!
# Successful steps

Readers are chains of steps that may fail.  When a chain succeeds, each of
its steps has succeeded; these lemmas take a chain apart in that case.
-/

namespace Except

universe u v w

variable {ε : Type u} {α : Type v} {β : Type w}

variable {result : Except ε α}

theorem map_eq_ok_iff {f : α → β} {value : β} :
    result.map f = .ok value ↔ ∃ before, result = .ok before ∧ f before = value := by
  cases result <;> simp [Except.map]

theorem eq_error_of_map {f : α → β} {result : Except ε α} {error : ε}
    (failed : result.map f = .error error) : result = .error error := by
  cases result with
  | error other =>
    cases failed
    rfl
  | ok value => cases failed

theorem mapError_eq_ok_iff {ε' : Type w} {f : ε → ε'} {value : α} :
    result.mapError f = .ok value ↔ result = .ok value := by
  cases result with
  | error error => exact iff_of_false nofun nofun
  | ok found =>
    change ok found = ok value ↔ ok found = ok value
    rw [ok.injEq, ok.injEq]

theorem bind_eq_ok_iff {β : Type v} {next : α → Except ε β} {value : β} :
    result >>= next = .ok value ↔ ∃ before, result = .ok before ∧ next before = .ok value := by
  cases result <;> simp [bind, Except.bind]

theorem bind_eq_error_iff {β : Type v} {next : α → Except ε β} {error : ε} :
    result >>= next = .error error ↔
      result = .error error ∨ ∃ before, result = .ok before ∧ next before = .error error := by
  cases result <;> simp [bind, Except.bind]

theorem forall₂_of_mapM {ι : Type w} {read : ι → Except ε α} {items : List ι} {results : List α}
    (ok : items.mapM read = .ok results) :
    List.Forall₂ (fun item result => read item = .ok result) items results := by
  induction items generalizing results with
  | nil =>
    cases ok
    exact .nil
  | cons item rest ih =>
    rw [List.mapM_cons] at ok
    obtain ⟨result, first, ok⟩ := bind_eq_ok_iff.mp ok
    obtain ⟨others, later, ok⟩ := bind_eq_ok_iff.mp ok
    cases ok
    exact .cons first (ih later)

theorem exists_of_isOk (ok : result.isOk = true) : ∃ value, result = .ok value := by
  cases result with
  | error error => cases ok
  | ok value => exact ⟨value, rfl⟩

theorem exists_of_toOption_any {test : α → Bool} (found : result.toOption.any test = true) :
    ∃ value, result = .ok value ∧ test value = true := by
  cases result with
  | error error => cases found
  | ok value => exact ⟨value, rfl, found⟩

end Except
