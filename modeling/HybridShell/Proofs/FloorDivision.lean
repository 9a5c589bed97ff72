import HybridShell.Value.Operators
import Mathlib.Data.Rat.Floor

/-!
# Division rounded down

The quotient and the remainder come from two divisions, a Euclidean one and one
towards zero, each with a correction.  Over the integers they are the floor of
the quotient and what it leaves.
-/

namespace HybridShell

namespace Word64

variable {left right quotient : Int64}

theorem toInt_ne_zero (nonzero : right ≠ 0) : right.toInt ≠ 0 :=
  fun same => nonzero (Int64.toInt_inj.mp same)

/-- A Euclidean quotient out of range is the negative of the least word. -/
theorem exists_euclideanDiv? (nonzero : right ≠ 0)
    (within : ¬ (left = Int64.minValue ∧ right = -1)) :
    ∃ quotient, euclideanDiv? left right = some quotient := by
  have least := Int64.toInt_minValue
  have greatest := Int64.toInt_maxValue
  have lower := left.le_toInt
  have upper := left.toInt_lt
  have small := Int.natAbs_ediv_le_natAbs left.toInt right.toInt
  have fits : left.toInt / right.toInt ≠ 2 ^ 63 := by
    intro large
    have divides := Int.mul_ediv_add_emod left.toInt right.toInt
    have nonneg := Int.emod_nonneg left.toInt (toInt_ne_zero nonzero)
    have below := Int.emod_lt left.toInt (toInt_ne_zero nonzero)
    rw [large] at divides
    have one : (-1 : Int64).toInt = -1 := rfl
    exact within ⟨Int64.toInt_inj.mp (by omega), Int64.toInt_inj.mp (by omega)⟩
  refine ⟨.ofInt (left.toInt / right.toInt), ?_⟩
  rw [euclideanDiv?, ofInt?, if_pos (by omega)]

theorem toInt_euclideanMod (nonzero : right ≠ 0) :
    (euclideanMod left right).toInt = left.toInt % right.toInt := by
  have nonneg := Int.emod_nonneg left.toInt (toInt_ne_zero nonzero)
  have below := Int.emod_lt left.toInt (toInt_ne_zero nonzero)
  have lower := right.le_toInt
  have upper := right.toInt_lt
  exact Int64.toInt_ofInt_of_le (by omega) (by omega)

theorem toInt_sub_one (divides : euclideanDiv? left right = some quotient) (negative : right < 0) :
    (quotient - 1).toInt = quotient.toInt - 1 := by
  have negative : right.toInt < 0 := Int64.lt_iff_toInt_lt.mp negative
  have upper := left.toInt_lt
  have least := quotient.le_toInt
  have greatest := quotient.toInt_lt
  have above : quotient.toInt ≠ -2 ^ 63 := by
    intro same
    have exact := Int.mul_ediv_add_emod left.toInt right.toInt
    have nonneg := Int.emod_nonneg left.toInt (Int.ne_of_lt negative)
    rw [← ofInt?_eq_some_iff.mp divides, same] at exact
    omega
  grind [Int64.toInt_sub]

theorem toInt_add_divisor {remainder : Int64} (opposite : ¬ (remainder < 0 ↔ right < 0)) :
    (remainder + right).toInt = remainder.toInt + right.toInt := by
  rw [Int64.lt_iff_toInt_lt, Int64.lt_iff_toInt_lt, Int64.toInt_zero] at opposite
  have lower := right.le_toInt
  have upper := right.toInt_lt
  have least := remainder.le_toInt
  have greatest := remainder.toInt_lt
  grind [Int64.toInt_add]

theorem euclideanMod_eq_zero_iff (nonzero : right ≠ 0) :
    euclideanMod left right = 0 ↔ right.toInt ∣ left.toInt := by
  rw [← Int64.toInt_inj, toInt_euclideanMod nonzero]
  exact Int.dvd_iff_emod_eq_zero.symm

theorem floorDiv?_eq_some (nonzero : right ≠ 0)
    (divides : euclideanDiv? left right = some quotient) :
    ∃ floor, floorDiv? left right = some floor ∧ floor.toInt = left.toInt.fdiv right.toInt := by
  have exact := ofInt?_eq_some_iff.mp divides
  have sign : right < 0 ↔ right.toInt < 0 := Int64.lt_iff_toInt_lt
  have divisible : euclideanMod left right = 0 ↔ right.toInt ∣ left.toInt :=
    euclideanMod_eq_zero_iff nonzero
  rw [floorDiv?, divides, Int.fdiv_eq_ediv]
  refine ⟨_, rfl, ?_⟩
  split
  · rename_i corrected
    rw [toInt_sub_one divides corrected.1, if_neg (by grind), exact]
  · rw [if_pos (by grind), exact, Int.sub_zero]

theorem fmod_eq_tmod_corrected (dividend divisor : Int) :
    dividend.fmod divisor =
      if dividend.tmod divisor ≠ 0 ∧ ¬ (dividend.tmod divisor < 0 ↔ divisor < 0) then
        dividend.tmod divisor + divisor
      else dividend.tmod divisor := by
  have divisible := Int.dvd_iff_tmod_eq_zero (a := divisor) (b := dividend)
  have positive := Int.tmod_nonneg (a := dividend) divisor
  have negative := Int.tmod_nonneg (a := -dividend) divisor
  rw [Int.neg_tmod] at negative
  grind

theorem floorMod?_eq_some (within : ¬ (left = Int64.minValue ∧ right = -1)) :
    ∃ rest, floorMod? left right = some rest ∧ rest.toInt = left.toInt.fmod right.toInt := by
  have exact : (left % right).toInt = left.toInt.tmod right.toInt := Int64.toInt_mod left right
  have sign (word : Int64) : word < 0 ↔ word.toInt < 0 := Int64.lt_iff_toInt_lt
  have zero : left % right = 0 ↔ (left % right).toInt = 0 := Int64.toInt_inj.symm
  rw [floorMod?, truncatedMod?, if_neg within, fmod_eq_tmod_corrected, ← exact]
  refine ⟨_, rfl, ?_⟩
  dsimp only
  split
  · rename_i corrected
    rw [toInt_add_divisor corrected.2, if_pos (by grind)]
  · rw [if_neg (by grind)]

theorem fdiv_eq_floor (dividend divisor : Int) :
    dividend.fdiv divisor = ⌊(dividend : ℚ) / divisor⌋ := by
  obtain ⟨size, rfl | rfl⟩ := divisor.eq_nat_or_neg
  · grind [Int.cast_natCast, Rat.floor_intCast_div_natCast]
  · rw [← Int.neg_fdiv_neg, Int.neg_neg, Int.fdiv_eq_ediv_of_nonneg _ (Int.natCast_nonneg size),
      ← Rat.floor_intCast_div_natCast, Int.cast_neg, Int.cast_neg, Int.cast_natCast, neg_div,
      div_neg]

theorem natAbs_fmod_lt (dividend : Int) {divisor : Int} (nonzero : divisor ≠ 0) :
    (dividend.fmod divisor).natAbs < divisor.natAbs ∧
      (dividend.fmod divisor = 0 ∨ (dividend.fmod divisor < 0 ↔ divisor < 0)) := by
  have nonneg := Int.emod_nonneg dividend nonzero
  have below := Int.emod_lt dividend nonzero
  rw [Int.fmod_eq_emod]
  split_ifs <;> omega

end Word64

namespace Value

open Word64 in
/--
Division of two words rounds down, and its remainder has the sign of the
divisor.  Only the negative of the least word is out of range, and none of the
steps in between wraps.
-/
theorem division_rounds_down (left right : Int64) :
    if right = 0 then
      binary .floorDiv (int left) (int right) = .error (.value .divisionByZero) ∧
        binary .mod (int left) (int right) = .error (.value .divisionByZero)
    else if left = Int64.minValue ∧ right = -1 then
      binary .floorDiv (int left) (int right) = .error (.value .overflow) ∧
        binary .mod (int left) (int right) = .error (.value .overflow)
    else
      ∃ quotient rest,
        binary .floorDiv (int left) (int right) = .ok (int quotient) ∧
          binary .mod (int left) (int right) = .ok (int rest) ∧
          left.toInt = right.toInt * quotient.toInt + rest.toInt ∧
          rest.toInt.natAbs < right.toInt.natAbs ∧
          (rest = 0 ∨ (rest < 0 ↔ right < 0)) ∧
          quotient.toInt = ⌊(left.toInt : ℚ) / right.toInt⌋ ∧
          (∀ first ∈ euclideanDiv? left right, first.toInt = left.toInt / right.toInt ∧
            (right < 0 → (first - 1).toInt = first.toInt - 1)) ∧
          (euclideanMod left right).toInt = left.toInt % right.toInt ∧
          ∀ first ∈ truncatedMod? left right, first.toInt = left.toInt.tmod right.toInt ∧
            (¬ (first < 0 ↔ right < 0) → (first + right).toInt = first.toInt + right.toInt) := by
  have divides : binary .floorDiv (int left) (int right) =
      if right = 0 then .error (.value .divisionByZero) else exactly (floorDiv? left right) := rfl
  have leaves : binary .mod (int left) (int right) =
      if right = 0 then .error (.value .divisionByZero) else exactly (floorMod? left right) := rfl
  rw [divides, leaves]
  split_ifs with zero beyond
  · exact ⟨rfl, rfl⟩
  · obtain ⟨rfl, rfl⟩ := beyond
    exact ⟨rfl, rfl⟩
  · obtain ⟨first, fits⟩ := exists_euclideanDiv? zero beyond
    obtain ⟨quotient, rounds, floor⟩ := floorDiv?_eq_some zero fits
    obtain ⟨rest, corrected, exact⟩ := floorMod?_eq_some beyond
    obtain ⟨small, sign⟩ := natAbs_fmod_lt left.toInt (toInt_ne_zero zero)
    rw [← exact] at small sign
    rw [rounds, corrected]
    refine ⟨quotient, rest, rfl, rfl, ?_, small, ?_, ?_, ?_, toInt_euclideanMod zero, ?_⟩
    · rw [floor, exact, Int.mul_fdiv_add_fmod]
    · rw [← Int64.toInt_inj, Int64.lt_iff_toInt_lt, Int64.lt_iff_toInt_lt]
      exact sign
    · rw [floor, fdiv_eq_floor]
    · intro first divides
      exact ⟨ofInt?_eq_some_iff.mp divides, toInt_sub_one divides⟩
    · intro first leaves
      rw [truncatedMod?, if_neg beyond] at leaves
      cases leaves
      exact ⟨Int64.toInt_mod left right, toInt_add_divisor⟩

end Value

end HybridShell
