import HybridShell.Value.Operators
import Mathlib.Data.List.Basic
import Mathlib.Order.Defs.PartialOrder

/-!
# Comparisons of plain values

Plain values are integers, texts and lists of such.  The comparison operators
are one partial order on them, whose equality is the equality of values; two
values that the order does not relate cannot be compared either way.
-/

namespace HybridShell

namespace Value

inductive IsPlain : Value → Prop
  | int (value : Int64) : IsPlain (.int value)
  | str (text : String) : IsPlain (.str text)
  | list {items : List Value} (each : ∀ item ∈ items, IsPlain item) : IsPlain (.list items)

theorem IsPlain.cons {first : Value} {rest : List Value}
    (plain : (Value.list (first :: rest)).IsPlain) :
    first.IsPlain ∧ (Value.list rest).IsPlain := by
  cases plain with
  | list each =>
    exact ⟨each first List.mem_cons_self,
      .list fun item among => each item (List.mem_cons_of_mem _ among)⟩

theorem textOrder_eq_compare (left right : List Char) :
    textOrder left right = compare (left.map Char.toNat) (right.map Char.toNat) := by
  induction left generalizing right with
  | nil => cases right <;> rfl
  | cons first lefts ih =>
    cases right with
    | nil => rfl
    | cons second rights =>
      rw [textOrder, List.map_cons, List.map_cons, List.compare_cons_cons, ← ih]
      cases compare first.toNat second.toNat <;> rfl

theorem textOrder_eq_iff {left right : String} :
    textOrder left.toList right.toList = .eq ↔ left = right := by
  have injective : Function.Injective (List.map Char.toNat) :=
    List.map_injective_iff.mpr fun _ _ => Char.toNat_inj.mp
  rw [textOrder_eq_compare, Std.compare_eq_iff_eq, injective.eq_iff, String.toList_inj]

/-! ### The laws of one comparison -/

/-- Comparing the other way reverses the order, and both equalities are equality. -/
structure Lawful (left right : Value) : Prop where
  swap : order? right left = (order? left right).map .swap
  order_eq : order? left right = some .eq ↔ left = right
  equal : equal left right = true ↔ left = right

theorem lawful_of_apart {left right : Value} (first : order? left right = .none)
    (second : order? right left = .none) (unequal : equal left right = false)
    (apart : left ≠ right) : Lawful left right where
  swap := by rw [first, second]; rfl
  order_eq := by simp [first, apart]
  equal := by simp [unequal, apart]

theorem order?_cons_eq_some_iff {left right : Value} {lefts rights : List Value}
    {ordering : Ordering} :
    order? (list (left :: lefts)) (list (right :: rights)) = some ordering ↔
      order? left right = some ordering ∧ ordering ≠ .eq ∨
        order? left right = some .eq ∧ order? (list lefts) (list rights) = some ordering := by
  grind [order?, orderItems?]

theorem lawful_list {lefts rights : List Value}
    (each : ∀ left ∈ lefts, ∀ right ∈ rights, Lawful left right) :
    Lawful (list lefts) (list rights) := by
  induction lefts generalizing rights with
  | nil =>
    cases rights with
    | nil => exact ⟨rfl, by simp [order?, orderItems?], by simp [Value.equal, equalItems]⟩
    | cons right rights =>
      exact ⟨rfl, by simp [order?, orderItems?], by simp [Value.equal, equalItems]⟩
  | cons left lefts ih =>
    cases rights with
    | nil => exact ⟨rfl, by simp [order?, orderItems?], by simp [Value.equal, equalItems]⟩
    | cons right rights =>
      have first := each left List.mem_cons_self right List.mem_cons_self
      have rest := ih fun left among right member =>
        each left (List.mem_cons_of_mem _ among) right (List.mem_cons_of_mem _ member)
      refine ⟨?_, ?_, ?_⟩
      · have swap := rest.swap
        rw [order?, order?] at swap ⊢
        rw [orderItems?, orderItems?, first.swap, swap]
        rcases order? left right with _ | _ | _ | _ <;> rfl
      · rw [order?_cons_eq_some_iff, first.order_eq, rest.order_eq]
        simp
      · have same := rest.equal
        simp_all [Value.equal, equalItems, first.equal]

theorem IsPlain.lawful {left right : Value} (first : left.IsPlain) (second : right.IsPlain) :
    Lawful left right := by
  induction first generalizing right with
  | int value =>
    cases second with
    | int other =>
      refine ⟨congrArg some Std.OrientedCmp.eq_swap, ?_, ?_⟩
      · simp [order?, Int64.toInt_inj]
      · simp [Value.equal]
    | str text => exact lawful_of_apart rfl rfl rfl (by simp)
    | list each => exact lawful_of_apart rfl rfl rfl (by simp)
  | str text =>
    cases second with
    | int value => exact lawful_of_apart rfl rfl rfl (by simp)
    | str other =>
      refine ⟨?_, ?_, ?_⟩
      · simp only [order?, textOrder_eq_compare, Option.map_some]
        exact congrArg some Std.OrientedCmp.eq_swap
      · simp [order?, textOrder_eq_iff]
      · simp [Value.equal]
    | list each => exact lawful_of_apart rfl rfl rfl (by simp)
  | list each ih =>
    cases second with
    | int value => exact lawful_of_apart rfl rfl rfl (by simp)
    | str text => exact lawful_of_apart rfl rfl rfl (by simp)
    | list others =>
      exact lawful_list fun left among right member => ih left among (others right member)

/-! ### The order of plain values -/

/-- What the first items leave open is for the rest of the lists to decide. -/
theorem order?_list_trans {lefts middles rights : List Value}
    (first : IsPlain (list lefts)) (second : IsPlain (list middles)) (third : IsPlain (list rights))
    (each : ∀ left ∈ lefts, ∀ {middle right : Value}, middle.IsPlain → right.IsPlain →
      order? left middle = some .lt → order? middle right = some .lt →
        order? left right = some .lt)
    (below : order? (list lefts) (list middles) = some .lt)
    (above : order? (list middles) (list rights) = some .lt) :
    order? (list lefts) (list rights) = some .lt := by
  induction lefts generalizing middles rights with
  | nil =>
    cases rights with
    | nil => cases middles <;> cases above
    | cons right rights => rfl
  | cons left lefts ih =>
    cases middles with
    | nil => cases below
    | cons middle middles =>
      cases rights with
      | nil => cases above
      | cons right rights =>
        obtain ⟨first, firsts⟩ := first.cons
        obtain ⟨second, seconds⟩ := second.cons
        obtain ⟨third, thirds⟩ := third.cons
        have rest := ih firsts seconds thirds fun left among =>
          each left (List.mem_cons_of_mem _ among)
        rw [order?_cons_eq_some_iff, (first.lawful second).order_eq] at below
        rw [order?_cons_eq_some_iff, (second.lawful third).order_eq] at above
        rw [order?_cons_eq_some_iff]
        rcases below with ⟨below, _⟩ | ⟨rfl, below⟩
        · grind
        · rcases above with ⟨above, _⟩ | ⟨rfl, above⟩
          · exact .inl ⟨above, Ordering.noConfusion⟩
          · exact .inr ⟨(first.lawful first).order_eq.mpr rfl, rest below above⟩

theorem IsPlain.order?_trans {left middle right : Value} (first : left.IsPlain)
    (second : middle.IsPlain) (third : right.IsPlain)
    (below : order? left middle = some .lt) (above : order? middle right = some .lt) :
    order? left right = some .lt := by
  induction first generalizing middle right with
  | int value =>
    cases second with
    | int other =>
      cases third with
      | int last =>
        exact congrArg some (Std.TransCmp.lt_trans (Option.some.inj below) (Option.some.inj above))
      | str text => cases above
      | list each => cases above
    | str text => cases below
    | list each => cases below
  | str text =>
    cases second with
    | int value => cases below
    | str other =>
      cases third with
      | int value => cases above
      | str last =>
        simp only [order?, textOrder_eq_compare, Option.some.injEq] at below above ⊢
        exact Std.TransCmp.lt_trans below above
      | list each => cases above
    | list each => cases below
  | list each ih =>
    cases second with
    | int value => cases below
    | str text => cases below
    | list others =>
      cases third with
      | int value => cases above
      | str text => cases above
      | list lasts =>
        exact order?_list_trans (.list each) (.list others) (.list lasts) ih below above

theorem ordered_eq_true_iff {op : BinaryOp} {left right : Value} {holds : Ordering → Bool} :
    ordered op left right holds = .ok (bool true) ↔
      ∃ ordering, order? left right = some ordering ∧ holds ordering = true := by
  unfold ordered
  cases order? left right <;> simp

end Value

/-- Integers, texts and lists of such, ordered by the comparison operators. -/
@[ext]
structure PlainValue where
  value : Value
  plain : value.IsPlain

namespace PlainValue

open Value

variable {left right : PlainValue}

instance : LE PlainValue where
  le left right := binary .le left.value right.value = .ok (bool true)

instance : LT PlainValue where
  lt left right := binary .lt left.value right.value = .ok (bool true)

theorem order?_eq_iff : order? left.value right.value = some .eq ↔ left = right :=
  (left.plain.lawful right.plain).order_eq.trans PlainValue.ext_iff.symm

theorem order?_swap_iff {ordering : Ordering} :
    order? right.value left.value = some ordering ↔
      order? left.value right.value = some ordering.swap := by
  rw [(left.plain.lawful right.plain).swap]
  rcases order? left.value right.value with _ | _ | _ | _ <;> cases ordering <;> simp

theorem lt_iff : left < right ↔ order? left.value right.value = some .lt := by
  refine ordered_eq_true_iff.trans ?_
  simp

theorem le_iff : left ≤ right ↔ left < right ∨ left = right := by
  rw [lt_iff, ← order?_eq_iff]
  refine ordered_eq_true_iff.trans ?_
  constructor
  · rintro ⟨ordering, found, holds⟩
    cases ordering with
    | lt => exact .inl found
    | eq => exact .inr found
    | gt => cases holds
  · grind

theorem lt_asymm (below : left < right) : ¬ right < left := by
  rw [lt_iff] at below ⊢
  rw [order?_swap_iff, below]
  simp

instance : PartialOrder PlainValue where
  le_refl value := le_iff.mpr (.inr rfl)
  le_trans left middle right below above := by
    rw [le_iff] at below above ⊢
    rcases below with below | rfl
    · rcases above with above | rfl
      · rw [lt_iff] at below above ⊢
        exact .inl (left.plain.order?_trans middle.plain right.plain below above)
      · exact .inl below
    · exact above
  lt_iff_le_not_ge left right := by
    rw [le_iff, le_iff]
    constructor
    · intro below
      refine ⟨.inl below, ?_⟩
      rintro (above | rfl)
      · exact lt_asymm below above
      · exact lt_asymm below below
    · rintro ⟨below | rfl, above⟩
      · exact below
      · exact absurd (.inr rfl) above
  le_antisymm left right below above := by
    rw [le_iff] at below above
    rcases below with below | same
    · rcases above with above | same
      · exact absurd above (lt_asymm below)
      · exact same.symm
    · exact same

open scoped Classical in
/--
The comparison of plain values reverses with its operands, is equal on equal
values and is transitive.  The operators follow it, and fail for both orders of
two values that it does not relate.
-/
theorem comparisons_are_a_partial_order (left middle right : PlainValue) :
    order? right.value left.value = (order? left.value right.value).map .swap ∧
      (order? left.value right.value = some .eq ↔ equal left.value right.value = true) ∧
      (order? left.value middle.value = some .lt → order? middle.value right.value = some .lt →
        order? left.value right.value = some .lt) ∧
      binary .eq left.value right.value = .ok (bool (decide (left = right))) ∧
      binary .ne left.value right.value = .ok (bool (decide (left ≠ right))) ∧
      if left ≤ right ∨ right ≤ left then
        binary .lt left.value right.value = .ok (bool (decide (left < right))) ∧
          binary .le left.value right.value = .ok (bool (decide (left ≤ right))) ∧
          binary .gt left.value right.value = .ok (bool (decide (right < left))) ∧
          binary .ge left.value right.value = .ok (bool (decide (right ≤ left)))
      else
        ∀ op ∈ [BinaryOp.lt, .le, .gt, .ge],
          binary op left.value right.value = .error (unsupported op left.value right.value) ∧
            binary op right.value left.value = .error (unsupported op right.value left.value) := by
  obtain ⟨swap, order_eq, same⟩ := left.plain.lawful right.plain
  have equality : equal left.value right.value = decide (left = right) := by
    rw [Bool.eq_iff_iff, decide_eq_true_iff, same, PlainValue.ext_iff]
  have transitive := left.plain.order?_trans middle.plain right.plain
  refine ⟨swap, order_eq.trans same.symm, transitive, ?_, ?_, ?_⟩
  · rw [binary, equality]
  · rw [binary, equality, decide_not]
  · have above : right < left ↔ order? left.value right.value = some .gt :=
      lt_iff.trans order?_swap_iff
    have atMost : left ≤ right ↔ left < right ∨ order? left.value right.value = some .eq := by
      rw [le_iff, order?_eq_iff]
    have atLeast : right ≤ left ↔ right < left ∨ order? left.value right.value = some .eq := by
      rw [le_iff, order?_eq_iff, eq_comm]
    cases found : order? left.value right.value with
    | none =>
      rw [if_neg (by simp [atMost, atLeast, lt_iff, above, found])]
      simp [binary, ordered, swap, found]
    | some ordering =>
      cases ordering <;> simp [binary, ordered, lt_iff, above, atMost, atLeast, found]

end PlainValue

end HybridShell
