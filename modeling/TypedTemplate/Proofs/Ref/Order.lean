import TypedTemplate.Ref.Basic

/-!
# The order of references

References are ordered totally, and two that differ never compare as equal. A shorter reference comes before a longer
one, whatever their components are.
-/

namespace TypedTemplate

/-! ## Components -/

namespace Component

instance : Std.TransCmp cmp :=
  inferInstanceAs (Std.TransCmp (compareLex (compareOn value) (compareOn fun c => c.isIndex.toNat)))

instance : Std.LawfulEqCmp cmp where
  eq_of_compare {a b} h := by
    rw [cmp, Ordering.then_eq_eq] at h
    have hvalue : a.value = b.value := Std.LawfulEqOrd.eq_of_compare h.1
    have hindex : a.isIndex.toNat = b.isIndex.toNat := Std.LawfulEqOrd.eq_of_compare h.2
    cases a <;> cases b <;> simp_all [value, isIndex]

end Component

/-! ## References -/

namespace Ref

instance : Std.TransCmp fun r s : Ref => List.compareLex Component.cmp r.components s.components where
  eq_swap := Std.OrientedCmp.eq_swap
  isLE_trans := Std.TransCmp.isLE_trans

instance : Std.TransCmp cmp :=
  inferInstanceAs (Std.TransCmp (compareLex (compareOn length)
    fun r s => List.compareLex Component.cmp r.components s.components))

instance : Std.LawfulEqCmp cmp where
  eq_of_compare {r s} h := by
    rw [cmp, Ordering.then_eq_eq] at h
    have hcomponents : r.components = s.components := Std.LawfulEqCmp.eq_of_compare h.2
    cases r
    exact congrArg Ref.mk hcomponents

theorem cmp_of_length_lt {r s : Ref} (h : r.length < s.length) : r.cmp s = .lt := by
  rw [cmp, Nat.compare_eq_lt.mpr h]
  rfl

end Ref

end TypedTemplate
