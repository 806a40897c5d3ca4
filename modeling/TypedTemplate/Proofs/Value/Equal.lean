import Mathlib.Data.List.Forall2
import TypedTemplate.Value.Order

/-!
# Equality of values

Values are equal in the order of values if they are built alike: sequences element by element, texts only if they are
the same. Every value is equal to itself.
-/

namespace TypedTemplate

namespace Scalar

theorem cmp_self (s : Scalar) : s.cmp s = .eq := by
  cases s with
  | null => rfl
  | float x => simp [cmp, Binary64.cmp]
  | bool _ | integer _ | string _ => simp [cmp]

end Scalar

namespace Value

mutual

theorem cmpSorted_self : (v : Value) → cmpSorted v v = .eq
  | .scalar s => by rw [cmpSorted, s.cmp_self]
  | .sequence elements => by rw [cmpSorted, cmpElements_self elements]
  | .mapping entries => by rw [cmpSorted, cmpEntries_self entries]

theorem cmpElements_self : (vs : List Value) → cmpElements vs vs = .eq
  | [] => rfl
  | v :: rest => by rw [cmpElements, cmpSorted_self v, cmpElements_self rest, Ordering.then_eq]

theorem cmpEntries_self : (entries : List (String × Value)) → cmpEntries entries entries = .eq
  | [] => rfl
  | (k, v) :: rest => by simp [cmpEntries, cmpSorted_self v, cmpEntries_self rest]

end

theorem beq_iff {a b : Value} : (a == b) = true ↔ cmpSorted a.sorted b.sorted = .eq := by
  change (a.cmp b == .eq) = true ↔ a.cmp b = .eq
  exact beq_iff_eq

theorem beq_self (v : Value) : (v == v) = true := beq_iff.mpr (cmpSorted_self v.sorted)

theorem cmpElements_eq_iff {as bs : List Value} :
    cmpElements (sortedElements as) (sortedElements bs) = .eq ↔ List.Forall₂ (fun a b => (a == b) = true) as bs := by
  induction as generalizing bs with
  | nil => cases bs <;> simp [sortedElements, cmpElements]
  | cons a as ih =>
      cases bs with
      | nil => simp [sortedElements, cmpElements]
      | cons b bs =>
          rw [sortedElements, sortedElements, cmpElements, Ordering.then_eq_eq, ← beq_iff, ih, List.forall₂_cons]

/-- Sequences are equal if their elements are. -/
theorem sequence_beq {as bs : List Value} :
    (sequence as == sequence bs) = true ↔ List.Forall₂ (fun a b => (a == b) = true) as bs := by
  rw [beq_iff, sorted, sorted, cmpSorted, cmpElements_eq_iff]

theorem string_beq {a b : String} : (string a == string b) = true ↔ a = b := by
  constructor
  · intro h
    have hcompare : compare a b = .eq := beq_iff.mp h
    exact Std.LawfulEqCmp.eq_of_compare hcompare
  · rintro rfl
    exact beq_self _

end Value

end TypedTemplate
