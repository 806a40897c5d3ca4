import TypedTemplate.Proofs.Value.Order

/-!
# Values without floats and mappings

Such values are equal in the order of values only if they are the same.
-/

namespace TypedTemplate

namespace Scalar

@[simp]
def isDiscrete : Scalar → Bool
  | bool _ | string _ => true
  | _ => false

end Scalar

namespace Value

mutual

/-- The value is made of texts and truth values in sequences. -/
@[simp]
def isDiscrete : Value → Bool
  | scalar s => s.isDiscrete
  | sequence elements => allDiscrete elements
  | mapping _ => false

@[simp]
def allDiscrete : List Value → Bool
  | [] => true
  | v :: rest => v.isDiscrete && allDiscrete rest

end

mutual

theorem sorted_of_discrete : (v : Value) → v.isDiscrete → v.sorted = v
  | .scalar _, _ => by simp [sorted]
  | .sequence elements, h => by
      rw [isDiscrete] at h
      rw [sorted, sortedElements_of_discrete elements h]
  | .mapping _, h => by simp [isDiscrete] at h

theorem sortedElements_of_discrete : (vs : List Value) → allDiscrete vs → sortedElements vs = vs
  | [], _ => by rw [sortedElements]
  | v :: rest, h => by
      rw [allDiscrete, Bool.and_eq_true] at h
      rw [sortedElements, v.sorted_of_discrete h.1, sortedElements_of_discrete rest h.2]

end

theorem eq_of_beq {a b : Value} (ha : a.isDiscrete) (hb : b.isDiscrete) (h : (a == b) = true) : a = b := by
  have hsorted := beq_iff_sorted.mp h
  rwa [a.sorted_of_discrete ha, b.sorted_of_discrete hb] at hsorted

end Value

end TypedTemplate
