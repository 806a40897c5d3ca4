import TypedTemplate.Proofs.Value.Order

/-!
# The depth of values

What stands in a sequence is less deep than the sequence, and equal values are equally deep.
-/

namespace TypedTemplate.Value

theorem depth_le_of_mem {vs : List Value} {v : Value} (h : v ∈ vs) : v.depth ≤ elementsDepth vs := by
  induction vs with
  | nil => cases h
  | cons w vs ih =>
      rw [elementsDepth]
      rcases List.mem_cons.mp h with rfl | h
      · exact Nat.le_max_left ..
      · exact Nat.le_trans (ih h) (Nat.le_max_right ..)

theorem depth_lt_of_mem {vs : List Value} {v : Value} (h : v ∈ vs) : v.depth < (sequence vs).depth :=
  Nat.lt_succ_of_le (depth_le_of_mem h)

theorem entriesDepth_perm {s t : List (String × Value)} (h : s.Perm t) : entriesDepth s = entriesDepth t := by
  induction h with
  | nil => rfl
  | cons _ _ ih => rw [entriesDepth, entriesDepth, ih]
  | swap => simp only [entriesDepth, Nat.max_left_comm]
  | trans _ _ ih₁ ih₂ => exact ih₁.trans ih₂

mutual

theorem depth_sorted : (v : Value) → v.sorted.depth = v.depth
  | .scalar _ => rfl
  | .sequence elements => by rw [sorted, depth, depth, elementsDepth_sorted elements]
  | .mapping entries => by
      have hperm : (sortByKey (sortedEntries entries)).Perm (sortedEntries entries) := List.mergeSort_perm _ _
      rw [sorted, depth, depth, entriesDepth_perm hperm, entriesDepth_sorted entries]

theorem elementsDepth_sorted : (vs : List Value) → elementsDepth (sortedElements vs) = elementsDepth vs
  | [] => rfl
  | v :: rest => by rw [sortedElements, elementsDepth, elementsDepth, depth_sorted v, elementsDepth_sorted rest]

theorem entriesDepth_sorted : (entries : List (String × Value)) →
    entriesDepth (sortedEntries entries) = entriesDepth entries
  | [] => rfl
  | (_, v) :: rest => by rw [sortedEntries, entriesDepth, entriesDepth, depth_sorted v, entriesDepth_sorted rest]

end

theorem depth_eq_of_beq {a b : Value} (h : (a == b) = true) : a.depth = b.depth := by
  rw [← depth_sorted a, ← depth_sorted b, beq_iff_sorted.mp h]

end TypedTemplate.Value
