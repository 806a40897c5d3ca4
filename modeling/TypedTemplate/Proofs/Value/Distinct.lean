import Mathlib.Data.List.Nodup
import TypedTemplate.Proofs.Entries
import TypedTemplate.Value.Order

/-!
# Mappings with distinct keys

A mapping holds each key at most once. Sorting its entries changes no lookup, and entries that are found alike are
sorted alike.
-/

namespace TypedTemplate

namespace Value

/-- Each mapping in the value holds each key at most once. -/
inductive Distinct : Value → Prop
  | scalar (s) : Distinct (.scalar s)
  | sequence {elements} : (∀ v ∈ elements, Distinct v) → Distinct (.sequence elements)
  | mapping {entries} : (entries.map Prod.fst).Nodup → (∀ entry ∈ entries, Distinct entry.2) →
      Distinct (.mapping entries)

@[simp] theorem distinct_scalar (s : Scalar) : (scalar s).Distinct := .scalar s

@[simp] theorem distinct_sequence {elements : List Value} :
    (sequence elements).Distinct ↔ ∀ v ∈ elements, v.Distinct :=
  ⟨fun h => by cases h; assumption, .sequence⟩

@[simp] theorem distinct_mapping {entries : List (String × Value)} :
    (mapping entries).Distinct ↔ (entries.map Prod.fst).Nodup ∧ ∀ entry ∈ entries, entry.2.Distinct :=
  ⟨fun h => by cases h; exact ⟨‹_›, ‹_›⟩, fun h => .mapping h.1 h.2⟩

/-! ## Sorting by keys -/

section

variable {β γ : Type}

theorem keyOrder_trans (a b c : String × β) (hab : (compare a.1 b.1).isLE = true) (hbc : (compare b.1 c.1).isLE = true) :
    (compare a.1 c.1).isLE = true :=
  Std.TransCmp.isLE_trans hab hbc

theorem keyOrder_total (a b : String × β) : ((compare a.1 b.1).isLE || (compare b.1 a.1).isLE) = true := by
  have hswap : compare b.1 a.1 = (compare a.1 b.1).swap := Std.OrientedOrd.eq_swap
  rw [hswap]
  cases compare a.1 b.1 <;> rfl

theorem mem_sortByKey {entry : String × β} {entries : List (String × β)} : entry ∈ sortByKey entries ↔ entry ∈ entries :=
  List.mem_mergeSort

theorem pairwise_sortByKey (entries : List (String × β)) :
    ((sortByKey entries).map Prod.fst).Pairwise fun a b => (compare a b).isLE :=
  List.pairwise_map.mpr (List.pairwise_mergeSort keyOrder_trans keyOrder_total entries)

theorem sortByKey_of_pairwise {entries : List (String × β)}
    (h : (entries.map Prod.fst).Pairwise fun a b => (compare a b).isLE) : sortByKey entries = entries :=
  List.mergeSort_of_pairwise (List.pairwise_map.mp h)

theorem sortByKey_sortByKey (entries : List (String × β)) : sortByKey (sortByKey entries) = sortByKey entries :=
  sortByKey_of_pairwise (pairwise_sortByKey entries)

theorem sortByKey_map (entries : List (String × β)) (f : β → γ) :
    sortByKey (entries.map fun entry => (entry.1, f entry.2)) =
      (sortByKey entries).map fun entry => (entry.1, f entry.2) := by
  rw [sortByKey, sortByKey, List.map_mergeSort]
  exact fun _ _ _ _ => rfl

theorem find?_eq_head?_filter (key : String) (entries : List (String × β)) :
    Entries.find? key entries = ((entries.filter fun entry => entry.1 = key).head?).map Prod.snd := by
  induction entries with
  | nil => rfl
  | cons entry rest ih =>
      obtain ⟨k, v⟩ := entry
      simp only [Entries.find?]
      split
      · rename_i hk
        simp [hk]
      · rename_i hk
        simp [hk, ih]

/-- Sorting is stable, so that it keeps entries with one key in their order. -/
theorem filter_sortByKey (key : String) (entries : List (String × β)) :
    (sortByKey entries).filter (fun entry => entry.1 = key) = entries.filter fun entry => entry.1 = key := by
  have hpairwise : (entries.filter fun entry => entry.1 = key).Pairwise fun a b => (compare a.1 b.1).isLE = true := by
    refine List.pairwise_of_forall_mem_list fun a ha b hb => ?_
    rw [List.mem_filter, decide_eq_true_eq] at ha hb
    rw [ha.2, hb.2, Std.ReflOrd.compare_self]
    rfl
  have hsub := List.sublist_mergeSort keyOrder_trans keyOrder_total hpairwise List.filter_sublist
  have hlength : ((sortByKey entries).filter fun entry => entry.1 = key).length =
      (entries.filter fun entry => entry.1 = key).length :=
    ((List.mergeSort_perm entries _).filter _).length_eq
  have hfilter := hsub.filter fun entry : String × β => entry.1 = key
  simp only [List.filter_filter, Bool.and_self] at hfilter
  exact (hfilter.eq_of_length hlength.symm).symm

theorem find?_sortByKey (key : String) (entries : List (String × β)) :
    Entries.find? key (sortByKey entries) = Entries.find? key entries := by
  rw [find?_eq_head?_filter, filter_sortByKey, ← find?_eq_head?_filter]

/-- Tables with distinct keys in which each key is found alike are the same after sorting. -/
theorem sortByKey_eq_of_find? {s t : List (String × β)} (hs : (s.map Prod.fst).Nodup) (ht : (t.map Prod.fst).Nodup)
    (h : ∀ key, Entries.find? key s = Entries.find? key t) : sortByKey s = sortByKey t := by
  have hmem : ∀ entry, entry ∈ s ↔ entry ∈ t := by
    rintro ⟨key, v⟩
    constructor
    · intro hm
      exact Entries.mem_of_find? ((h key).symm.trans (Entries.find?_of_mem hs hm))
    · intro hm
      exact Entries.mem_of_find? ((h key).trans (Entries.find?_of_mem ht hm))
  have hperm : s.Perm t := (List.perm_ext_iff_of_nodup (hs.of_map _) (ht.of_map _)).mpr hmem
  have hsort : (sortByKey s).Perm (sortByKey t) :=
    (List.mergeSort_perm s _).trans (hperm.trans (List.mergeSort_perm t _).symm)
  refine hsort.eq_of_pairwise (fun a b ha hb hab hba => ?_) (List.pairwise_map.mp (pairwise_sortByKey s))
    (List.pairwise_map.mp (pairwise_sortByKey t))
  have hkey : a.1 = b.1 := Std.LawfulEqCmp.eq_of_compare (Std.OrientedCmp.isLE_antisymm hab hba)
  have hfind := Entries.find?_of_mem ht ((hmem a).mp (mem_sortByKey.mp ha))
  rw [hkey, Entries.find?_of_mem ht (mem_sortByKey.mp hb)] at hfind
  exact Prod.ext hkey (Option.some.inj hfind).symm

end

end Value

end TypedTemplate
