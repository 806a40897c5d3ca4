import TypedTemplate.Proofs.Value.Distinct
import TypedTemplate.Proofs.Value.Equal
import TypedTemplate.Value.Hash

/-!
# The laws of the order of values

Values are totally ordered. Two of them compare as equal exactly if they are the same up to the order of the entries in
their mappings, and then a hash table sees the same of them.
-/

namespace TypedTemplate

/-! ## Scalars -/

theorem Binary64.rank_injective {x y : Binary64} (h : x.rank = y.rank) : x = y := by
  have hpow : Nat.pow 2 63 = 9223372036854775808 := rfl
  have hx := x.bits.toNat_lt
  have hy := y.bits.toNat_lt
  simp only [rank, isNegative, magnitudeBits, hpow, decide_eq_true_eq] at h
  have hbits : x.bits.toNat = y.bits.toNat := by
    split at h <;> split at h <;> omega
  cases x
  cases y
  rw [Binary64.mk.injEq]
  exact UInt64.toNat_inj.mp hbits

namespace Scalar

/-- The content of a scalar that compares by a number. -/
def number : Scalar → Int
  | bool b => b.toNat
  | integer i => i.toInt
  | float x => x.rank
  | _ => 0

def text : Scalar → String
  | string s => s
  | _ => ""

theorem cmp_eq_compareLex :
    cmp = compareLex (compareOn rank) (compareLex (compareOn number) (compareOn text)) := by
  funext a b
  cases a with
  | null => cases b <;> rfl
  | bool x =>
      cases b with
      | bool y => cases x <;> cases y <;> rfl
      | _ => rfl
  | integer i =>
      cases b with
      | integer j => simp [cmp, compareLex, compareOn, rank, number, text]
      | _ => rfl
  | float x =>
      cases b with
      | float y => simp [cmp, compareLex, compareOn, rank, number, text, Binary64.cmp]
      | _ => rfl
  | string s =>
      cases b with
      | string t => simp [cmp, compareLex, compareOn, rank, number, text]
      | _ => rfl

instance : Std.TransCmp cmp := by
  rw [cmp_eq_compareLex]
  infer_instance

theorem eq_of_content {a b : Scalar} (hrank : a.rank = b.rank) (hnumber : a.number = b.number) (htext : a.text = b.text) :
    a = b := by
  cases a with
  | null =>
      cases b with
      | null => rfl
      | _ => cases hrank
  | bool x =>
      cases b with
      | bool y => cases x <;> cases y <;> first | rfl | cases hnumber
      | _ => cases hrank
  | integer i =>
      cases b with
      | integer j => rw [Int64.toInt_inj.mp hnumber]
      | _ => cases hrank
  | float x =>
      cases b with
      | float y => rw [Binary64.rank_injective hnumber]
      | _ => cases hrank
  | string s =>
      cases b with
      | string t => exact congrArg string htext
      | _ => cases hrank

instance : Std.LawfulEqCmp cmp where
  compare_self {a} := a.cmp_self
  eq_of_compare {a b} h := by
    simp only [cmp_eq_compareLex, compareLex, compareOn, Ordering.then_eq_eq] at h
    exact eq_of_content (Std.LawfulEqOrd.eq_of_compare h.1) (Std.LawfulEqOrd.eq_of_compare h.2.1)
      (Std.LawfulEqOrd.eq_of_compare h.2.2)

theorem rank_lt (s : Scalar) : s.rank < 5 := by
  cases s <;> simp [rank]

theorem rank_le_of_cmp {a b : Scalar} (h : a.cmp b = .lt) : a.rank ≤ b.rank := by
  simp only [cmp_eq_compareLex, compareLex, compareOn, Ordering.then_eq_lt] at h
  rcases h with h | ⟨h, -⟩
  · exact Nat.le_of_lt (Nat.compare_eq_lt.mp h)
  · exact Nat.le_of_eq (Nat.compare_eq_eq.mp h)

theorem cmp_of_rank_lt {a b : Scalar} (h : a.rank < b.rank) : a.cmp b = .lt := by
  simp [cmp_eq_compareLex, compareLex, compareOn, Nat.compare_eq_lt.mpr h]

end Scalar

namespace Value

/-! ## Sorted values

Sorted values compare as equal only if they are the same. -/

mutual

theorem cmpSorted_swap : (a b : Value) → (cmpSorted a b).swap = cmpSorted b a
  | .scalar a, .scalar b => by
      rw [cmpSorted, cmpSorted]
      exact Std.OrientedCmp.eq_swap.symm
  | .sequence as, .sequence bs => by rw [cmpSorted, cmpSorted, cmpElements_swap as bs]
  | .mapping as, .mapping bs => by rw [cmpSorted, cmpSorted, cmpEntries_swap as bs]
  | .scalar _, .sequence _ | .scalar _, .mapping _ | .sequence _, .scalar _ | .sequence _, .mapping _
  | .mapping _, .scalar _ | .mapping _, .sequence _ => by
      simp only [cmpSorted]
      exact Std.OrientedOrd.eq_swap.symm

theorem cmpElements_swap : (as bs : List Value) → (cmpElements as bs).swap = cmpElements bs as
  | [], [] | [], _ :: _ | _ :: _, [] => rfl
  | a :: as, b :: bs => by
      rw [cmpElements, cmpElements, Ordering.swap_then, cmpSorted_swap a b, cmpElements_swap as bs]

theorem cmpEntries_swap : (as bs : List (String × Value)) → (cmpEntries as bs).swap = cmpEntries bs as
  | [], [] | [], _ :: _ | _ :: _, [] => rfl
  | (k, a) :: as, (l, b) :: bs => by
      have hkey : (compare k l).swap = compare l k := Std.OrientedOrd.eq_swap.symm
      rw [cmpEntries, cmpEntries, Ordering.swap_then, Ordering.swap_then, hkey, cmpSorted_swap a b,
        cmpEntries_swap as bs]

end

mutual

theorem eq_of_cmpSorted : (a b : Value) → cmpSorted a b = .eq → a = b
  | .scalar a, .scalar b, h => by
      rw [cmpSorted] at h
      rw [Std.LawfulEqCmp.eq_of_compare h]
  | .sequence as, .sequence bs, h => by
      rw [cmpSorted] at h
      rw [eq_of_cmpElements as bs h]
  | .mapping as, .mapping bs, h => by
      rw [cmpSorted] at h
      rw [eq_of_cmpEntries as bs h]
  | .scalar a, .sequence _, h | .scalar a, .mapping _, h | .sequence _, .scalar a, h | .mapping _, .scalar a, h => by
      have hrank := a.rank_lt
      simp only [cmpSorted, rank, Nat.compare_eq_eq] at h
      omega
  | .sequence _, .mapping _, h | .mapping _, .sequence _, h => by simp [cmpSorted, rank] at h

theorem eq_of_cmpElements : (as bs : List Value) → cmpElements as bs = .eq → as = bs
  | [], [], _ => rfl
  | [], _ :: _, h | _ :: _, [], h => by simp [cmpElements] at h
  | a :: as, b :: bs, h => by
      rw [cmpElements, Ordering.then_eq_eq] at h
      rw [eq_of_cmpSorted a b h.1, eq_of_cmpElements as bs h.2]

theorem eq_of_cmpEntries : (as bs : List (String × Value)) → cmpEntries as bs = .eq → as = bs
  | [], [], _ => rfl
  | [], _ :: _, h | _ :: _, [], h => by simp [cmpEntries] at h
  | (k, a) :: as, (l, b) :: bs, h => by
      simp only [cmpEntries, Ordering.then_eq_eq] at h
      obtain rfl : k = l := Std.LawfulEqOrd.eq_of_compare h.1
      rw [eq_of_cmpSorted a b h.2.1, eq_of_cmpEntries as bs h.2.2]

end

/-! ### Kinds -/

theorem exists_scalar_of_rank {v : Value} (h : v.rank < 5) : ∃ s, v = scalar s := by
  cases v with
  | scalar s => exact ⟨s, rfl⟩
  | sequence | mapping => simp [rank] at h

theorem exists_sequence_of_rank {v : Value} (h : v.rank = 5) : ∃ elements, v = sequence elements := by
  cases v with
  | scalar s => exact absurd h (Nat.ne_of_lt s.rank_lt)
  | sequence elements => exact ⟨elements, rfl⟩
  | mapping => cases h

theorem exists_mapping_of_rank {v : Value} (h : v.rank = 6) : ∃ entries, v = mapping entries := by
  cases v with
  | scalar s =>
      have := s.rank_lt
      rw [rank] at h
      omega
  | sequence => cases h
  | mapping entries => exact ⟨entries, rfl⟩

theorem rank_le_of_cmpSorted {a b : Value} (h : cmpSorted a b = .lt) : a.rank ≤ b.rank := by
  cases a <;> cases b <;> simp only [cmpSorted] at h
  case scalar.scalar a b => exact Scalar.rank_le_of_cmp h
  case sequence.sequence | mapping.mapping => exact Nat.le_refl _
  all_goals exact Nat.le_of_lt (Nat.compare_eq_lt.mp h)

theorem cmpSorted_of_rank_lt {a b : Value} (h : a.rank < b.rank) : cmpSorted a b = .lt := by
  cases a <;> cases b <;> simp only [cmpSorted]
  case scalar.scalar a b => exact Scalar.cmp_of_rank_lt h
  case sequence.sequence | mapping.mapping => exact absurd h (Nat.lt_irrefl _)
  all_goals exact Nat.compare_eq_lt.mpr h

/-- Either the kinds tell the outer two of three increasing values apart, or all three are of one kind. -/
theorem rank_of_cmpSorted {a b c : Value} (hab : cmpSorted a b = .lt) (hbc : cmpSorted b c = .lt) :
    cmpSorted a c = .lt ∨ b.rank = a.rank ∧ c.rank = a.rank := by
  have hab := rank_le_of_cmpSorted hab
  have hbc := rank_le_of_cmpSorted hbc
  rcases Nat.lt_or_ge a.rank c.rank with hac | hca
  · exact .inl (cmpSorted_of_rank_lt hac)
  · exact .inr (by omega)

/-! ### Transitivity -/

/-- What compares first by a transitive order, in which equality does not show, does so transitively if the rest does. -/
theorem then_trans {o₁ o₂ o₃ p₁ p₂ p₃ : Ordering} (hlt : o₁ = .lt → o₂ = .lt → o₃ = .lt) (hleft : o₁ = .eq → o₃ = o₂)
    (hright : o₂ = .eq → o₃ = o₁) (hp : p₁ = .lt → p₂ = .lt → p₃ = .lt) (h₁ : o₁.then p₁ = .lt)
    (h₂ : o₂.then p₂ = .lt) : o₃.then p₃ = .lt := by
  rw [Ordering.then_eq_lt] at h₁ h₂ ⊢
  rcases h₁ with h₁ | ⟨h₁, hp₁⟩ <;> rcases h₂ with h₂ | ⟨h₂, hp₂⟩
  · exact .inl (hlt h₁ h₂)
  · exact .inl ((hright h₂).trans h₁)
  · exact .inl ((hleft h₁).trans h₂)
  · exact .inr ⟨(hleft h₁).trans h₂, hp hp₁ hp₂⟩

mutual

theorem cmpSorted_trans : (a : Value) → ∀ {b c}, cmpSorted a b = .lt → cmpSorted b c = .lt → cmpSorted a c = .lt
  | .scalar a, b, c, hab, hbc => by
      rcases rank_of_cmpSorted hab hbc with hac | ⟨hb, hc⟩
      · exact hac
      · obtain ⟨b, rfl⟩ := exists_scalar_of_rank (Nat.lt_of_le_of_lt (Nat.le_of_eq hb) a.rank_lt)
        obtain ⟨c, rfl⟩ := exists_scalar_of_rank (Nat.lt_of_le_of_lt (Nat.le_of_eq hc) a.rank_lt)
        rw [cmpSorted] at hab hbc ⊢
        exact Std.TransCmp.lt_trans hab hbc
  | .sequence as, b, c, hab, hbc => by
      rcases rank_of_cmpSorted hab hbc with hac | ⟨hb, hc⟩
      · exact hac
      · obtain ⟨bs, rfl⟩ := exists_sequence_of_rank hb
        obtain ⟨cs, rfl⟩ := exists_sequence_of_rank hc
        rw [cmpSorted] at hab hbc ⊢
        exact cmpElements_trans as hab hbc
  | .mapping as, b, c, hab, hbc => by
      rcases rank_of_cmpSorted hab hbc with hac | ⟨hb, hc⟩
      · exact hac
      · obtain ⟨bs, rfl⟩ := exists_mapping_of_rank hb
        obtain ⟨cs, rfl⟩ := exists_mapping_of_rank hc
        rw [cmpSorted] at hab hbc ⊢
        exact cmpEntries_trans as hab hbc

theorem cmpElements_trans : (as : List Value) → ∀ {bs cs}, cmpElements as bs = .lt → cmpElements bs cs = .lt →
    cmpElements as cs = .lt
  | [], [], _, hab, _ | [], _ :: _, [], _, hab | _ :: _, [], _, hab, _ | _ :: _, _ :: _, [], _, hab => by cases hab
  | [], _ :: _, _ :: _, _, _ => rfl
  | a :: as, b :: bs, c :: cs, hab, hbc => by
      exact then_trans (cmpSorted_trans a) (fun h => eq_of_cmpSorted a b h ▸ rfl) (fun h => eq_of_cmpSorted b c h ▸ rfl)
        (cmpElements_trans as) hab hbc

theorem cmpEntries_trans : (as : List (String × Value)) → ∀ {bs cs}, cmpEntries as bs = .lt →
    cmpEntries bs cs = .lt → cmpEntries as cs = .lt
  | [], [], _, hab, _ | [], _ :: _, [], _, hab | _ :: _, [], _, hab, _ | _ :: _, _ :: _, [], _, hab => by cases hab
  | [], _ :: _, _ :: _, _, _ => rfl
  | (k, a) :: as, (l, b) :: bs, (m, c) :: cs, hab, hbc => by
      have hkey {k l : String} (h : compare k l = .eq) : k = l := Std.LawfulEqOrd.eq_of_compare h
      refine then_trans Std.TransCmp.lt_trans (fun h => hkey h ▸ rfl) (fun h => hkey h ▸ rfl) ?_ hab hbc
      exact then_trans (cmpSorted_trans a) (fun h => eq_of_cmpSorted a b h ▸ rfl)
        (fun h => eq_of_cmpSorted b c h ▸ rfl) (cmpEntries_trans as)

end

/-! ## Values -/

theorem cmp_eq_iff {a b : Value} : a.cmp b = .eq ↔ a.sorted = b.sorted :=
  ⟨eq_of_cmpSorted _ _, fun h => by rw [cmp, h, cmpSorted_self]⟩

theorem beq_iff_sorted {a b : Value} : (a == b) = true ↔ a.sorted = b.sorted :=
  beq_iff.trans cmp_eq_iff

instance : Std.TransCmp cmp where
  eq_swap {a b} := (cmpSorted_swap b.sorted a.sorted).symm
  isLE_trans {a b c} hab hbc := by
    rw [Ordering.isLE_iff_eq_lt_or_eq_eq] at hab hbc ⊢
    simp only [cmp_eq_iff] at hab hbc ⊢
    simp only [cmp] at hab hbc ⊢
    rcases hab with hab | hab
    · rcases hbc with hbc | hbc
      · exact .inl (cmpSorted_trans _ hab hbc)
      · exact .inl (hbc ▸ hab)
    · rw [hab]
      exact hbc

/-! ### Equality -/

/-- The values are the same up to the order of entries in the mappings inside them. -/
inductive Reorders : Value → Value → Prop
  | scalar (s) : Reorders (.scalar s) (.scalar s)
  | sequence {as bs} : List.Forall₂ Reorders as bs → Reorders (.sequence as) (.sequence bs)
  | mapping {as bs} : (∀ key, Option.Rel Reorders (Entries.find? key as) (Entries.find? key bs)) →
      Reorders (.mapping as) (.mapping bs)

/-- Two entries of a mapping may change places. -/
theorem reorders_pair {k l : String} {v v' w w' : Value} (hne : k ≠ l) (hv : Reorders v v') (hw : Reorders w w') :
    Reorders (.mapping [(k, v), (l, w)]) (.mapping [(l, w'), (k, v')]) := by
  refine .mapping fun key => ?_
  by_cases hk : k = key
  · subst hk
    simpa [Entries.find?, hne.symm] using hv
  · by_cases hl : l = key <;> simp [Entries.find?, hk, hl, hw]

theorem sortedElements_eq_map (elements : List Value) : sortedElements elements = elements.map sorted := by
  induction elements with
  | nil => rw [sortedElements]; rfl
  | cons v rest ih => rw [sortedElements, ih, List.map_cons]

theorem sortedEntries_eq_map (entries : List (String × Value)) :
    sortedEntries entries = entries.map fun entry => (entry.1, entry.2.sorted) := by
  induction entries with
  | nil => rw [sortedEntries]; rfl
  | cons entry rest ih => rw [sortedEntries, ih, List.map_cons]

theorem find?_sortedEntries (key : String) (entries : List (String × Value)) :
    Entries.find? key (sortedEntries entries) = (Entries.find? key entries).map sorted := by
  induction entries with
  | nil => rw [sortedEntries]; rfl
  | cons entry rest ih =>
      obtain ⟨k, v⟩ := entry
      simp only [sortedEntries, Entries.find?]
      split
      · rfl
      · exact ih

theorem map_fst_sortedEntries (entries : List (String × Value)) :
    (sortedEntries entries).map Prod.fst = entries.map Prod.fst := by
  rw [sortedEntries_eq_map, List.map_map]
  rfl

theorem sortedElements_eq_iff {as bs : List Value} :
    sortedElements as = sortedElements bs ↔ List.Forall₂ (fun a b => a.sorted = b.sorted) as bs := by
  rw [sortedElements_eq_map, sortedElements_eq_map, ← List.forall₂_eq_eq_eq, List.forall₂_map_left_iff,
    List.forall₂_map_right_iff]

theorem map_sorted_eq_iff {x y : Option Value} :
    x.map sorted = y.map sorted ↔ Option.Rel (fun a b => a.sorted = b.sorted) x y := by
  cases x <;> cases y <;> simp

theorem sorted_of_reorders {a b : Value} (ha : a.Distinct) (hb : b.Distinct) (h : Reorders a b) :
    a.sorted = b.sorted := by
  induction ha generalizing b with
  | scalar s =>
      cases h
      rfl
  | sequence _ ih =>
      cases h with
      | sequence hs =>
          cases hb with
          | sequence hbs =>
              obtain ⟨hlength, hzip⟩ := List.forall₂_iff_zip.mp hs
              rw [sorted, sorted, sortedElements_eq_iff.mpr]
              refine List.forall₂_iff_zip.mpr ⟨hlength, fun {a b} hab => ?_⟩
              obtain ⟨ha, hb⟩ := List.of_mem_zip hab
              exact ih a ha (hbs b hb) (hzip hab)
  | @mapping as hnodup _ ih =>
      cases h with
      | @mapping _ bs hfind =>
          cases hb with
          | mapping hnodup' hbs =>
              rw [sorted, sorted, sortByKey_eq_of_find?]
              · rwa [map_fst_sortedEntries]
              · rwa [map_fst_sortedEntries]
              · intro key
                rw [find?_sortedEntries, find?_sortedEntries, map_sorted_eq_iff]
                refine Entries.rel_imp ?_ (Entries.rel_and_eq (hfind key))
                rintro x y ⟨hxy, hx, hy⟩
                exact ih _ (Entries.mem_of_find? hx) (hbs _ (Entries.mem_of_find? hy)) hxy

theorem reorders_of_sorted {a b : Value} (ha : a.Distinct) (h : a.sorted = b.sorted) : Reorders a b := by
  induction ha generalizing b with
  | scalar s =>
      cases b with
      | scalar t =>
          simp only [sorted, scalar.injEq] at h
          exact h ▸ .scalar s
      | sequence | mapping => simp [sorted] at h
  | sequence _ ih =>
      cases b with
      | sequence bs =>
          simp only [sorted, sequence.injEq] at h
          exact .sequence (Entries.forall₂_imp_of_mem (sortedElements_eq_iff.mp h) fun a ha b hab => ih a ha hab)
      | scalar | mapping => simp [sorted] at h
  | @mapping as _ _ ih =>
      cases b with
      | mapping bs =>
          simp only [sorted, mapping.injEq] at h
          refine .mapping fun key => ?_
          have hkey : (Entries.find? key as).map sorted = (Entries.find? key bs).map sorted := by
            rw [← find?_sortedEntries, ← find?_sortedEntries, ← find?_sortByKey, h, find?_sortByKey]
          refine Entries.rel_imp ?_ (Entries.rel_and_eq (map_sorted_eq_iff.mp hkey))
          rintro x y ⟨hxy, hx, -⟩
          exact ih _ (Entries.mem_of_find? hx) hxy
      | scalar | sequence => simp [sorted] at h

/-! ### Hashes -/

theorem entryFeeds_eq_map (entries : List (String × Value)) :
    entryFeeds entries = entries.map fun entry => (entry.1, entry.2.feed) := by
  induction entries with
  | nil => rw [entryFeeds]; rfl
  | cons entry rest ih => rw [entryFeeds, ih, List.map_cons]

mutual

theorem feed_sorted : (v : Value) → v.sorted.feed = v.feed
  | .scalar _ => by simp only [sorted]
  | .sequence elements => by
      have hlength : (sortedElements elements).length = elements.length := by
        rw [sortedElements_eq_map, List.length_map]
      simp only [sorted, feed, rank, hlength, elementFeed_sorted elements]
  | .mapping entries => by
      simp only [sorted, feed, rank]
      rw [entryFeeds_eq_map, ← sortByKey_map, ← entryFeeds_eq_map, sortByKey_sortByKey, entryFeeds_sorted entries]

theorem elementFeed_sorted : (elements : List Value) → elementFeed (sortedElements elements) = elementFeed elements
  | [] => by rw [sortedElements]
  | v :: rest => by rw [sortedElements, elementFeed, elementFeed, feed_sorted v, elementFeed_sorted rest]

theorem entryFeeds_sorted : (entries : List (String × Value)) →
    entryFeeds (sortedEntries entries) = entryFeeds entries
  | [] => by rw [sortedEntries]
  | (k, v) :: rest => by rw [sortedEntries, entryFeeds, entryFeeds, feed_sorted v, entryFeeds_sorted rest]

end

/-- Equal values feed the same words to a hash. -/
theorem feed_eq_of_beq {a b : Value} (h : (a == b) = true) : a.feed = b.feed := by
  rw [← feed_sorted a, ← feed_sorted b, beq_iff_sorted.mp h]

/-! ## The laws -/

/-- The order of values is total, and equality in it is sameness up to the order of entries in mappings; equal values feed
the same words to a hash. -/
theorem cmp_lawful :
    (∀ a b : Value, b.cmp a = (a.cmp b).swap) ∧
    (∀ a b c : Value, (a.cmp b).isLE → (b.cmp c).isLE → (a.cmp c).isLE) ∧
    (∀ a b : Value, a.Distinct → b.Distinct → (a.cmp b = .eq ↔ Reorders a b)) ∧
    (∀ a b : Value, (a == b) = true ↔ a.cmp b = .eq) ∧
    ∀ a b : Value, (a == b) = true → a.feed = b.feed := by
  refine ⟨fun a b => Std.OrientedCmp.eq_swap, fun a b c => Std.TransCmp.isLE_trans, fun a b ha hb => ?_,
    fun a b => beq_iff, fun a b => feed_eq_of_beq⟩
  rw [cmp_eq_iff]
  exact ⟨reorders_of_sorted ha, sorted_of_reorders ha hb⟩

def pageDocument : Value :=
  .mapping [("meta", .sequence [.mapping [("lang", .string "en"), ("draft", .bool true)]]), ("size", .scalar (.integer 1))]

def reorderedPage : Value :=
  .mapping [("size", .scalar (.integer 1)), ("meta", .sequence [.mapping [("draft", .bool true), ("lang", .string "en")]])]

theorem cmp_lawful_pages : pageDocument.Distinct ∧ reorderedPage.Distinct ∧ Reorders pageDocument reorderedPage ∧
    pageDocument.cmp reorderedPage = .eq ∧ pageDocument.feed = reorderedPage.feed ∧
    ((Value.sequence []).cmp pageDocument).isLE = true ∧ (pageDocument.cmp reorderedPage).isLE = true ∧
    ((Value.sequence []).cmp reorderedPage).isLE = true := by
  obtain ⟨-, htrans, hequal, hbeq, hfeed⟩ := cmp_lawful
  have hpage : pageDocument.Distinct := by simp [pageDocument, string, bool]
  have hreordered : reorderedPage.Distinct := by simp [reorderedPage, string, bool]
  have hreorders : Reorders pageDocument reorderedPage :=
    reorders_pair (by decide) (.sequence (.cons (reorders_pair (by decide) (.scalar _) (.scalar _)) .nil)) (.scalar _)
  have hcmp : pageDocument.cmp reorderedPage = .eq := (hequal _ _ hpage hreordered).mpr hreorders
  have hle : (pageDocument.cmp reorderedPage).isLE = true := by rw [hcmp]; rfl
  have hbelow : ((Value.sequence []).cmp pageDocument).isLE = true := rfl
  exact ⟨hpage, hreordered, hreorders, hcmp, hfeed _ _ ((hbeq _ _).mpr hcmp), hbelow, hle, htrans _ _ _ hbelow hle⟩

end Value

end TypedTemplate
