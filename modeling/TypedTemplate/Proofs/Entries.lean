import Mathlib.Data.List.Forall2
import TypedTemplate.Entries

/-!
# Lookup in entries
-/

namespace TypedTemplate.Entries

variable {α β : Type} [DecidableEq α]

theorem mem_of_find? {key : α} {value : β} {table : List (α × β)} (h : find? key table = some value) :
    (key, value) ∈ table := by
  induction table with
  | nil => cases h
  | cons entry rest ih =>
      obtain ⟨k, v⟩ := entry
      simp only [find?] at h
      split at h
      · rename_i hk
        cases h
        simp [hk]
      · exact List.mem_cons_of_mem _ (ih h)

theorem exists_find?_of_mem {key : α} {table : List (α × β)} (h : key ∈ table.map Prod.fst) :
    ∃ value, find? key table = some value := by
  induction table with
  | nil => cases h
  | cons entry rest ih =>
      obtain ⟨k, v⟩ := entry
      simp only [find?]
      split
      · exact ⟨v, rfl⟩
      · rename_i hk
        exact ih ((List.mem_cons.mp h).resolve_left (Ne.symm hk))

theorem find?_of_mem {key : α} {value : β} {table : List (α × β)} (hd : (table.map Prod.fst).Nodup)
    (h : (key, value) ∈ table) : find? key table = some value := by
  induction table with
  | nil => cases h
  | cons entry rest ih =>
      obtain ⟨k, v⟩ := entry
      rw [List.map_cons, List.nodup_cons] at hd
      rcases List.mem_cons.mp h with heq | hm
      · cases heq
        simp [find?]
      · have hne : k ≠ key := by
          rintro rfl
          exact hd.1 (List.mem_map.mpr ⟨_, hm, rfl⟩)
        simp only [find?, hne, ↓reduceIte]
        exact ih hd.2 hm

theorem find?_perm {s t : List (α × β)} (h : s.Perm t) (hd : (s.map Prod.fst).Nodup) (key : α) :
    find? key s = find? key t := by
  have hd' : (t.map Prod.fst).Nodup := (h.map Prod.fst).nodup_iff.mp hd
  refine Option.ext fun value => ⟨fun hs => ?_, fun ht => ?_⟩
  · exact find?_of_mem hd' (h.mem_iff.mp (mem_of_find? hs))
  · exact find?_of_mem hd (h.mem_iff.mpr (mem_of_find? ht))

theorem eq_or_mem_of_mem_insert {key : α} {value : β} {table : List (α × β)} {entry : α × β}
    (h : entry ∈ insert key value table) : entry = (key, value) ∨ entry ∈ table := by
  induction table with
  | nil => exact .inl (List.mem_singleton.mp h)
  | cons first rest ih =>
      obtain ⟨k, v⟩ := first
      simp only [insert] at h
      split at h
      · rcases List.mem_cons.mp h with heq | hm
        · exact .inl heq
        · exact .inr (List.mem_cons_of_mem _ hm)
      · rcases List.mem_cons.mp h with rfl | hm
        · exact .inr (by simp)
        · exact (ih hm).imp_right (List.mem_cons_of_mem _)

theorem nodup_insert {key : α} (value : β) {table : List (α × β)} (h : (table.map Prod.fst).Nodup) :
    ((insert key value table).map Prod.fst).Nodup := by
  induction table with
  | nil => simp [insert]
  | cons first rest ih =>
      obtain ⟨k, v⟩ := first
      rw [List.map_cons, List.nodup_cons] at h
      simp only [insert]
      split
      · rename_i hk
        subst hk
        exact List.nodup_cons.mpr h
      · rename_i hk
        refine List.nodup_cons.mpr ⟨fun hm => ?_, ih h.2⟩
        obtain ⟨entry, he, hkey⟩ := List.mem_map.mp hm
        rcases eq_or_mem_of_mem_insert he with rfl | he
        · exact hk hkey.symm
        · exact h.1 (List.mem_map.mpr ⟨entry, he, hkey⟩)

theorem find?_append (key : α) (s t : List (α × β)) : find? key (s ++ t) = (find? key s).or (find? key t) := by
  induction s with
  | nil => rfl
  | cons entry rest ih =>
      obtain ⟨k, v⟩ := entry
      simp only [List.cons_append, find?]
      split
      · rfl
      · exact ih

theorem find?_insert (key key' : α) (value : β) (table : List (α × β)) :
    find? key' (insert key value table) = if key = key' then some value else find? key' table := by
  induction table with
  | nil => rfl
  | cons entry rest ih =>
      obtain ⟨k, v⟩ := entry
      simp only [insert]
      split
      · rename_i hk
        subst hk
        simp only [find?]
        split <;> rfl
      · rename_i hk
        simp only [find?, ih]
        split
        · rename_i hk'
          subst hk'
          exact (if_neg (Ne.symm hk)).symm
        · rfl

theorem mem_map_fst_iff {key : α} {table : List (α × β)} :
    key ∈ table.map Prod.fst ↔ ∃ value, find? key table = some value :=
  ⟨exists_find?_of_mem, fun ⟨_, h⟩ => List.mem_map.mpr ⟨_, mem_of_find? h, rfl⟩⟩

theorem mem_map_fst_insert {key key' : α} {value : β} {table : List (α × β)} :
    key' ∈ (insert key value table).map Prod.fst ↔ key' = key ∨ key' ∈ table.map Prod.fst := by
  rw [mem_map_fst_iff, mem_map_fst_iff, find?_insert]
  split
  · rename_i hk
    simp [hk]
  · rename_i hk
    simp [Ne.symm hk]

theorem mem_map_fst_insertAll {key : α} {table entries : List (α × β)} :
    key ∈ (insertAll table entries).map Prod.fst ↔ key ∈ table.map Prod.fst ∨ key ∈ entries.map Prod.fst := by
  induction entries generalizing table with
  | nil => simp [insertAll]
  | cons entry rest ih =>
      rw [insertAll, List.foldl_cons, ← insertAll, ih, mem_map_fst_insert, List.map_cons, List.mem_cons,
        or_comm (a := key = _), or_assoc]

theorem mem_map_fst_ofList {key : α} {entries : List (α × β)} :
    key ∈ (ofList entries).map Prod.fst ↔ key ∈ entries.map Prod.fst := by
  simp [ofList, mem_map_fst_insertAll]

theorem insert_of_find? {key : α} {value : β} {table : List (α × β)} (h : find? key table = some value) :
    insert key value table = table := by
  induction table with
  | nil => cases h
  | cons entry rest ih =>
      obtain ⟨k, v⟩ := entry
      simp only [find?] at h
      simp only [insert]
      split
      · rename_i hk
        rw [if_pos hk] at h
        rw [hk, Option.some.inj h]
      · rename_i hk
        rw [if_neg hk] at h
        rw [ih h]

theorem insert_of_not_mem {key : α} (value : β) {table : List (α × β)} (h : key ∉ table.map Prod.fst) :
    insert key value table = table ++ [(key, value)] := by
  induction table with
  | nil => rfl
  | cons entry rest ih =>
      obtain ⟨k, v⟩ := entry
      rw [List.map_cons, List.mem_cons, not_or] at h
      simp only [insert, if_neg (Ne.symm h.1), ih h.2, List.cons_append]

theorem insert_append_cons {key : α} {s : List (α × β)} (h : key ∉ s.map Prod.fst) (value old : β) (t : List (α × β)) :
    insert key value (s ++ (key, old) :: t) = s ++ (key, value) :: t := by
  induction s with
  | nil => simp [insert]
  | cons entry rest ih =>
      obtain ⟨k, v⟩ := entry
      rw [List.map_cons, List.mem_cons, not_or] at h
      simp only [List.cons_append, insert, if_neg (Ne.symm h.1), ih h.2]

theorem map_fst_insert {key : α} (value : β) {table : List (α × β)} (h : key ∈ table.map Prod.fst) :
    (insert key value table).map Prod.fst = table.map Prod.fst := by
  induction table with
  | nil => cases h
  | cons entry rest ih =>
      obtain ⟨k, v⟩ := entry
      simp only [insert]
      split
      · rename_i hk
        simp [hk]
      · rename_i hk
        have hrest : key ∈ rest.map Prod.fst := (List.mem_cons.mp h).resolve_left (Ne.symm hk)
        rw [List.map_cons, List.map_cons, ih hrest]

/-- Entries whose keys are there already leave the keys as they are. -/
theorem map_fst_insertAll {table entries : List (α × β)} (h : ∀ entry ∈ entries, entry.1 ∈ table.map Prod.fst) :
    (insertAll table entries).map Prod.fst = table.map Prod.fst := by
  induction entries generalizing table with
  | nil => rfl
  | cons entry rest ih =>
      have hinsert := map_fst_insert entry.2 (h entry (by simp))
      rw [insertAll, List.foldl_cons, ← insertAll, ih, hinsert]
      intro e he
      rw [hinsert]
      exact h e (List.mem_cons_of_mem _ he)

theorem nodup_insertAll {table : List (α × β)} (h : (table.map Prod.fst).Nodup) (entries : List (α × β)) :
    ((insertAll table entries).map Prod.fst).Nodup := by
  induction entries generalizing table with
  | nil => exact h
  | cons entry rest ih => exact ih (nodup_insert entry.2 h)

theorem nodup_ofList (entries : List (α × β)) : ((ofList entries).map Prod.fst).Nodup :=
  nodup_insertAll (by simp) entries

theorem insertAll_of_nodup {table entries : List (α × β)} (h : ((table ++ entries).map Prod.fst).Nodup) :
    insertAll table entries = table ++ entries := by
  induction entries generalizing table with
  | nil => simp [insertAll]
  | cons entry rest ih =>
      have hkey : entry.1 ∉ table.map Prod.fst := by
        rw [List.map_append, List.map_cons, List.nodup_append] at h
        exact fun hm => h.2.2 _ hm _ (by simp) rfl
      have hinsert := insert_of_not_mem entry.2 hkey
      rw [insertAll, List.foldl_cons, hinsert, ← insertAll, ih (by simpa using h), List.append_assoc,
        List.singleton_append]

/-- Entries with different keys make up a table as they stand. -/
theorem ofList_of_nodup {entries : List (α × β)} (h : (entries.map Prod.fst).Nodup) : ofList entries = entries :=
  insertAll_of_nodup (by simpa using h)

theorem mem_of_mem_insertAll {table entries : List (α × β)} {entry : α × β} (h : entry ∈ insertAll table entries) :
    entry ∈ table ∨ entry ∈ entries := by
  induction entries generalizing table with
  | nil => exact .inl h
  | cons first rest ih =>
      rcases ih h with hm | hm
      · exact (eq_or_mem_of_mem_insert hm).symm.imp_right fun heq => by simp [heq]
      · exact .inr (List.mem_cons_of_mem _ hm)

theorem mem_of_mem_ofList {entries : List (α × β)} {entry : α × β} (h : entry ∈ ofList entries) : entry ∈ entries :=
  (mem_of_mem_insertAll h).resolve_left (by simp)

/-- Of the entries that are inserted, those with the key count before those that were there. -/
theorem find?_insertAll (key : α) {entries : List (α × β)} (h : (entries.map Prod.fst).Nodup) (table : List (α × β)) :
    find? key (insertAll table entries) = (find? key entries).or (find? key table) := by
  induction entries generalizing table with
  | nil => rfl
  | cons entry rest ih =>
      obtain ⟨k, v⟩ := entry
      rw [List.map_cons, List.nodup_cons] at h
      have hrest : find? key (insertAll table ((k, v) :: rest)) =
          (find? key rest).or (find? key (insert k v table)) := ih h.2 (insert k v table)
      rw [hrest, find?_insert]
      simp only [find?]
      split
      · rename_i hk
        subst hk
        cases hfind : find? k rest with
        | none => rfl
        | some value => exact absurd (List.mem_map.mpr ⟨_, mem_of_find? hfind, rfl⟩) h.1
      · rfl

/-- Of the entries that are inserted, the last one with the key counts. -/
theorem find?_insertAll_reverse (key : α) (table entries : List (α × β)) : find? key (insertAll table entries) =
    ((entries.reverse.find? fun entry => entry.1 = key).map Prod.snd).or (find? key table) := by
  induction entries generalizing table with
  | nil => rfl
  | cons entry rest ih =>
      rw [insertAll, List.foldl_cons, ← insertAll, ih, find?_insert, List.reverse_cons, List.find?_append,
        Option.map_or, Option.or_assoc]
      by_cases hkey : entry.1 = key <;> simp [hkey]

/-! ## What stands in the same place -/

section

variable {γ δ : Type} {R S : γ → δ → Prop}

theorem exists_of_forall₂ {as : List γ} {bs : List δ} (h : List.Forall₂ R as bs) {a : γ} (ha : a ∈ as) :
    ∃ b ∈ bs, R a b := by
  induction h with
  | nil => cases ha
  | @cons a' b as bs hab _ ih =>
      rcases List.mem_cons.mp ha with rfl | ha
      · exact ⟨b, by simp, hab⟩
      · obtain ⟨b', hb', hR⟩ := ih ha
        exact ⟨b', by simp [hb'], hR⟩

theorem exists_of_forall₂_right {as : List γ} {bs : List δ} (h : List.Forall₂ R as bs) {b : δ} (hb : b ∈ bs) :
    ∃ a ∈ as, R a b := by
  have hflip : List.Forall₂ (flip R) bs as := h.flip
  exact exists_of_forall₂ hflip hb

theorem forall₂_imp_of_mem {as : List γ} {bs : List δ} (h : List.Forall₂ R as bs)
    (hRS : ∀ a ∈ as, ∀ b, R a b → S a b) : List.Forall₂ S as bs :=
  ((List.forall₂_and_left _ _).mpr ⟨hRS, h⟩).imp fun _ _ hab => hab.1 _ hab.2

theorem rel_imp (h : ∀ a b, R a b → S a b) {a : Option γ} {b : Option δ} (hab : Option.Rel R a b) :
    Option.Rel S a b := by
  cases hab with
  | none => exact .none
  | some hr => exact .some (h _ _ hr)

theorem rel_and_eq {a : Option γ} {b : Option δ} (h : Option.Rel R a b) :
    Option.Rel (fun x y => R x y ∧ a = some x ∧ b = some y) a b := by
  cases h with
  | none => exact .none
  | some hr => exact .some ⟨hr, rfl, rfl⟩

theorem rel_self {R : γ → γ → Prop} {a : Option γ} (h : ∀ x, a = some x → R x x) : Option.Rel R a a := by
  cases a with
  | none => exact .none
  | some x => exact .some (h x rfl)

theorem getElem?_forall₂ {as : List γ} {bs : List δ} (h : List.Forall₂ R as bs) (i : Nat) :
    Option.Rel R as[i]? bs[i]? := by
  induction h generalizing i with
  | nil => exact .none
  | cons hab _ ih =>
      cases i with
      | zero => exact .some hab
      | succ i => exact ih i

theorem exists_getElem?_forall₂ {as : List γ} {bs : List δ} (h : List.Forall₂ R as bs) {i : Nat} {a : γ}
    (ha : as[i]? = some a) : ∃ b, bs[i]? = some b ∧ R a b := by
  have hrel := getElem?_forall₂ h i
  rw [ha] at hrel
  cases hb : bs[i]? with
  | none => rw [hb] at hrel; cases hrel
  | some b =>
      rw [hb] at hrel
      cases hrel with
      | some hr => exact ⟨b, rfl, hr⟩

/-- Sorting keeps what is true place by place, if the order does not tell the sides apart. -/
theorem forall₂_mergeSort {as : List γ} {bs : List δ} {le : γ → γ → Bool} {le' : δ → δ → Bool}
    (h : List.Forall₂ R as bs) (hle : ∀ a b a' b', R a a' → R b b' → le a b = le' a' b') :
    List.Forall₂ R (as.mergeSort le) (bs.mergeSort le') := by
  obtain ⟨hlength, hzip⟩ := List.forall₂_iff_zip.mp h
  have hleft := List.map_mergeSort (l := as.zip bs) (f := Prod.fst) (r := fun x y => le x.1 y.1) (s := le)
    fun _ _ _ _ => rfl
  have hright := List.map_mergeSort (l := as.zip bs) (f := Prod.snd) (r := fun x y => le x.1 y.1) (s := le')
    fun x hx y hy => hle _ _ _ _ (hzip hx) (hzip hy)
  rw [List.map_fst_zip (Nat.le_of_eq hlength)] at hleft
  rw [List.map_snd_zip (Nat.le_of_eq hlength.symm)] at hright
  rw [← hleft, ← hright, List.forall₂_map_left_iff, List.forall₂_map_right_iff, List.forall₂_same]
  exact fun x hx => hzip (List.mem_mergeSort.mp hx)

theorem map_fst_forall₂ {κ : Type} {s : List (κ × γ)} {t : List (κ × δ)}
    (h : List.Forall₂ (fun x y => x.1 = y.1 ∧ R x.2 y.2) s t) : s.map Prod.fst = t.map Prod.fst := by
  induction h with
  | nil => rfl
  | cons hxy _ ih => rw [List.map_cons, List.map_cons, hxy.1, ih]

theorem find?_forall₂ {s : List (α × γ)} {t : List (α × δ)}
    (h : List.Forall₂ (fun x y => x.1 = y.1 ∧ R x.2 y.2) s t) (key : α) : Option.Rel R (find? key s) (find? key t) := by
  induction h with
  | nil => exact .none
  | @cons x y s t hxy _ ih =>
      obtain ⟨k, a⟩ := x
      obtain ⟨k', b⟩ := y
      obtain ⟨rfl, hab⟩ := hxy
      simp only [find?]
      split
      · exact .some hab
      · exact ih

end

end TypedTemplate.Entries
