import TypedTemplate.Proofs.Value.Distinct

/-!
# Merged documents

What stands at a path of a merged document: what the upper document has there, laid over what the lower one has. What the
lower document alone has shows unless the upper one has something other than a mapping on the way. Keys of the lower
document keep their places, new ones follow in the order of the upper document, and merging a document a second time
changes nothing.
-/

namespace TypedTemplate

namespace Value

/-! ## Paths -/

/-- The value at a path of keys, which leads through mappings. -/
def at? : Value → List String → Option Value
  | v, [] => some v
  | mapping entries, key :: rest => (Entries.find? key entries).bind fun v => v.at? rest
  | _, _ :: _ => none
termination_by structural _ p => p

/-- On the way to the path, before its end, the value has a mapping or nothing. -/
def GivesWay (v : Value) (p : List String) : Prop :=
  ∀ q, q <+: p → q ≠ p → ∀ w, v.at? q = some w → ∃ entries, w = mapping entries

theorem at?_mapping (entries : List (String × Value)) (key : String) (rest : List String) :
    (mapping entries).at? (key :: rest) = (Entries.find? key entries).bind fun v => v.at? rest := rfl

theorem exists_mapping_of_at? {v w : Value} {key : String} {rest : List String} (h : v.at? (key :: rest) = some w) :
    ∃ entries inner, v = mapping entries ∧ Entries.find? key entries = some inner ∧ inner.at? rest = some w := by
  cases v with
  | scalar | sequence => cases h
  | mapping entries =>
      obtain ⟨inner, hfind, hinner⟩ := Option.bind_eq_some_iff.mp h
      exact ⟨entries, inner, rfl, hfind, hinner⟩

theorem givesWay_nil (v : Value) : v.GivesWay [] := fun _ hq hne => absurd (List.prefix_nil.mp hq) hne

theorem givesWay_cons {v : Value} {key : String} {rest : List String} :
    v.GivesWay (key :: rest) ↔
      ∃ entries, v = mapping entries ∧ ∀ w, Entries.find? key entries = some w → w.GivesWay rest := by
  constructor
  · intro h
    obtain ⟨entries, rfl⟩ := h [] List.nil_prefix (by simp) v rfl
    refine ⟨entries, rfl, fun w hw q hq hne inner hinner => ?_⟩
    exact h (key :: q) (List.cons_prefix_cons.mpr ⟨rfl, hq⟩) (by simpa using hne) inner (by rw [at?_mapping, hw]; exact hinner)
  · rintro ⟨entries, rfl, h⟩ q hq hne w hw
    cases q with
    | nil => exact ⟨entries, (Option.some.inj hw).symm⟩
    | cons k q =>
        obtain ⟨rfl, hrest⟩ := List.cons_prefix_cons.mp hq
        obtain ⟨inner, hinner, hw⟩ := Option.bind_eq_some_iff.mp hw
        exact h inner hinner q hrest (by simpa using hne) w hw

theorem givesWay_of_at? {v w : Value} {p : List String} (h : v.at? p = some w) : v.GivesWay p := by
  induction p generalizing v with
  | nil => exact givesWay_nil v
  | cons key rest ih =>
      obtain ⟨entries, inner, rfl, hinner, hw⟩ := exists_mapping_of_at? h
      refine givesWay_cons.mpr ⟨entries, rfl, fun x hx => ?_⟩
      obtain rfl : inner = x := Option.some.inj (hinner.symm.trans hx)
      exact ih hw

theorem Distinct.at? {v w : Value} {p : List String} (hv : v.Distinct) (h : v.at? p = some w) : w.Distinct := by
  induction p generalizing v with
  | nil =>
      cases h
      exact hv
  | cons key rest ih =>
      obtain ⟨entries, inner, rfl, hinner, hw⟩ := exists_mapping_of_at? h
      cases hv with
      | mapping _ hentries => exact ih (hentries _ (Entries.mem_of_find? hinner)) hw

/-! ## One level -/

theorem merge_mapping (base overlay : List (String × Value)) :
    (mapping base).merge (mapping overlay) = mapping (mergeEntries base overlay) := by
  rw [merge]

/-- Unless two mappings meet, the upper value stands alone. -/
theorem merge_of_not_mapping {a b : Value} (h : ∀ as bs, a = mapping as → b ≠ mapping bs) : a.merge b = b := by
  cases b with
  | scalar | sequence => simp [merge]
  | mapping bs =>
      cases a with
      | mapping as => exact absurd rfl (h as bs rfl)
      | scalar | sequence => simp [merge]

/-- What an entry comes to when it is laid over what there is under its key. -/
def laidOver (below : Option Value) (v : Value) : Value := below.elim v fun b => b.merge v

/-- Entries are laid over a table one after the other, and what is new comes to stand at its end. -/
theorem mergeEntries_cons (base rest : List (String × Value)) (key : String) (v : Value) :
    mergeEntries base ((key, v) :: rest) =
      mergeEntries (Entries.insert key (laidOver (Entries.find? key base) v) base) rest := by
  rw [mergeEntries]
  cases hfind : Entries.find? key base with
  | some b => rfl
  | none =>
      have hkey : key ∉ base.map Prod.fst := by simp [Entries.mem_map_fst_iff, hfind]
      rw [Entries.insert_of_not_mem _ hkey]
      rfl

theorem find?_mergeEntries {overlay : List (String × Value)} (h : (overlay.map Prod.fst).Nodup)
    (base : List (String × Value)) (key : String) : Entries.find? key (mergeEntries base overlay) =
      ((Entries.find? key overlay).map (laidOver (Entries.find? key base))).or (Entries.find? key base) := by
  induction overlay generalizing base with
  | nil => rw [mergeEntries]; rfl
  | cons entry rest ih =>
      obtain ⟨k, v⟩ := entry
      rw [List.map_cons, List.nodup_cons] at h
      rw [mergeEntries_cons, ih h.2, Entries.find?_insert]
      simp only [Entries.find?]
      split
      · rename_i hk
        subst hk
        have hrest : Entries.find? k rest = none := by
          rw [Option.eq_none_iff_forall_ne_some]
          exact fun w hw => h.1 (Entries.mem_map_fst_iff.mpr ⟨w, hw⟩)
        rw [hrest]
        rfl
      · rfl

/-- Keys keep their places, and new ones come after them in their order. -/
theorem map_fst_mergeEntries {overlay : List (String × Value)} (h : (overlay.map Prod.fst).Nodup)
    (base : List (String × Value)) : (mergeEntries base overlay).map Prod.fst =
      base.map Prod.fst ++ (overlay.map Prod.fst).filter (· ∉ base.map Prod.fst) := by
  induction overlay generalizing base with
  | nil => simp [mergeEntries]
  | cons entry rest ih =>
      obtain ⟨k, v⟩ := entry
      rw [List.map_cons, List.nodup_cons] at h
      rw [mergeEntries_cons, ih h.2]
      by_cases hk : k ∈ base.map Prod.fst
      · rw [Entries.map_fst_insert _ hk, List.map_cons, List.filter_cons_of_neg (by simpa using hk)]
      · have hfilter : (rest.map Prod.fst).filter (· ∉ (base ++ [(k, laidOver (Entries.find? k base) v)]).map Prod.fst) =
            (rest.map Prod.fst).filter (· ∉ base.map Prod.fst) := by
          refine List.filter_congr fun key hkey => ?_
          have hne : key ≠ k := fun heq => h.1 (heq ▸ hkey)
          simp [hne]
        rw [Entries.insert_of_not_mem _ hk, hfilter, List.map_cons, List.filter_cons_of_pos (by simpa using hk)]
        simp

/-! ## Paths of merged documents -/

variable {a b : Value} {p : List String}

theorem at?_merge_of_some (hb : b.Distinct) {v : Value} (h : b.at? p = some v) :
    (a.merge b).at? p = some (laidOver (a.at? p) v) := by
  induction p generalizing a b with
  | nil =>
      cases h
      rfl
  | cons key rest ih =>
      obtain ⟨bs, w, rfl, hw, hv⟩ := exists_mapping_of_at? h
      cases a with
      | scalar | sequence => rw [merge_of_not_mapping (by simp), h]; rfl
      | mapping as =>
          cases hb with
          | mapping hnodup hentries =>
              have hdistinct : w.Distinct := hentries _ (Entries.mem_of_find? hw)
              rw [merge_mapping, at?_mapping, at?_mapping, find?_mergeEntries hnodup, hw]
              cases Entries.find? key as with
              | none => exact hv
              | some x => exact ih hdistinct hv

theorem at?_merge_of_givesWay (hb : b.Distinct) (h : b.at? p = none) (hway : b.GivesWay p) :
    (a.merge b).at? p = a.at? p := by
  induction p generalizing a b with
  | nil => cases h
  | cons key rest ih =>
      obtain ⟨bs, rfl, hinner⟩ := givesWay_cons.mp hway
      cases a with
      | scalar | sequence => rw [merge_of_not_mapping (by simp), h]; rfl
      | mapping as =>
          cases hb with
          | mapping hnodup hentries =>
              rw [at?_mapping] at h
              rw [merge_mapping, at?_mapping, at?_mapping, find?_mergeEntries hnodup]
              cases hw : Entries.find? key bs with
              | none => rfl
              | some w =>
                  rw [hw] at h
                  have hdistinct : w.Distinct := hentries _ (Entries.mem_of_find? hw)
                  cases Entries.find? key as with
                  | none => exact h
                  | some x => exact ih hdistinct h (hinner w hw)

theorem at?_merge_of_not_givesWay (hb : b.Distinct) (hway : ¬ b.GivesWay p) : (a.merge b).at? p = none := by
  induction p generalizing a b with
  | nil => exact absurd (givesWay_nil b) hway
  | cons key rest ih =>
      have hnone : b.at? (key :: rest) = none :=
        Option.eq_none_iff_forall_ne_some.mpr fun w hw => hway (givesWay_of_at? hw)
      cases b with
      | scalar | sequence => rwa [merge_of_not_mapping (by simp)]
      | mapping bs =>
          cases a with
          | scalar | sequence => rwa [merge_of_not_mapping (by simp)]
          | mapping as =>
              obtain ⟨w, hw, hinner⟩ : ∃ w, Entries.find? key bs = some w ∧ ¬ w.GivesWay rest := by
                simpa [givesWay_cons] using hway
              cases hb with
              | mapping hnodup hentries =>
                  rw [at?_mapping, hw] at hnone
                  rw [merge_mapping, at?_mapping, find?_mergeEntries hnodup, hw]
                  cases Entries.find? key as with
                  | none => exact hnone
                  | some x => exact ih (hentries _ (Entries.mem_of_find? hw)) hinner

/-! ## Merging again -/

/-- Entries that change nothing under their keys leave the table as it is. -/
theorem mergeEntries_of_absorbed {base overlay : List (String × Value)}
    (h : ∀ entry ∈ overlay, ∃ v, Entries.find? entry.1 base = some v ∧ v.merge entry.2 = v) :
    mergeEntries base overlay = base := by
  induction overlay with
  | nil => rw [mergeEntries]
  | cons entry rest ih =>
      obtain ⟨v, hfind, hmerge⟩ := h entry (by simp)
      have hlaid : laidOver (Entries.find? entry.1 base) entry.2 = v := by rw [hfind]; exact hmerge
      rw [mergeEntries_cons, hlaid, Entries.insert_of_find? hfind]
      exact ih fun entry hentry => h entry (List.mem_cons_of_mem _ hentry)

theorem merge_self (hb : b.Distinct) : b.merge b = b := by
  induction hb with
  | scalar | sequence => exact merge_of_not_mapping (by simp)
  | @mapping entries hnodup _ ih =>
      rw [merge_mapping, mergeEntries_of_absorbed]
      exact fun entry hentry => ⟨entry.2, Entries.find?_of_mem hnodup hentry, ih entry hentry⟩

theorem merge_merge (hb : b.Distinct) (a : Value) : (a.merge b).merge b = a.merge b := by
  induction hb generalizing a with
  | scalar | sequence => rw [merge_of_not_mapping (by simp), merge_of_not_mapping (by simp)]
  | @mapping bs hnodup hentries ih =>
      by_cases ha : ∃ as, a = mapping as
      · obtain ⟨as, rfl⟩ := ha
        rw [merge_mapping, merge_mapping, mergeEntries_of_absorbed]
        intro entry hentry
        have hfind : Entries.find? entry.1 bs = some entry.2 := Entries.find?_of_mem hnodup hentry
        refine ⟨laidOver (Entries.find? entry.1 as) entry.2, by rw [find?_mergeEntries hnodup, hfind]; rfl, ?_⟩
        cases Entries.find? entry.1 as with
        | none => exact merge_self (hentries entry hentry)
        | some v => exact ih entry hentry v
      · have hmerge : a.merge (mapping bs) = mapping bs := merge_of_not_mapping fun as _ h => absurd ⟨as, h⟩ ha
        rw [hmerge, merge_self (.mapping hnodup hentries)]

/-! ## The merged document -/

/-- At each path of a merged document stands what the upper document has there, laid over what the lower one has if both
have mappings; what the lower document alone has, if the upper one gives way to it; and nothing otherwise. The keys of the
lower document come first, in their order, and then the new ones of the upper document in theirs. Merging the upper
document again changes nothing. -/
theorem merge_pathwise (hb : b.Distinct) (a : Value) :
    (∀ p,
      (∀ v, b.at? p = some v → (∀ as bs, a.at? p = some (mapping as) → v ≠ mapping bs) →
        (a.merge b).at? p = some v) ∧
      (∀ as bs, a.at? p = some (mapping as) → b.at? p = some (mapping bs) →
        ∃ entries, (mapping as).merge (mapping bs) = mapping entries ∧ (a.merge b).at? p = some (mapping entries) ∧
          entries.map Prod.fst = as.map Prod.fst ++ (bs.map Prod.fst).filter (· ∉ as.map Prod.fst)) ∧
      (∀ w, a.at? p = some w → b.at? p = none → b.GivesWay p → (a.merge b).at? p = some w) ∧
      (b.at? p = none → (∀ w, a.at? p = some w → ¬ b.GivesWay p) → (a.merge b).at? p = none)) ∧
    (a.merge b).merge b = a.merge b := by
  refine ⟨fun p => ⟨fun v hv h => ?_, fun as bs has hbs => ?_, fun w hw hnone hway => ?_, fun hnone h => ?_⟩,
    merge_merge hb a⟩
  · rw [at?_merge_of_some hb hv]
    cases hw : a.at? p with
    | none => rfl
    | some w => exact congrArg some (merge_of_not_mapping fun as bs has => h as bs (has ▸ hw))
  · have hmerge := merge_mapping as bs
    cases hb.at? hbs with
    | mapping hnodup _ =>
        refine ⟨mergeEntries as bs, hmerge, ?_, map_fst_mergeEntries hnodup as⟩
        rw [at?_merge_of_some hb hbs, has, ← hmerge]
        rfl
  · rw [at?_merge_of_givesWay hb hnone hway, hw]
  · by_cases hway : b.GivesWay p
    · rw [at?_merge_of_givesWay hb hnone hway]
      exact Option.eq_none_iff_forall_ne_some.mpr fun w hw => h w hw hway
    · exact at?_merge_of_not_givesWay hb hway

def lowerDocument : Value :=
  .mapping [("server", .mapping [("host", .string "local"), ("port", .string "80")]), ("tags", .mapping [("x", .null)])]

def upperDocument : Value :=
  .mapping [("debug", .null), ("server", .mapping [("tls", .null), ("port", .string "443")]), ("tags", .string "none")]

theorem merge_pathwise_documents : upperDocument.Distinct ∧
    (lowerDocument.merge upperDocument).at? ["server", "port"] = some (.string "443") ∧
    (∃ entries, (lowerDocument.merge upperDocument).at? ["server"] = some (.mapping entries) ∧
      entries.map Prod.fst = ["host", "port", "tls"]) ∧
    (upperDocument.GivesWay ["server", "host"] ∧
      (lowerDocument.merge upperDocument).at? ["server", "host"] = some (.string "local")) ∧
    (lowerDocument.merge upperDocument).at? ["tags", "x"] = none ∧
    (lowerDocument.merge upperDocument).merge upperDocument = lowerDocument.merge upperDocument := by
  have hupper : upperDocument.Distinct := by simp [upperDocument, string, null]
  obtain ⟨hpaths, hagain⟩ := merge_pathwise hupper lowerDocument
  have hway : upperDocument.GivesWay ["server", "host"] := by
    refine givesWay_cons.mpr ⟨_, rfl, ?_⟩
    rintro _ ⟨⟩
    exact givesWay_cons.mpr ⟨_, rfl, fun w _ => givesWay_nil w⟩
  have htags : ¬ upperDocument.GivesWay ["tags", "x"] := by
    intro h
    obtain ⟨_, hmapping⟩ := h ["tags"] ⟨["x"], rfl⟩ (by decide) (.string "none") rfl
    cases hmapping
  refine ⟨hupper, ?_, ?_, ⟨hway, ?_⟩, ?_, hagain⟩
  · exact (hpaths ["server", "port"]).1 _ rfl fun _ _ _ => by simp [string]
  · obtain ⟨entries, -, hentries, hkeys⟩ := (hpaths ["server"]).2.1 _ _ rfl rfl
    exact ⟨entries, hentries, hkeys⟩
  · exact (hpaths ["server", "host"]).2.2.1 _ rfl rfl hway
  · exact (hpaths ["tags", "x"]).2.2.2 rfl fun _ _ => htags

end Value

end TypedTemplate
