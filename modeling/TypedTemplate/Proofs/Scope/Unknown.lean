import TypedTemplate.Proofs.Object.Hides

/-!
# References that stay unknown

A reference that no scope knows is not known either in scopes whose objects hide behind those of the first ones.
-/

namespace TypedTemplate

variable {d : Declarations}

/-! ## In one environment -/

theorem Ref.subscope_ne_nil {outer full rest : Ref} (h : outer.subscope full = some rest) : rest.components ≠ [] := by
  unfold subscope at h
  split at h
  · rename_i hprefix
    cases h
    have hlength : outer.components.length < full.components.length := hprefix.1
    intro hnil
    have hdrop := congrArg List.length hnil
    simp only [length, List.length_drop, List.length_nil] at hdrop
    omega
  · cases h

/-- The bindings are of objects, and the second object hides behind the first one. -/
def Binding.Hides (d : Declarations) (b b' : Binding) : Prop :=
  ∃ o o', b = .object o ∧ b' = .object o' ∧ o.Hides d o'

namespace Environment

variable {e e' : Environment} {r : Ref}

theorem mem_candidates {o : Object} {rest : Ref} :
    (o, rest) ∈ e.candidates r ↔ ∃ key, (key, .object o) ∈ e.table ∧ key.subscope r = some rest := by
  simp only [candidates, List.mem_map, List.mem_mergeSort, List.mem_filterMap, Prod.exists]
  constructor
  · rintro ⟨key, o', rest', ⟨key', b, hm, hb⟩, heq⟩
    cases heq
    cases b with
    | text s => cases hb
    | object o' =>
        simp only [Option.map_eq_some_iff, Prod.mk.injEq] at hb
        obtain ⟨rest', hrest, rfl, rfl, rfl⟩ := hb
        exact ⟨key', hm, hrest⟩
  · rintro ⟨key, hm, hrest⟩
    exact ⟨key, o, rest, ⟨key, .object o, hm, by simp [hrest]⟩, rfl⟩

theorem findAmong_missing_iff {snapshot : Object → Except Error Value} {missing : Error} (hm : missing.isLookup = true)
    (candidates : List (Object × Ref)) : Missing (findAmong d snapshot missing candidates) ↔
      ∀ o rest, (o, rest) ∈ candidates → Missing (o.findBy d snapshot rest) := by
  induction candidates with
  | nil => simp [findAmong, missing_error, hm]
  | cons candidate others ih =>
      obtain ⟨o, rest⟩ := candidate
      have hsplit : (∀ o' rest', (o', rest') ∈ (o, rest) :: others → Missing (o'.findBy d snapshot rest')) ↔
          Missing (o.findBy d snapshot rest) ∧
            ∀ o' rest', (o', rest') ∈ others → Missing (o'.findBy d snapshot rest') := by
        simp only [List.mem_cons, or_imp, forall_and, Prod.mk.injEq, and_imp, forall_eq_apply_imp_iff, forall_eq]
      rw [hsplit, findAmong]
      cases hfound : o.findBy d snapshot rest with
      | ok found => exact iff_of_false (not_missing_ok _) fun h => not_missing_ok _ h.1
      | error err =>
          rw [missing_error, ← ih]
          dsimp only
          split
          · rename_i herr
            exact ⟨fun h => ⟨herr, h⟩, And.right⟩
          · rename_i herr
            rw [missing_error]
            exact iff_of_false herr fun h => herr h.1

/-- An environment misses a reference if it is not bound, and nothing is found in the objects that it leads into. -/
theorem findBy_missing_iff {snapshot : Object → Except Error Value} : Missing (e.findBy d snapshot r) ↔
    e.get? r = none ∧ ∀ key o rest, (key, .object o) ∈ e.table → key.subscope r = some rest →
      Missing (o.findBy d snapshot rest) := by
  unfold findBy
  cases e.get? r with
  | some b => simp [not_missing_ok]
  | none =>
      rw [findAmong_missing_iff (by rfl)]
      simp only [mem_candidates, true_and]
      exact ⟨fun h key o rest hm hrest => h o rest ⟨key, hm, hrest⟩,
        fun h o rest ⟨key, hm, hrest⟩ => h key o rest hm hrest⟩

/-- The environments bind objects to the same references, and those of the second one hide behind those of the first
one. -/
def Hides (d : Declarations) (e e' : Environment) : Prop :=
  List.Forall₂ (fun entry entry' => entry.1 = entry'.1 ∧ entry.2.Hides d entry'.2) e.table e'.table

theorem Hides.missing (h : e.Hides d e') {m n : Nat} (hmn : m ≤ n) (hn : n ≤ Object.budget)
    (hmissing : Missing (e.findBy d (Object.snapshotWithin d m) r)) :
    Missing (e'.findBy d (Object.snapshotWithin d n) r) := by
  obtain ⟨hget, hinside⟩ := findBy_missing_iff.mp hmissing
  refine findBy_missing_iff.mpr ⟨?_, fun key o' rest hm hrest => ?_⟩
  · have hfound := Entries.find?_forall₂ h r
    rw [get?] at hget ⊢
    rw [hget] at hfound
    cases hfind : Entries.find? r e'.table with
    | none => rfl
    | some b =>
        rw [hfind] at hfound
        cases hfound
  · obtain ⟨entry, hentry, hkey, o, o'', ho, ho'', hhides⟩ := Entries.exists_of_forall₂_right h hm
    cases ho''
    have hmem : (key, .object o) ∈ e.table := by
      rw [← ho, ← show entry.1 = key from hkey]
      exact hentry
    exact hhides.missing hmn hn _ (Ref.subscope_ne_nil hrest) (hinside key o rest hmem hrest)

theorem Hides.under (h : e.Hides d e') (outer : Ref) : (e.under outer).Hides d (e'.under outer) := by
  refine List.forall₂_map_left_iff.mpr (List.forall₂_map_right_iff.mpr (h.imp fun entry entry' hentry => ?_))
  exact ⟨congrArg outer.concat hentry.1, hentry.2⟩

theorem hides_fieldBindings {fields others : List (String × Option Object)}
    (h : List.Forall₂ (fun field field' => field.1 = field'.1 ∧ Option.Rel (Object.Hides d) field.2 field'.2)
      fields others) : Hides d ⟨fieldBindings fields⟩ ⟨fieldBindings others⟩ := by
  induction h with
  | nil => exact .nil
  | @cons field field' _ _ hfield _ ih =>
      obtain ⟨name, value⟩ := field
      obtain ⟨name', value'⟩ := field'
      obtain ⟨rfl, hvalue⟩ := hfield
      cases hvalue with
      | none => exact ih
      | some hvalue => exact .cons ⟨rfl, _, _, rfl, rfl, hvalue⟩ ih

end Environment

/-! ## In a chain of scopes -/

theorem lookupBy_eq_none_iff {n : Nat} {scopes : List Scope} {r : Ref} :
    lookupBy d (Object.interpolateWithin d n) 0 scopes r = .ok none ↔
      ∀ s ∈ scopes, Missing (s.findBy d (Object.snapshotWithin d n) r) := by
  induction scopes with
  | nil => simp [lookupBy]
  | cons s rest ih =>
      rw [List.forall_mem_cons, ← ih, lookupBy, ← Object.snapshotWithin]
      cases s.findBy d (Object.snapshotWithin d n) r with
      | ok b =>
          refine iff_of_false (fun h => ?_) fun h => not_missing_ok _ h.1
          dsimp only at h
          cases hb : b.renderBy (Object.interpolateWithin d n) 0 <;> rw [hb] at h <;> cases h
      | error e =>
          rw [missing_error]
          dsimp only
          split
          · rename_i he
            exact ⟨fun h => ⟨he, h⟩, And.right⟩
          · rename_i he
            exact iff_of_false (by rintro ⟨⟩) fun h => he h.1

/-- Each of the second scopes is an environment that hides behind one of the first scopes. -/
def ScopesHide (d : Declarations) (c c' : List Scope) : Prop :=
  ∀ s' ∈ c', ∃ e e', s' = .environment e' ∧ .environment e ∈ c ∧ e.Hides d e'

namespace ScopesHide

variable {c c' : List Scope}

theorem nil : ScopesHide d c [] := by rintro _ ⟨⟩

theorem append_left (own : List Scope) (h : ScopesHide d c c') : ScopesHide d (own ++ c) c' := by
  intro s' hs'
  obtain ⟨e, e', rfl, he, hhides⟩ := h s' hs'
  exact ⟨e, e', rfl, List.mem_append_right own he, hhides⟩

theorem structScopes {fields others : List (String × Option Object)}
    (hfields : List.Forall₂ (fun field field' => field.1 = field'.1 ∧ Option.Rel (Object.Hides d) field.2 field'.2)
      fields others) (h : ScopesHide d c c') : ScopesHide d (structScopes fields c) (structScopes others c') := by
  have hown := Environment.hides_fieldBindings hfields
  intro s' hs'
  simp only [TypedTemplate.structScopes, List.mem_cons, List.mem_append, List.mem_map] at hs'
  rcases hs' with rfl | rfl | hs' | ⟨s'', hs'', rfl⟩
  · exact ⟨_, _, rfl, by simp [TypedTemplate.structScopes], hown.under _⟩
  · exact ⟨_, _, rfl, by simp [TypedTemplate.structScopes], hown⟩
  · obtain ⟨e, e', rfl, he, hhides⟩ := h s' hs'
    exact ⟨e, e', rfl, by simp [TypedTemplate.structScopes, he], hhides⟩
  · obtain ⟨e, e', rfl, he, hhides⟩ := h s'' hs''
    refine ⟨e.under (.ofName "super"), _, rfl, ?_, hhides.under _⟩
    simp only [TypedTemplate.structScopes, List.mem_cons, List.mem_append, List.mem_map]
    exact .inr (.inr (.inr ⟨_, he, rfl⟩))

/-- The scopes inside of what an object comes to hide behind those inside of the object. -/
theorem innerScopes {n : Nat} (hn : n < Object.budget) {o r : Object} {outer : List Scope} {refs : List Ref}
    (hkeys : (o.inScopeAll outer).KeysClosed d)
    (hr : Object.interpolateIn d (Object.interpolateWithin d n) 0 outer o = .ok (r, refs))
    (h : ScopesHide d (o.scopes ++ outer) c) :
    ScopesHide d (o.inScopeAll outer).innerScopes (r.inScopeAll c).innerScopes := by
  obtain ⟨hscopes, ⟨fields, others, ho, hr, hfields⟩ | ⟨ho, hr⟩⟩ := Object.interpolateIn_innerScopes hn hkeys hr
  · have hinner := h.structScopes hfields
    simpa [Object.innerScopes, Object.inScopeAll, ho, hr, hscopes] using hinner
  · rwa [ho, hr]

/-- What is unknown in the first scopes is unknown in the second ones. -/
theorem lookupBy_eq_none (h : ScopesHide d c c') {m n : Nat} (hmn : m ≤ n) (hn : n ≤ Object.budget) {r : Ref}
    (hnone : lookupBy d (Object.interpolateWithin d m) 0 c r = .ok none) :
    lookupBy d (Object.interpolateWithin d n) 0 c' r = .ok none := by
  rw [lookupBy_eq_none_iff] at hnone ⊢
  intro s' hs'
  obtain ⟨e, e', rfl, he, hhides⟩ := h s' hs'
  exact hhides.missing hmn hn (hnone _ he)

end ScopesHide

end TypedTemplate
