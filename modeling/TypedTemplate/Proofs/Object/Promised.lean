import TypedTemplate.Proofs.Scope.Unknown

/-!
# What is found is promised

A type promises at least what can be found in its values: each step of a lookup leads from an object that was
constructed by some type to one that was constructed by one of the members of that type, and an alternative of a
choice that is tried is one of those that the choice makes its promises for.
-/

namespace TypedTemplate

variable {d : Declarations}

namespace Ty

/-! ## Promises -/

theorem mem_allMembers {c : Component} {t u : Ty} {ts : List Ty} (ht : t ∈ ts) (hu : u ∈ t.members d c) :
    u ∈ allMembers d c ts := by
  induction ts with
  | nil => cases ht
  | cons first rest ih =>
      rw [allMembers, List.mem_append]
      rcases List.mem_cons.mp ht with rfl | ht
      · exact .inl hu
      · exact .inr (ih ht)

/-- A path is promised if its first step leads to a member that promises the rest of it. -/
theorem reaches_cons {c : Component} {rest : List Component} {t : Ty} :
    reaches d (c :: rest) t = true ↔ ∃ u ∈ t.members d c, rest = [] ∨ reaches d rest u = true := by
  cases rest with
  | nil => simp [reaches, List.eq_nil_iff_forall_not_mem]
  | cons => simp [reaches]

/-- A choice promises what any of its alternatives does. -/
theorem reaches_alternative {name : String} {alternatives : List Ty} {t : Ty} (ht : t ∈ alternatives)
    {path : List Component} (h : reaches d path t = true) : reaches d path (.choice name alternatives) = true := by
  cases path with
  | nil => cases h
  | cons c rest =>
      obtain ⟨u, hu, hrest⟩ := reaches_cons.mp h
      exact reaches_cons.mpr ⟨u, by simpa only [members] using mem_allMembers ht hu, hrest⟩

/-- The object is constructed by a type that promises no more than the given one. -/
def Makes (d : Declarations) (t : Ty) (o : Object) : Prop :=
  ∃ u : Ty, u.PlainDefaults d ∧ o.Plain d u ∧ ∀ path, reaches d path u = true → reaches d path t = true

/-- What a type offers of a draft without objects is made by a type that promises no more. -/
theorem Offers.makes {t : Ty} {draft : Draft} {o : Object} (h : t.Offers d draft o) (ht : t.PlainDefaults d)
    (hdraft : ∀ o ∈ draft.objects, False) : t.Makes d o := by
  induction h with
  | @taken t o _ _ h => exact ⟨t, ht, (Object.constructDraft_fit ht hdraft h).1, fun _ hpath => hpath⟩
  | alternative hm _ ih =>
      obtain ⟨u, hu, ho, hpaths⟩ := ih (ht.alternative hm)
      exact ⟨u, hu, ho, fun path hpath => reaches_alternative hm (hpaths path hpath)⟩

end Ty

namespace Object

/-! ## One step -/

section

variable {go : Object → Except Error Object} {missing : Error} {draft : Draft} {found : Object}

mutual

/-- What is found in a choice is found in what one of its alternatives offers. -/
theorem tryAlternatives_ok : (ts : List Ty) → tryAlternatives d go missing draft ts = .ok found →
    ∃ t ∈ ts, ∃ o, t.Offers d draft o ∧ go o = .ok found
  | [], h => by cases h
  | t :: rest, h => by
      have hrest : tryAlternatives d go missing draft rest = .ok found →
          ∃ t' ∈ t :: rest, ∃ o, t'.Offers d draft o ∧ go o = .ok found := by
        intro h
        obtain ⟨t', ht', ho⟩ := tryAlternatives_ok rest h
        exact ⟨t', List.mem_cons_of_mem _ ht', ho⟩
      rw [tryAlternatives] at h
      split at h
      · rename_i hnamable
        split at h
        · rename_i found' hfound
          cases h
          exact ⟨t, by simp, tryAlternative_ok t hnamable hfound⟩
        · split at h
          · exact hrest h
          · cases h
      · exact hrest h

theorem tryAlternative_ok : (t : Ty) → t.isNamable = true → tryAlternative d go missing draft t = .ok found →
    ∃ o, t.Offers d draft o ∧ go o = .ok found
  | .choice name alternatives, _, h => by
      rw [tryAlternative] at h
      obtain ⟨t, ht, o, ho, hfound⟩ := tryAlternatives_ok alternatives h
      exact ⟨o, .alternative ht ho, hfound⟩
  | .list _, ht, h | .map _ _, ht, h | .struct _ _, ht, h => by
      simp only [tryAlternative] at h
      split at h
      · rename_i candidate hcandidate
        exact ⟨candidate, .taken ht rfl hcandidate, h⟩
      · cases h
  | .string, ht, _ | .integer, ht, _ | .float, ht, _ | .boolean, ht, _ | .enum _ _, ht, _ => by cases ht

end

end

section

variable {snapshot : Object → Except Error Value}

/-- A step leads to an object of a member of the type. -/
theorem Plain.step_member {t : Ty} {o found : Object} (ho : o.Plain d t) (ht : t.PlainDefaults d) {c : Component}
    (h : step d snapshot c o = .ok found) :
    ∃ u ∈ t.members d c, u.PlainDefaults d ∧ ∃ p, found.Alike p ∧ p.Plain d u := by
  cases ho with
  | scalar | template | draft => cases c <;> cases h
  | @list element elements helements =>
      obtain ⟨token, i, p, rfl, -, hp, rfl⟩ := step_list_ok h
      exact ⟨element, by simp [Ty.members, Component.isIndex], ht.element, p, ⟨rfl, rfl⟩,
        helements p (List.mem_of_getElem? hp)⟩
  | @map key value pairs _ hvalues =>
      obtain ⟨token, made, p, rfl, -, hp, rfl⟩ := step_map_ok h
      obtain ⟨k, hm⟩ := mem_of_findPair hp
      exact ⟨value, by simp [Ty.members, Component.isIndex], ht.value, p, ⟨rfl, rfl⟩, hvalues k p hm⟩
  | @struct id name fields _ hknown hfields =>
      obtain ⟨field, p, rfl, hp, rfl⟩ := step_struct_ok h
      have hm := Entries.mem_of_find? hp
      obtain ⟨f, hf⟩ := Option.isSome_iff_exists.mp (hknown _ hm)
      exact ⟨f.ty, by simp [Ty.members, show Entries.find? field (d.fields id) = some f from hf],
        ht.field (Entries.mem_of_find? hf), p, ⟨rfl, rfl⟩, hfields field p f hm hf⟩
  | same hgiven | settled hgiven => exact hgiven.elim

/-! ## The whole way -/

theorem Alike.findFrom_ok {o p found : Object} (h : o.Alike p) {path : List Component}
    (hfound : findFrom d snapshot path o = .ok found) :
    ∃ found', findFrom d snapshot path p = .ok found' ∧ found.Alike found' := by
  have halike : Alongside Alike (findFrom d snapshot path o) (findFrom d snapshot path p) := findFrom_alike path h
  rw [hfound] at halike
  generalize findFrom d snapshot path p = y at halike
  cases halike with
  | ok hfound' => exact ⟨_, rfl, hfound'⟩

/-- What is found along a path is found in an object that is no choice and promises no more. -/
theorem Plain.enters {t : Ty} {o found : Object} (ho : o.Plain d t) (ht : t.PlainDefaults d) {path : List Component}
    (h : findFrom d snapshot path o = .ok found) :
    ∃ p found', t.Makes d p ∧ follow d snapshot path p = .ok found' := by
  have hself : t.Makes d o := ⟨t, ht, ho, fun _ hpath => hpath⟩
  cases ho with
  | scalar | template | list | map | struct =>
      rw [findFrom_of_isChoice rfl] at h
      exact ⟨_, found, hself, h⟩
  | @draft name alternatives draft hdraft =>
      rw [findFrom_eq, enter] at h
      obtain ⟨alternative, hm, p, hp, hfound⟩ := tryAlternatives_ok _ h
      rw [← findFrom_of_isChoice (o := p.inScopeAll _) hp.isChoice] at hfound
      have halike : (p.inScopeAll (ofPayload (.choice name alternatives) (.untyped draft)).scopes).Alike p := ⟨rfl, rfl⟩
      obtain ⟨found', hfound', -⟩ := halike.findFrom_ok hfound
      rw [findFrom_of_isChoice hp.isChoice] at hfound'
      exact ⟨p, found', (Ty.Offers.alternative hm hp).makes ht hdraft, hfound'⟩
  | same hgiven | settled hgiven => exact hgiven.elim

/-- A path along which something is found is promised by the type of the object. -/
theorem Plain.reaches (path : List Component) {t : Ty} {o found : Object} (ho : o.Plain d t) (ht : t.PlainDefaults d)
    (h : findFrom d snapshot path o = .ok found) : Ty.reaches d path t = true := by
  induction path generalizing t o found with
  | nil =>
      obtain ⟨p, found', -, hp⟩ := ho.enters ht h
      obtain ⟨e, he⟩ := p.findNothing_error
      rw [follow, he] at hp
      cases hp
  | cons c rest ih =>
      obtain ⟨p, found', ⟨u, hu, hp, hpaths⟩, hfollow⟩ := ho.enters ht h
      refine hpaths _ (Ty.reaches_cons.mpr ?_)
      by_cases hrest : rest = []
      · subst hrest
        obtain ⟨member, hmember, -⟩ := hp.step_member hu hfollow
        exact ⟨member, hmember, .inl rfl⟩
      · rw [follow_cons c hrest] at hfollow
        obtain ⟨q, hq, hdescend⟩ := Except.bind_ok hfollow
        rw [descend] at hdescend
        split at hdescend
        · obtain ⟨member, hmember, hdefaults, q', halike, hq'⟩ := hp.step_member hu hq
          obtain ⟨found'', hfound'', -⟩ := halike.findFrom_ok hdescend
          exact ⟨member, hmember, .inr (ih hq' hdefaults hfound'')⟩
        · cases hdescend

end

/-- The object was constructed from a plain value, whatever scopes it was given since. -/
def MadePlain (d : Declarations) (o : Object) : Prop :=
  ∃ (t : Ty) (w : Value) (made : Object), t.PlainDefaults d ∧ t.construct d w.toInput = .ok made ∧ o.Alike made

theorem MadePlain.provides {o found : Object} (ho : o.MadePlain d) {snapshot : Object → Except Error Value} {r : Ref}
    (h : o.findBy d snapshot r = .ok found) : o.ty.provides d r = true := by
  obtain ⟨t, w, made, ht, hmade, halike⟩ := ho
  obtain ⟨found', hfound', -⟩ := halike.findFrom_ok h
  obtain ⟨hplain, -⟩ := construct_fit ht hmade
  rw [halike.1, hplain.ty_eq]
  exact hplain.reaches r.components ht hfound'

end Object

namespace Environment

theorem findAmong_ok {snapshot : Object → Except Error Value} {missing : Error} {candidates : List (Object × Ref)}
    {b : Binding} (h : findAmong d snapshot missing candidates = .ok b) :
    ∃ o rest found, (o, rest) ∈ candidates ∧ o.findBy d snapshot rest = .ok found := by
  induction candidates with
  | nil => cases h
  | cons candidate others ih =>
      obtain ⟨o, rest⟩ := candidate
      rw [findAmong] at h
      split at h
      · rename_i found hfound
        exact ⟨o, rest, found, by simp, hfound⟩
      · split at h
        · obtain ⟨o', rest', found, hm, hfound⟩ := ih h
          exact ⟨o', rest', found, List.mem_cons_of_mem _ hm, hfound⟩
        · cases h

theorem provides_of_findBy {e : Environment} (he : ∀ key o, (key, .object o) ∈ e.table → o.MadePlain d)
    {snapshot : Object → Except Error Value} {r : Ref} {b : Binding} (h : e.findBy d snapshot r = .ok b) :
    e.provides d r = true := by
  rw [findBy] at h
  rw [provides, Bool.or_eq_true]
  split at h
  · rename_i b' hb
    exact .inl (by simp [hb])
  · obtain ⟨o, rest, found, hm, hfound⟩ := findAmong_ok h
    obtain ⟨key, hkey, -⟩ := mem_candidates.mp hm
    exact .inr (List.any_eq_true.mpr ⟨(o, rest), hm, (he key o hkey).provides hfound⟩)

end Environment

/-- Whatever is found in an object that was constructed from a plain value is promised by the type of the object, and
whatever is found in an environment whose objects were constructed so is promised by the environment. -/
theorem provides_of_find :
    (∀ (t : Ty) (w : Value) (o found : Object) (r : Ref), t.PlainDefaults d → t.construct d w.toInput = .ok o →
      o.find d r = .ok found → o.ty.provides d r = true) ∧
    ∀ (e : Environment) (r : Ref) (b : Binding), (∀ key o, (key, .object o) ∈ e.table → o.MadePlain d) →
      e.find d r = .ok b → e.provides d r = true := by
  refine ⟨fun t w o found r ht ho h => ?_, fun e r b he h => Environment.provides_of_findBy he h⟩
  have hmade : o.MadePlain d := ⟨t, w, o, ht, ho, rfl, rfl⟩
  exact hmade.provides h

/-- A tree, whose children are leaves or trees again. -/
def tree : Declarations where
  next := 1
  finished := [(0, [("label", ⟨.string, true, none⟩),
    ("children", ⟨.map .string (.choice "Child" [.string, .struct 0 "Tree"]), false, none⟩)])]

def treeValue : Value := .mapping [("label", .string "root"), ("children", .mapping [("left", .string "leaf"),
  ("right", .mapping [("label", .string "\x7b\x7bname\x7d\x7d")])])]

/-- Where the label of the right child of a tree is. -/
def rightLabel : List Component := [.dereference "children", .index "right", .dereference "label"]

/-- A tree among other things, its own names bound. -/
def grove (o : Object) : Environment :=
  ⟨[(.ofName "t", .object (o.bindAll [.environment ⟨[(.ofName "name", .text "x")]⟩]))]⟩

/-- The label of a child is found in a choice that has not settled, and promised by the type of a tree; so it is behind
a reference that the tree is bound to. -/
theorem provides_of_find_tree : ∃ o found b, (Ty.struct 0 "Tree").construct tree treeValue.toInput = .ok o ∧
    (o.find tree ⟨rightLabel⟩ = .ok found ∧ o.ty.provides tree ⟨rightLabel⟩ = true) ∧
    (grove o).find tree ⟨.dereference "t" :: rightLabel⟩ = .ok b ∧
    (grove o).provides tree ⟨.dereference "t" :: rightLabel⟩ = true := by
  have ht : (Ty.struct 0 "Tree").PlainDefaults tree := Ty.plainDefaults_of_noDefaults _ (by decide)
  obtain ⟨o, found, b, ho, hfound, hb⟩ : ∃ o found b,
      (Ty.struct 0 "Tree").construct tree treeValue.toInput = .ok o ∧ o.find tree ⟨rightLabel⟩ = .ok found ∧
      (grove o).find tree ⟨.dereference "t" :: rightLabel⟩ = .ok b := ⟨_, _, _, by cbv, by cbv, by cbv⟩
  refine ⟨o, found, b, ho, ⟨hfound, provides_of_find.1 _ treeValue o found _ ht ho hfound⟩, hb,
    provides_of_find.2 _ _ b ?_ hb⟩
  intro key p hm
  cases List.mem_singleton.mp hm
  exact ⟨_, treeValue, o, ht, ho, rfl, rfl⟩

end TypedTemplate
