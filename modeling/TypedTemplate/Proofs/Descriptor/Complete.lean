import TypedTemplate.Proofs.Descriptor.Failure

/-!
# What is read is complete

While the fields of a struct are read, the struct can be mentioned although it has no fields yet. When the reading is
over, every struct that can be reached from the type has the fields that its own descriptor names.
-/

namespace TypedTemplate

open Descriptor

namespace Registry

open Making

variable {D D' : Dictionary}

/-! ## Readings one after the other -/

theorem grows_of_runs {v : Value} {h : Handle} (hrun : (builtins.reify v).Runs D h D') : D.Grows D' := by
  have hgrows := (reify_traces v D).grows
  rwa [hrun] at hgrows

theorem grows_of_runs_each {vs : List Value} {ts : List Ty} (hrun : (builtins.reifyEach vs).Runs D ts D') :
    D.Grows D' := by
  have hgrows : D.Grows ((builtins.reifyEach vs).outcome D).2 :=
    (reifyEach_traces fun v _ D => reify_traces v D).grows
  rwa [hrun] at hgrows

theorem grows_of_runs_fields {struct : String} {vs : List Value} {declared : List (String × Field)}
    (hrun : (builtins.reifyFields struct vs).Runs D declared D') : D.Grows D' := by
  have hgrows : D.Grows ((builtins.reifyFields struct vs).outcome D).2 :=
    (reifyFields_traces fun _ _ _ _ v _ D => reify_traces v D).grows
  rwa [hrun] at hgrows

theorem runs_reifyEach_cons {v : Value} {vs : List Value} {ts : List Ty} :
    (builtins.reifyEach (v :: vs)).Runs D ts D' ↔ ∃ h D₁, (builtins.reify v).Runs D h D₁ ∧
      ∃ types, (builtins.reifyEach vs).Runs D₁ types D' ∧ ts = h.ty :: types := by
  simp only [reifyEach, runs_bind, runs_pure]
  constructor
  · rintro ⟨h, D₁, hv, types, _, hvs, rfl, rfl⟩
    exact ⟨h, D₁, hv, types, hvs, rfl⟩
  · rintro ⟨h, D₁, hv, types, hvs, rfl⟩
    exact ⟨h, D₁, hv, types, D', hvs, rfl, rfl⟩

theorem runs_reifyEach_nil {ts : List Ty} : (builtins.reifyEach []).Runs D ts D' ↔ ts = [] ∧ D' = D := by
  rw [reifyEach, runs_pure]

theorem runs_reifyFields_cons {struct : String} {f : FieldForm} {vs : List Value} {declared : List (String × Field)} :
    (builtins.reifyFields struct (f.toValue :: vs)).Runs D declared D' ↔ ∃ h D₁, (builtins.reify f.type).Runs D h D₁ ∧
      ∃ default, (makeDefault f.name h.ty f.empty f.default).Runs D₁ default D₁ ∧
      ∃ rest, (builtins.reifyFields struct vs).Runs D₁ rest D' ∧
        declared = (f.name, ⟨h.ty, f.required, default⟩) :: rest := by
  have hreify : builtins.reifyFields struct (f.toValue :: vs) = (do
      let h ← builtins.reify f.type
      let default ← makeDefault f.name h.ty f.empty f.default
      let rest ← builtins.reifyFields struct vs
      return (f.name, ⟨h.ty, f.required, default⟩) :: rest) := by
    simp only [FieldForm.toValue, Value.string, Value.bool, reifyFields]
    rfl
  simp only [hreify, runs_bind, runs_pure]
  constructor
  · rintro ⟨h, D₁, hf, default, _, hdefault, rest, _, hrest, rfl, rfl⟩
    obtain rfl := runs_makeDefault hdefault
    exact ⟨h, _, hf, default, hdefault, rest, hrest, rfl⟩
  · rintro ⟨h, D₁, hf, default, hdefault, rest, hrest, rfl⟩
    exact ⟨h, D₁, hf, default, D₁, hdefault, rest, D', hrest, rfl, rfl⟩

theorem runs_reifyFields_nil {struct : String} {declared : List (String × Field)} :
    (builtins.reifyFields struct []).Runs D declared D' ↔ declared = [] ∧ D' = D := by
  rw [reifyFields, runs_pure]

/-- Fields are declared by the names in the descriptor, in their order. -/
theorem names_of_runs_reifyFields {struct : String} {fs : List FieldForm} {declared : List (String × Field)}
    (hrun : (builtins.reifyFields struct (fs.map FieldForm.toValue)).Runs D declared D') :
    declared.map Prod.fst = fs.map FieldForm.name := by
  induction fs generalizing D declared with
  | nil =>
      obtain ⟨rfl, -⟩ := runs_reifyFields_nil.mp hrun
      rfl
  | cons f fs ih =>
      obtain ⟨h, D₁, -, default, -, rest, hrest, rfl⟩ := runs_reifyFields_cons.mp hrun
      rw [List.map_cons, List.map_cons, ih hrest]

end Registry

theorem Declarations.find?_finish {d : Declarations} {id : StructId} (hnew : ¬ d.Finished id)
    (fields : List (String × Field)) (id' : StructId) : Entries.find? id' (d.finish id fields).finished =
      (Entries.find? id' d.finished).or (if id = id' then some fields else none) := by
  have hcontains : ¬ Entries.contains id d.finished := fun hid => hnew (Option.isSome_iff_exists.mp hid)
  rw [finish, if_neg hcontains, Entries.find?_append]
  rfl

theorem Ty.mem_allStructs {ts : List Ty} {s : StructId × String} : s ∈ allStructs ts ↔ ∃ t ∈ ts, s ∈ t.structs := by
  induction ts with
  | nil => simp [allStructs]
  | cons t rest ih => simp [allStructs, ih]

/-! ## What is read on the way -/

namespace Dictionary

/-- Reading the first descriptor in its dictionary comes to reading the second one in its own, which stands directly
inside the first. -/
inductive Enters : Value × Dictionary → Value × Dictionary → Prop
  | element {e D} : D.made? (.sequence [.string "List", e]) = none → Enters (.sequence [.string "List", e], D) (e, D)
  | key {k v D} : D.made? (.sequence [.string "Map", k, v]) = none →
      Enters (.sequence [.string "Map", k, v], D) (k, D)
  | value {k v D h D₁} : D.made? (.sequence [.string "Map", k, v]) = none → (Registry.builtins.reify k).Runs D h D₁ →
      Enters (.sequence [.string "Map", k, v], D) (v, D₁)
  | alternative {name before a after D ts D₁} :
      D.made? (.sequence [.string "Choice", .string name, .sequence (before ++ a :: after)]) = none →
      (Registry.builtins.reifyEach before).Runs D ts D₁ →
      Enters (.sequence [.string "Choice", .string name, .sequence (before ++ a :: after)], D) (a, D₁)
  | field {name before f after D declared D₁} :
      D.made? (Registry.structNamed name (before ++ f :: after)) = none →
      (Registry.builtins.reifyFields name (before.map FieldForm.toValue)).Runs (D.enter name) declared D₁ →
      Enters (Registry.structNamed name (before ++ f :: after), D) (f.type, D₁)

/-- In the course of reading the first descriptor in its dictionary, the second one is read in its own. -/
abbrev Arrives : Value × Dictionary → Value × Dictionary → Prop := Relation.ReflTransGen Enters

theorem grows_of_enters {x y : Value × Dictionary} (h : Enters x y) : x.2.Grows y.2 := by
  cases h with
  | element | key => exact .refl _
  | value _ hrun => exact Registry.grows_of_runs hrun
  | alternative _ hrun => exact Registry.grows_of_runs_each hrun
  | field _ hrun => exact (grows_enter _ _).trans (Registry.grows_of_runs_fields hrun)

theorem grows_of_arrives {x y : Value × Dictionary} (h : Arrives x y) : x.2.Grows y.2 := by
  induction h with
  | refl => exact .refl _
  | tail _ hstep ih => exact ih.trans (grows_of_enters hstep)

/-- The struct type was made in the course of the reading from the descriptor of a struct with its name and the given
fields: it has the number that was next then, and what reading these fields came to are its own. -/
def Builds (start : Value × Dictionary) (id : StructId) (name : String) (fs : List FieldForm)
    (fields : List (String × Field)) : Prop :=
  ∃ D declared D', Arrives start (Registry.structNamed name fs, D) ∧ D.made? (Registry.structNamed name fs) = none ∧
    D.declarations.next = id ∧
    (Registry.builtins.reifyFields name (fs.map FieldForm.toValue)).Runs (D.enter name) declared D' ∧
    fields = Entries.ofList declared

theorem Builds.next_le {start : Value × Dictionary} {id : StructId} {name : String} {fs : List FieldForm}
    {fields : List (String × Field)} (h : Builds start id name fs fields) : start.2.declarations.next ≤ id := by
  obtain ⟨D, declared, D', harrives, -, rfl, -⟩ := h
  exact (grows_of_arrives harrives).next

/-- A struct type has one field for each name that a field has in its descriptor. -/
theorem Builds.keys {start : Value × Dictionary} {id : StructId} {name : String} {fs : List FieldForm}
    {fields : List (String × Field)} (h : Builds start id name fs fields) :
    (fields.map Prod.fst).Nodup ∧ ∀ attr, attr ∈ fields.map Prod.fst ↔ ∃ f ∈ fs, f.name = attr := by
  obtain ⟨D, declared, D', -, -, -, hrun, rfl⟩ := h
  refine ⟨Entries.nodup_ofList declared, fun attr => ?_⟩
  rw [Entries.mem_map_fst_ofList, Registry.names_of_runs_reifyFields hrun, List.mem_map]

/-! ## Structs that are open -/

section

variable (start : Value × Dictionary) (opens : List (StructId × String)) (D : Dictionary)

/-- Every struct in the type is one of those whose fields are still being read, or has got its fields in the course of
the reading. -/
def Knows (t : Ty) : Prop :=
  ∀ s ∈ t.structs, s ∈ opens ∨
    ∃ fs fields, Entries.find? s.1 D.declarations.finished = some fields ∧ Builds start s.1 s.2 fs fields

/-- Nothing that is remembered mentions a struct that is neither open nor built. -/
structure Sound : Prop where
  bounded : D.declarations.Bounded
  memo : ∀ entry ∈ D.memo, D.Knows start opens entry.2.ty
  structs : ∀ entry ∈ D.structs, D.Knows start opens entry.2.ty
  fields : ∀ id name fs fields, Entries.find? id D.declarations.finished = some fields →
    Builds start id name fs fields → ∀ entry ∈ fields, D.Knows start opens entry.2.ty

end

section

variable {start : Value × Dictionary} {opens : List (StructId × String)} {D D' D₁ : Dictionary}

theorem Knows.mono {t : Ty} (h : D.Knows start opens t) (hgrows : D.Grows D') : D'.Knows start opens t := by
  intro s hs
  refine (h s hs).imp_right ?_
  rintro ⟨fs, fields, hfields, hbuilds⟩
  exact ⟨fs, fields, hgrows.kept _ _ hfields, hbuilds⟩

theorem knows_choice {name : String} {ts : List Ty} (h : ∀ t ∈ ts, D.Knows start opens t) :
    D.Knows start opens (.choice name ts) := by
  intro s hs
  rw [Ty.structs] at hs
  obtain ⟨t, ht, hs⟩ := Ty.mem_allStructs.mp hs
  exact h t ht s hs

theorem knows_map {k v : Ty} (hk : D.Knows start opens k) (hv : D.Knows start opens v) :
    D.Knows start opens (.map k v) := by
  intro s hs
  rw [Ty.structs, List.mem_append] at hs
  exact hs.elim (hk s) (hv s)

theorem knows_list {t : Ty} (h : D.Knows start opens t) : D.Knows start opens (.list t) := by
  rwa [Knows, Ty.structs]

theorem knows_of_isScalar {t : Ty} (ht : t.isScalar) : D.Knows start opens t := by
  intro s hs
  cases t with
  | string | integer | float | boolean | enum _ _ => simp [Ty.structs] at hs
  | list _ | map _ _ | struct _ _ | choice _ _ => cases ht

/-- While the fields of the struct are read, it counts as open. -/
theorem Sound.enter (h : D.Sound start opens) (name : String) :
    (D.enter name).Sound start ((D.declarations.next, name) :: opens) := by
  have hopens : ∀ t, D.Knows start opens t → (D.enter name).Knows start ((D.declarations.next, name) :: opens) t :=
    fun t ht s hs => (ht s hs).imp_left (List.mem_cons_of_mem _)
  refine ⟨(grows_enter D name).bounded h.bounded, fun entry he => hopens _ (h.memo entry he), fun entry he => ?_,
    fun id n fs fields hid hbuilds entry he => hopens _ (h.fields id n fs fields hid hbuilds entry he)⟩
  rcases Entries.eq_or_mem_of_mem_insert he with rfl | he
  · exact fun s hs => .inl (by simp_all [Ty.structs])
  · exact hopens _ (h.structs entry he)

theorem Sound.skip (h : D.Sound start opens) : D.skip.Sound start opens :=
  ⟨(grows_skip D).bounded h.bounded, h.memo, h.structs, h.fields⟩

theorem Sound.record (h : D.Sound start opens) (v : Value) {t : Handle} (ht : D.Knows start opens t.ty) :
    (D.record v t).Sound start opens :=
  ⟨h.bounded, List.forall_mem_cons.mpr ⟨ht, h.memo⟩, h.structs, h.fields⟩

/-- With its fields the struct is no longer open. -/
theorem Sound.finish {name : String} {fs : List FieldForm} {declared : List (String × Field)}
    (hD : D.declarations.Bounded) (hgrows : (D.enter name).Grows D₁)
    (h : D₁.Sound start ((D.declarations.next, name) :: opens))
    (hdeclared : ∀ entry ∈ declared, D₁.Knows start ((D.declarations.next, name) :: opens) entry.2.ty)
    (hbuilds : Builds start D.declarations.next name fs (Entries.ofList declared)) :
    let D₂ := D₁.finishStruct ⟨D.declarations.next, .struct D.declarations.next name⟩ declared
    D₂.Sound start opens ∧ D₂.Knows start opens (.struct D.declarations.next name) := by
  intro D₂
  have hnew : ¬ D₁.declarations.Finished D.declarations.next := by
    rw [hgrows.finished_iff (Nat.lt_succ_self _)]
    exact fun hid => Nat.lt_irrefl _ (hD _ hid)
  have hfind : ∀ id, Entries.find? id D₂.declarations.finished = (Entries.find? id D₁.declarations.finished).or
      (if D.declarations.next = id then some (Entries.ofList declared) else none) :=
    Declarations.find?_finish hnew _
  have hself : Entries.find? D.declarations.next D₂.declarations.finished = some (Entries.ofList declared) := by
    rw [hfind, Option.not_isSome_iff_eq_none.mp fun hid => hnew (Option.isSome_iff_exists.mp hid), Option.none_or,
      if_pos rfl]
  -- What was known when the struct was open is known now, for the struct is built.
  have hknows : ∀ t, D₁.Knows start ((D.declarations.next, name) :: opens) t → D₂.Knows start opens t := by
    intro t ht s hs
    rcases ht s hs with hm | ⟨fs', fields, hfields, hbuilds'⟩
    · rcases List.mem_cons.mp hm with rfl | hm
      · exact .inr ⟨fs, _, hself, hbuilds⟩
      · exact .inl hm
    · exact .inr ⟨fs', fields, Declarations.extends_finish _ _ _ _ _ hfields, hbuilds'⟩
  refine ⟨⟨(hgrows.finishStruct declared).bounded hD, fun entry he => hknows _ (h.memo entry he),
    fun entry he => hknows _ (h.structs entry he), fun id n fs' fields hid hbuilds' entry he => ?_⟩,
    hknows _ fun s hs => .inl (by simp [Ty.structs] at hs; simp [hs])⟩
  rw [hfind, Option.or_eq_some_iff] at hid
  rcases hid with hid | ⟨-, hid⟩
  · exact hknows _ (h.fields id n fs' fields hid hbuilds' entry he)
  · split at hid
    · cases hid
      exact hknows _ (hdeclared entry (Entries.mem_of_mem_ofList he))
    · cases hid

end

end Dictionary

namespace Registry

open Making Dictionary

variable {start : Value × Dictionary} {opens : List (StructId × String)} {D D' : Dictionary} {h : Handle} {v : Value}

/-- A type is made from a descriptor without a known tag only if it is remembered. -/
theorem runs_of_unknown {tag : String} {params : List Value} (htag : tag ∉ SchemaDocument.builtinTags)
    (hrun : (builtins.reify (.sequence (.string tag :: params))).Runs D h D') :
    D.made? (.sequence (.string tag :: params)) = some h ∧ D' = D := by
  have hreify : builtins.reify (.sequence (.string tag :: params)) = remembered (.sequence (.string tag :: params))
      (builtins.makeTagged (.sequence (.string tag :: params)) tag (builtins.reifyParams params) params) := rfl
  rw [hreify, runs_remembered] at hrun
  refine hrun.resolve_right fun ⟨_, hmake⟩ => ?_
  rw [makeTagged.eq_def] at hmake
  split at hmake
  · rename_i name hshort
    obtain ⟨rfl, -⟩ := shortForm?_eq_some hshort
    exact htag (by decide)
  · split at hmake
    · exact runs_throw hmake
    · rename_i f hf
      have htags : builtins.factories.map Prod.fst = SchemaDocument.builtinTags := rfl
      exact htag (htags ▸ List.mem_map_of_mem (Entries.mem_of_find? hf))

theorem sound_of_made (hD : D.Sound start opens) (hmade : D.made? v = some h ∧ D' = D) :
    D'.Sound start opens ∧ D'.Knows start opens h.ty := by
  obtain ⟨hmade, rfl⟩ := hmade
  obtain ⟨entry, hfind, rfl⟩ := Option.map_eq_some_iff.mp hmade
  exact ⟨hD, hD.memo entry (List.mem_of_find?_eq_some hfind)⟩

/-- What is remembered is known. What is made is recorded, and has to be known. -/
theorem sound_of_runs {make : Making Handle} (hD : D.Sound start opens)
    (hrun : (remembered v (recorded v make)).Runs D h D')
    (hmake : ∀ D₁, D.made? v = none → make.Runs D h D₁ → D₁.Sound start opens ∧ D₁.Knows start opens h.ty) :
    D'.Sound start opens ∧ D'.Knows start opens h.ty := by
  rcases runs_remembered.mp hrun with hmade | ⟨hnone, hrun⟩
  · exact sound_of_made hD hmade
  · obtain ⟨D₁, hmade, rfl⟩ := runs_recorded.mp hrun
    obtain ⟨hD₁, ht⟩ := hmake D₁ hnone hmade
    exact ⟨hD₁.record v ht, ht⟩

theorem sound_of_fresh {t : Ty} (hD : D.Sound start opens) (ht : D.Knows start opens t)
    (hrun : (Making.fresh t).Runs D h D') : D'.Sound start opens ∧ D'.Knows start opens h.ty := by
  obtain ⟨rfl, rfl⟩ := runs_fresh.mp hrun
  exact ⟨hD.skip, ht.mono (grows_skip D)⟩

/-- In the course of the reading, the second value is read as the descriptor of a known type. -/
def ReadsSoundly (start : Value × Dictionary) (v : Value) : Prop :=
  ∀ ⦃opens D h D'⦄, Arrives start (v, D) → D.Sound start opens → (builtins.reify v).Runs D h D' →
    D'.Sound start opens ∧ D'.Knows start opens h.ty

theorem sound_of_reifyEach {vs : List Value} {ts : List Ty} (hvs : ∀ v ∈ vs, ReadsSoundly start v)
    (harrives : ∀ before v after E types, vs = before ++ v :: after → (builtins.reifyEach before).Runs D types E →
      Arrives start (v, E))
    (hD : D.Sound start opens) (hrun : (builtins.reifyEach vs).Runs D ts D') :
    D'.Sound start opens ∧ ∀ t ∈ ts, D'.Knows start opens t := by
  induction vs generalizing D ts with
  | nil =>
      obtain ⟨rfl, rfl⟩ := runs_reifyEach_nil.mp hrun
      exact ⟨hD, by simp⟩
  | cons v vs ih =>
      obtain ⟨t, D₁, hv, types, hrest, rfl⟩ := runs_reifyEach_cons.mp hrun
      have hnil : (builtins.reifyEach []).Runs D [] D := runs_reifyEach_nil.mpr ⟨rfl, rfl⟩
      obtain ⟨hD₁, ht⟩ := hvs v (by simp) (harrives [] v vs D [] rfl hnil) hD hv
      obtain ⟨hD', htypes⟩ := ih (fun w hw => hvs w (List.mem_cons_of_mem _ hw))
        (fun before w after E ts' heq hbefore => harrives (v :: before) w after E _ (by rw [heq, List.cons_append])
          (runs_reifyEach_cons.mpr ⟨t, D₁, hv, ts', hbefore, rfl⟩)) hD₁ hrest
      exact ⟨hD', List.forall_mem_cons.mpr ⟨ht.mono (grows_of_runs_each hrest), htypes⟩⟩

theorem sound_of_reifyFields {struct : String} {fs : List FieldForm} {declared : List (String × Field)}
    (hfs : ∀ f ∈ fs, ReadsSoundly start f.type)
    (harrives : ∀ before f after E fields, fs = before ++ f :: after →
      (builtins.reifyFields struct (before.map FieldForm.toValue)).Runs D fields E → Arrives start (f.type, E))
    (hD : D.Sound start opens) (hrun : (builtins.reifyFields struct (fs.map FieldForm.toValue)).Runs D declared D') :
    D'.Sound start opens ∧ ∀ entry ∈ declared, D'.Knows start opens entry.2.ty := by
  induction fs generalizing D declared with
  | nil =>
      obtain ⟨rfl, rfl⟩ := runs_reifyFields_nil.mp hrun
      exact ⟨hD, by simp⟩
  | cons f fs ih =>
      obtain ⟨t, D₁, hf, default, hdefault, rest, hrest, rfl⟩ := runs_reifyFields_cons.mp hrun
      have hnil : (builtins.reifyFields struct []).Runs D [] D := runs_reifyFields_nil.mpr ⟨rfl, rfl⟩
      obtain ⟨hD₁, ht⟩ := hfs f (by simp) (harrives [] f fs D [] rfl hnil) hD hf
      obtain ⟨hD', hfields⟩ := ih (fun g hg => hfs g (List.mem_cons_of_mem _ hg))
        (fun before g after E fields heq hbefore => harrives (f :: before) g after E _ (by rw [heq, List.cons_append])
          (runs_reifyFields_cons.mpr ⟨t, D₁, hf, default, hdefault, fields, hbefore, rfl⟩)) hD₁ hrest
      exact ⟨hD', List.forall_mem_cons.mpr ⟨ht.mono (grows_of_runs_fields hrest), hfields⟩⟩

/-- Whatever is read on the way, no struct is known but those that are open and those that are built. -/
theorem reads_soundly (hv : WellFormed v) : ReadsSoundly start v := by
  induction hv with
  | @scalar tag htag =>
      intro opens D h D' _ hD hrun
      simp only [scalarTags, List.mem_cons, List.not_mem_nil, or_false] at htag
      rcases htag with rfl | rfl | rfl | rfl <;>
        exact sound_of_runs hD hrun fun D₁ _ hfresh => sound_of_fresh hD (knows_of_isScalar rfl) hfresh
  | enum =>
      intro opens D h D' _ hD hrun
      rw [reify_enum_names] at hrun
      exact sound_of_runs hD hrun fun D₁ _ hfresh => sound_of_fresh hD (knows_of_isScalar rfl) hfresh
  | @list element _ ih =>
      intro opens D h D' harrives hD hrun
      rw [reify_list] at hrun
      refine sound_of_runs hD hrun fun D₂ hnone hmake => ?_
      obtain ⟨e, D₁, he, hfresh⟩ := runs_bind.mp hmake
      obtain ⟨hD₁, hknows⟩ := ih (harrives.tail (.element hnone)) hD he
      exact sound_of_fresh hD₁ (knows_list hknows) hfresh
  | @map key value _ _ ihk ihv =>
      intro opens D h D' harrives hD hrun
      rw [reify_map] at hrun
      refine sound_of_runs hD hrun fun D₃ hnone hmake => ?_
      simp only [runs_bind] at hmake
      obtain ⟨k, D₁, hk, w, D₂, hw, hfresh⟩ := hmake
      obtain ⟨hD₁, hkey⟩ := ihk (harrives.tail (.key hnone)) hD hk
      obtain ⟨hD₂, hvalue⟩ := ihv (harrives.tail (.value hnone hk)) hD₁ hw
      exact sound_of_fresh hD₂ (knows_map (hkey.mono (grows_of_runs hw)) hvalue) hfresh
  | @mention name =>
      intro opens D h D' _ hD hrun
      rw [reify_mention, runs_remembered, runs_declaredStruct] at hrun
      rcases hrun with hmade | ⟨-, hdeclared, rfl⟩
      · exact sound_of_made hD hmade
      · exact ⟨hD, hD.structs (name, h) (Entries.mem_of_find? hdeclared)⟩
  | @struct name fs _ ih =>
      intro opens D h D' harrives hD hrun
      rw [reify_struct] at hrun
      refine sound_of_runs hD hrun fun D₂ hnone hmake => ?_
      simp only [runs_bind, runs_freshStruct, runs_modify, runs_pure] at hmake
      obtain ⟨_, _, ⟨rfl, rfl⟩, _, _, rfl, declared, D₁, hdeclared, _, _, rfl, rfl, rfl⟩ := hmake
      obtain ⟨hD₁, hknows⟩ := sound_of_reifyFields ih
        (fun before f after E fields heq hbefore => by
          subst heq
          exact harrives.tail (.field hnone hbefore)) (hD.enter name) hdeclared
      exact Sound.finish hD.bounded (grows_of_runs_fields hdeclared) hD₁ hknows
        ⟨D, declared, D₁, harrives, hnone, rfl, hdeclared, rfl⟩
  | @choice name alternatives _ ih =>
      intro opens D h D' harrives hD hrun
      rw [reify_choice] at hrun
      refine sound_of_runs hD hrun fun D₂ hnone hmake => ?_
      obtain ⟨ts, D₁, hts, hfresh⟩ := runs_bind.mp hmake
      obtain ⟨hD₁, hknows⟩ := sound_of_reifyEach ih
        (fun before a after E types heq hbefore => by
          subst heq
          exact harrives.tail (.alternative hnone hbefore)) hD hts
      exact sound_of_fresh hD₁ (knows_choice hknows) hfresh
  | @extension tag params htag =>
      intro opens D h D' _ hD hrun
      exact sound_of_made hD (runs_of_unknown htag hrun)

theorem sound_start {d : Declarations} (hd : d.Bounded) (v : Value) :
    Dictionary.Sound (v, { declarations := d }) [] { declarations := d } := by
  refine ⟨hd, by simp, by simp, fun id name fs fields hid hbuilds => ?_⟩
  exact absurd hbuilds.next_le (Nat.not_le.mpr (hd id ⟨fields, hid⟩))

/-- When a descriptor has been read with nothing remembered before, every struct that can be reached from its type has
got its fields. They are what reading a descriptor of the struct came to on the way, one for each name that a field has
there. -/
theorem reify_complete {d : Declarations} (hd : d.Bounded) (hrun : (builtins.reify v).Runs { declarations := d } h D')
    {id : StructId} {name : String} (hreach : h.ty.Reaches D'.declarations id name) :
    ∃ fs fields, Entries.find? id D'.declarations.finished = some fields ∧
      Builds (v, { declarations := d }) id name fs fields ∧
      (fields.map Prod.fst).Nodup ∧ ∀ attr, attr ∈ fields.map Prod.fst ↔ ∃ f ∈ fs, f.name = attr := by
  have hformed : Dictionary.Formed { declarations := d } := by simp [Dictionary.Formed]
  obtain ⟨hD', hknows⟩ := reads_soundly (reify_forms v hformed hrun).1 .refl (sound_start hd v) hrun
  -- Nothing is open any more, so that what is known has been built.
  have hbuilt : ∃ fs fields, Entries.find? id D'.declarations.finished = some fields ∧
      Builds (v, { declarations := d }) id name fs fields := by
    induction hreach with
    | here hs => exact (hknows _ hs).resolve_left (by simp)
    | field _ hentry hs ih =>
        obtain ⟨fs, fields, hfields, hbuilds⟩ := ih
        rw [Declarations.fields, hfields] at hentry
        exact (hD'.fields _ _ _ _ hfields hbuilds _ hentry _ hs).resolve_left (by simp)
  obtain ⟨fs, fields, hfields, hbuilds⟩ := hbuilt
  exact ⟨fs, fields, hfields, hbuilds, hbuilds.keys⟩

def plainField (name : String) (type : Value) : FieldForm := ⟨name, false, .sequence [], true, type⟩

/-- Both structs have one name. From where the inner one is declared, the name stands for it. -/
def namesakes : Value :=
  structNamed "A" [plainField "x" (.sequence [.string "Integer"]),
    plainField "y" (.sequence [.string "List", structNamed "A" [plainField "up" (Ty.shortForm "A")]]),
    plainField "x" (.sequence [.string "Map", .sequence [.string "String"], Ty.shortForm "A"])]

theorem reify_complete_namesakes : Declarations.Bounded {} ∧ ∃ D',
    (builtins.reify namesakes).Runs {} ⟨0, .struct 0 "A"⟩ D' ∧ (Ty.struct 0 "A").Reaches D'.declarations 2 "A" ∧
    ∃ fs fields, Entries.find? 2 D'.declarations.finished = some fields ∧ Builds (namesakes, {}) 2 "A" fs fields ∧
      (fields.map Prod.fst).Nodup ∧ ∀ attr, attr ∈ fields.map Prod.fst ↔ ∃ f ∈ fs, f.name = attr := by
  have hd : Declarations.Bounded {} := Declarations.bounded_of_lt (by simp)
  obtain ⟨D', hrun, hfields⟩ : ∃ D', (builtins.reify namesakes).Runs {} ⟨0, .struct 0 "A"⟩ D' ∧
      D'.declarations.fields 0 = [("x", ⟨.map .string (.struct 2 "A"), false, none⟩),
        ("y", ⟨.list (.struct 2 "A"), false, none⟩)] := ⟨_, rfl, rfl⟩
  have hreach : (Ty.struct 0 "A").Reaches D'.declarations 2 "A" := by
    have hroot : (Ty.struct 0 "A").Reaches D'.declarations 0 "A" := .here (by simp [Ty.structs])
    have hentry : ("x", ⟨.map .string (.struct 2 "A"), false, none⟩) ∈ D'.declarations.fields 0 := by simp [hfields]
    exact hroot.field hentry (by simp [Ty.structs])
  exact ⟨hd, D', hrun, hreach, reify_complete hd hrun hreach⟩

end Registry

end TypedTemplate
