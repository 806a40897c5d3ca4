import TypedTemplate.Object.Construct
import TypedTemplate.Proofs.Entries
import TypedTemplate.Proofs.Outcome

/-!
# What construction makes

An object that is made from an input holds what its type prescribes at every depth. It has no scopes, except inside
the objects that had a type already when they were put into the input.
-/

namespace TypedTemplate

/-! ## Objects in inputs -/

mutual

/-- The objects in an input that have a type already. -/
def Input.objects : Input → List Object
  | .typed o => [o]
  | .draft draft => draft.objects

def Draft.objects : Draft → List Object
  | .empty | .scalar _ => []
  | .sequence items => itemObjects items
  | .pairs pairs => itemPairObjects pairs

def itemObjects : List Input → List Object
  | [] => []
  | i :: rest => i.objects ++ itemObjects rest

def itemPairObjects : List (Input × Input) → List Object
  | [] => []
  | (k, v) :: rest => k.objects ++ v.objects ++ itemPairObjects rest

end

mutual

theorem Value.toInput_objects : (v : Value) → v.toInput.objects = []
  | .scalar _ => by simp only [Value.toInput, Input.objects, Draft.objects]
  | .sequence elements => by
      simp only [Value.toInput, Input.objects, Draft.objects]
      exact elementInputs_objects elements
  | .mapping entries => by
      simp only [Value.toInput, Input.objects, Draft.objects]
      exact entryInputs_objects entries

theorem elementInputs_objects : (vs : List Value) → itemObjects (elementInputs vs) = []
  | [] => by simp only [elementInputs, itemObjects]
  | v :: rest => by
      simp only [elementInputs, itemObjects, v.toInput_objects, elementInputs_objects rest, List.append_nil]

theorem entryInputs_objects : (entries : List (String × Value)) → itemPairObjects (entryInputs entries) = []
  | [] => by simp only [entryInputs, itemPairObjects]
  | (_, v) :: rest => by
      simp only [entryInputs, itemPairObjects, Input.objects, Draft.objects, v.toInput_objects,
        entryInputs_objects rest, List.append_nil]

end

/-! ## Built objects -/

/-- The object is one that constructing by the type may come to, where the objects in inputs are as given. -/
inductive Object.Built (d : Declarations) (given : Object → Prop) : Ty → Object → Prop
  | scalar {t s} : t.isScalar = true → Built d given t (.ofPayload t (.scalar s))
  | template {t text} : t.isScalar = true → Built d given t (.ofPayload t (.template text))
  | list {element elements} : (∀ o ∈ elements, Built d given element o) →
      Built d given (.list element) (.ofPayload (.list element) (.list elements))
  | map {key value pairs} : (∀ k v, (k, v) ∈ pairs → Built d given key k) →
      (∀ k v, (k, v) ∈ pairs → Built d given value v) →
      Built d given (.map key value) (.ofPayload (.map key value) (.map pairs))
  | struct {id name fields} : (fields.map Prod.fst).Nodup →
      (∀ entry ∈ fields, (Entries.find? entry.1 (d.fields id)).isSome) →
      (∀ field o f, (field, some o) ∈ fields → Entries.find? field (d.fields id) = some f → Built d given f.ty o) →
      Built d given (.struct id name) (.ofPayload (.struct id name) (.struct fields))
  | draft {name alternatives draft} : (∀ o ∈ draft.objects, given o) →
      Built d given (.choice name alternatives) (.ofPayload (.choice name alternatives) (.untyped draft))
  | same {t o} : given o → o.ty.same d t = true → Built d given t o
  | settled {name alternatives o} : given o → alternatives.any (o.ty.same d) = true →
      Built d given (.choice name alternatives) (.ofPayload (.choice name alternatives) (.typed o))

variable {d : Declarations} {given : Object → Prop} {P : Ty → Object → Prop}
variable {F : StructId → List (String × Option Object) → Prop}

/-- Each field comes once and is declared, and its value is as the declaration of the field wants it. -/
structure FieldsBuilt (Q : Field → Object → Prop) (declared : List (String × Field))
    (fields : List (String × Option Object)) : Prop where
  nodup : (fields.map Prod.fst).Nodup
  known : ∀ entry ∈ fields, (Entries.find? entry.1 declared).isSome
  built : ∀ field o f, (field, some o) ∈ fields → Entries.find? field declared = some f → Q f o

theorem FieldsBuilt.imp {Q Q' : Field → Object → Prop} {declared : List (String × Field)}
    {fields : List (String × Option Object)} (h : FieldsBuilt Q declared fields) (hq : ∀ f o, Q f o → Q' f o) :
    FieldsBuilt Q' declared fields :=
  ⟨h.nodup, h.known, fun field o f hm hf => hq f o (h.built field o f hm hf)⟩

theorem FieldsBuilt.insert {Q : Field → Object → Prop} {declared : List (String × Field)}
    {fields : List (String × Option Object)} (h : FieldsBuilt Q declared fields) {name : String} {f : Field}
    (hf : Entries.find? name declared = some f) {value : Option Object} (hv : ∀ o, value = some o → Q f o) :
    FieldsBuilt Q declared (Entries.insert name value fields) where
  nodup := Entries.nodup_insert value h.nodup
  known := by
    intro entry he
    rcases Entries.eq_or_mem_of_mem_insert he with rfl | he
    · simp [hf]
    · exact h.known entry he
  built := by
    intro field o f' hm hf'
    rcases Entries.eq_or_mem_of_mem_insert hm with heq | hm
    · cases heq
      obtain rfl : f = f' := by simpa [hf] using hf'
      exact hv o rfl
    · exact h.built field o f' hm hf'

/-- Each field of a struct is declared once, and its default is built by the type declared for it. -/
structure Declarations.Built (d : Declarations) (given : Object → Prop) : Prop where
  nodup : ∀ id, ((d.fields id).map Prod.fst).Nodup
  default : ∀ id name f o, (name, f) ∈ d.fields id → f.default = some o → o.Built d given f.ty

theorem Declarations.nodup_fields {d : Declarations} (h : ∀ entry ∈ d.finished, (entry.2.map Prod.fst).Nodup)
    (id : StructId) : ((d.fields id).map Prod.fst).Nodup := by
  cases hfind : Entries.find? id d.finished with
  | none => simp [fields, hfind]
  | some declared => simpa [fields, hfind] using h _ (Entries.mem_of_find? hfind)

theorem Declarations.built_of_noDefaults {d : Declarations} {given : Object → Prop}
    (h : ∀ entry ∈ d.finished, (entry.2.map Prod.fst).Nodup ∧ ∀ f ∈ entry.2, f.2.default = none) : d.Built given := by
  have hfields : ∀ id, d.fields id = [] ∨ ∃ entry ∈ d.finished, d.fields id = entry.2 := by
    intro id
    cases hfind : Entries.find? id d.finished with
    | none => exact .inl (by simp [fields, hfind])
    | some declared => exact .inr ⟨(id, declared), Entries.mem_of_find? hfind, by simp [fields, hfind]⟩
  constructor
  · exact nodup_fields fun entry he => (h entry he).1
  · intro id name f o hf ho
    rcases hfields id with hid | ⟨entry, he, hid⟩ <;> rw [hid] at hf
    · cases hf
    · rw [(h entry he).2 _ hf] at ho
      cases ho

/-! ## Construction -/

namespace Ty

theorem defaults_built {id : StructId} (hd : ((d.fields id).map Prod.fst).Nodup) :
    FieldsBuilt (fun f o => f.default = some o) (d.fields id) (defaults (d.fields id)) where
  nodup := by simpa [defaults, Function.comp_def] using hd
  known := by
    intro entry he
    obtain ⟨⟨name, f⟩, hf, rfl⟩ := List.mem_map.mp he
    simp [Entries.find?_of_mem hd hf]
  built := by
    intro field o f hm hf
    obtain ⟨⟨name, f'⟩, hf', heq⟩ := List.mem_map.mp hm
    simp only [Prod.mk.injEq] at heq
    obtain ⟨rfl, hdefault⟩ := heq
    obtain rfl : f' = f := by simpa [Entries.find?_of_mem hd hf'] using hf
    exact hdefault

/-- One property is of scalars as they are constructed, and of whatever is put together from parts that have it; another
one is of the fields of a struct, from their defaults on, and is kept when a field is assigned. -/
structure Assembles (d : Declarations) (given : Object → Prop) (P : Ty → Object → Prop)
    (F : StructId → List (String × Option Object) → Prop) : Prop where
  scalar {t s o} : t.isScalar = true → t.constructScalar s = .ok o → P t o
  list {element elements} : (∀ o ∈ elements, P element o) →
    P (.list element) (.ofPayload (.list element) (.list elements))
  map {key value pairs} : (∀ k v, (k, v) ∈ pairs → P key k ∧ P value v) →
    P (.map key value) (.ofPayload (.map key value) (.map pairs))
  defaults id : F id (defaults (d.fields id))
  insert {id fields name f value} : F id fields → Entries.find? name (d.fields id) = some f →
    (∀ o, value = some o → P f.ty o) → F id (Entries.insert name value fields)
  struct {id name fields} : F id fields → P (.struct id name) (.ofPayload (.struct id name) (.struct fields))
  draft {name alternatives draft} : (∀ o ∈ draft.objects, given o) →
    P (.choice name alternatives) (.ofPayload (.choice name alternatives) (.untyped draft))
  typed {t o o'} : given o → t.constructTyped d o = .ok o' → P t o'

/-- The property is one of scalars as they are constructed, and of whatever is put together from parts that have it,
the fields of a struct being left with their defaults. -/
structure Inductive (d : Declarations) (given : Object → Prop) (P : Ty → Object → Prop) : Prop where
  scalar {t s o} : t.isScalar = true → t.constructScalar s = .ok o → P t o
  list {element elements} : (∀ o ∈ elements, P element o) →
    P (.list element) (.ofPayload (.list element) (.list elements))
  map {key value pairs} : (∀ k v, (k, v) ∈ pairs → P key k ∧ P value v) →
    P (.map key value) (.ofPayload (.map key value) (.map pairs))
  struct {id name fields} : (((d.fields id).map Prod.fst).Nodup →
      FieldsBuilt (fun f o => P f.ty o ∨ f.default = some o) (d.fields id) fields) →
    P (.struct id name) (.ofPayload (.struct id name) (.struct fields))
  draft {name alternatives draft} : (∀ o ∈ draft.objects, given o) →
    P (.choice name alternatives) (.ofPayload (.choice name alternatives) (.untyped draft))
  typed {t o o'} : given o → t.constructTyped d o = .ok o' → P t o'

theorem constructScalar_ok {t : Ty} {s : Scalar} {o : Object} (h : t.constructScalar s = .ok o) :
    (∃ s', t.coerce s = .ok s' ∧ o = .ofPayload t (.scalar s')) ∨ ∃ text, o = .ofPayload t (.template text) := by
  have hscalar : ∀ {x : Except Error Scalar}, (x >>= fun s => pure (Object.ofPayload t (.scalar s))) = .ok o →
      ∃ s', x = .ok s' ∧ o = .ofPayload t (.scalar s') := by
    intro x hx
    obtain ⟨s', hs', hx⟩ := Except.bind_ok hx
    cases hx
    exact ⟨s', hs', rfl⟩
  unfold constructScalar at h
  split at h
  · split at h
    · obtain ⟨fs, -, hfs⟩ := Except.bind_ok h
      cases hfs
      exact .inr ⟨_, rfl⟩
    · exact .inl (hscalar h)
  · exact .inl (hscalar h)

theorem constructScalar_built {t : Ty} (ht : t.isScalar = true) {s : Scalar} {o : Object}
    (h : t.constructScalar s = .ok o) : o.Built d given t := by
  rcases constructScalar_ok h with ⟨s', -, rfl⟩ | ⟨text, rfl⟩
  · exact .scalar ht
  · exact .template ht

theorem constructTyped_built {t : Ty} {o o' : Object} (ho : given o) (h : t.constructTyped d o = .ok o') :
    o'.Built d given t := by
  unfold constructTyped at h
  split at h
  · rename_i hsame
    cases h
    exact .same ho hsame
  · split at h
    · split at h
      · rename_i hany
        cases h
        exact .settled ho hany
      · cases h
    · cases h

mutual

/-- A property of what is put together is one of all that is constructed. -/
theorem Assembles.of_construct (hP : Assembles d given P F) (t : Ty) : (i : Input) → (∀ o ∈ i.objects, given o) →
    {o : Object} → t.construct d i = .ok o → P t o
  | .typed o, hi, _, h => by
      simp only [construct] at h
      exact hP.typed (hi o (by simp [Input.objects])) h
  | .draft draft, hi, _, h => by
      simp only [construct] at h
      exact hP.of_draft t draft (by simpa only [Input.objects] using hi) h
termination_by structural x => x

theorem Assembles.of_draft (hP : Assembles d given P F) (t : Ty) : (draft : Draft) → (∀ o ∈ draft.objects, given o) →
    {o : Object} → t.constructDraft d draft = .ok o → P t o
  | .empty, hi, o, h => by
      cases t <;> simp only [constructDraft, reduceCtorEq, Except.ok.injEq] at h
      subst h
      exact hP.draft hi
  | .scalar s, hi, o, h => by
      cases t <;> simp only [constructDraft, reduceCtorEq, Except.ok.injEq] at h
      case choice =>
        subst h
        exact hP.draft hi
      all_goals exact hP.scalar rfl h
  | .sequence items, hi, o, h => by
      have hitems : ∀ o ∈ itemObjects items, given o := by simpa only [Draft.objects] using hi
      cases t <;> simp only [constructDraft, reduceCtorEq, Except.ok.injEq] at h
      case list element =>
        obtain ⟨os, hos, heq⟩ := Except.bind_ok h
        cases heq
        exact hP.list (hP.of_elements element items hitems hos)
      case map key value =>
        split at h
        · obtain ⟨ps, hps, heq⟩ := Except.bind_ok h
          cases heq
          exact hP.map (hP.of_items key value items hitems hps)
        · cases h
      case choice =>
        subst h
        exact hP.draft hi
  | .pairs pairs, hi, o, h => by
      have hpairs : ∀ o ∈ itemPairObjects pairs, given o := by simpa only [Draft.objects] using hi
      cases t <;> simp only [constructDraft, reduceCtorEq, Except.ok.injEq] at h
      case map key value =>
        obtain ⟨ps, hps, heq⟩ := Except.bind_ok h
        cases heq
        exact hP.map (hP.of_pairs key value pairs hpairs hps)
      case struct id name =>
        obtain ⟨fs, hfs, heq⟩ := Except.bind_ok h
        cases heq
        exact hP.struct (hP.of_assign (.struct id name) pairs hpairs (hP.defaults id) hfs)
      case choice =>
        subst h
        exact hP.draft hi
termination_by structural x => x

theorem Assembles.of_elements (hP : Assembles d given P F) (element : Ty) : (items : List Input) →
    (∀ o ∈ itemObjects items, given o) → {i : Nat} → {os : List Object} →
    constructElements d element i items = .ok os → ∀ o ∈ os, P element o
  | [], _, _, os, h => by
      simp only [constructElements, Except.ok.injEq] at h
      subst h
      simp
  | item :: rest, hi, i, os, h => by
      simp only [itemObjects, List.mem_append, or_imp, forall_and] at hi
      simp only [constructElements] at h
      obtain ⟨o, ho, h⟩ := Except.bind_ok h
      obtain ⟨others, hothers, h⟩ := Except.bind_ok h
      cases h
      have hitem := hP.of_construct element item hi.1 (atPath_ok ho)
      have hrest := hP.of_elements element rest hi.2 hothers
      simpa using ⟨hitem, hrest⟩
termination_by structural x => x

theorem Assembles.of_pairs (hP : Assembles d given P F) (key value : Ty) : (pairs : List (Input × Input)) →
    (∀ o ∈ itemPairObjects pairs, given o) → {ps : List (Object × Object)} →
    constructPairs d key value pairs = .ok ps → ∀ k v, (k, v) ∈ ps → P key k ∧ P value v
  | [], _, ps, h => by
      simp only [constructPairs, Except.ok.injEq] at h
      subst h
      simp
  | (k, v) :: rest, hi, ps, h => by
      simp only [itemPairObjects, List.mem_append, or_imp, forall_and] at hi
      simp only [constructPairs] at h
      obtain ⟨k', hk, h⟩ := Except.bind_ok h
      obtain ⟨v', hv, h⟩ := Except.bind_ok h
      obtain ⟨others, hothers, h⟩ := Except.bind_ok h
      cases h
      have hpair := And.intro (hP.of_construct key k hi.1.1 hk) (hP.of_construct value v hi.1.2 (atPath_ok hv))
      have hrest := hP.of_pairs key value rest hi.2 hothers
      intro k'' v'' hm
      rcases List.mem_cons.mp hm with heq | hm
      · cases heq
        exact hpair
      · exact hrest k'' v'' hm
termination_by structural x => x

theorem Assembles.of_items (hP : Assembles d given P F) (key value : Ty) : (items : List Input) →
    (∀ o ∈ itemObjects items, given o) → {ps : List (Object × Object)} →
    constructItems d key value items = .ok ps → ∀ k v, (k, v) ∈ ps → P key k ∧ P value v
  | .draft (.sequence [k, v]) :: rest, hi, ps, h => by
      simp only [itemObjects, Input.objects, Draft.objects, List.mem_append, or_imp, forall_and] at hi
      simp only [constructItems] at h
      obtain ⟨k', hk, h⟩ := Except.bind_ok h
      obtain ⟨v', hv, h⟩ := Except.bind_ok h
      obtain ⟨others, hothers, h⟩ := Except.bind_ok h
      cases h
      have hpair := And.intro (hP.of_construct key k hi.1.1 hk)
        (hP.of_construct value v hi.1.2.1 (atPath_ok hv))
      have hrest := hP.of_items key value rest hi.2 hothers
      intro k'' v'' hm
      rcases List.mem_cons.mp hm with heq | hm
      · cases heq
        exact hpair
      · exact hrest k'' v'' hm
  | [], _, ps, h | .typed _ :: _, _, ps, h | .draft .empty :: _, _, ps, h | .draft (.scalar _) :: _, _, ps, h
  | .draft (.pairs _) :: _, _, ps, h | .draft (.sequence []) :: _, _, ps, h
  | .draft (.sequence [_]) :: _, _, ps, h | .draft (.sequence (_ :: _ :: _ :: _)) :: _, _, ps, h => by
      simp only [constructItems, Except.ok.injEq] at h
      subst h
      simp
termination_by structural x => x

theorem Assembles.of_assign (hP : Assembles d given P F) (t : Ty) {id : StructId} : (pairs : List (Input × Input)) →
    (∀ o ∈ itemPairObjects pairs, given o) → {fields result : List (String × Option Object)} → F id fields →
    assign d t (d.fields id) fields pairs = .ok result → F id result
  | [], _, fields, result, hf, h => by
      simp only [assign, Except.ok.injEq] at h
      exact h ▸ hf
  | (key, input) :: rest, hi, fields, result, hf, h => by
      simp only [itemPairObjects, List.mem_append, or_imp, forall_and] at hi
      by_cases hempty : input = .draft .empty
      · subst hempty
        simp only [assign] at h
        obtain ⟨name, -, h⟩ := Except.bind_ok h
        split at h
        · cases h
        · rename_i f hfind
          exact hP.of_assign t rest hi.2 (hP.insert hf hfind (by simp)) h
      · rw [assign.eq_3 d t (d.fields id) fields key input rest hempty] at h
        obtain ⟨name, -, h⟩ := Except.bind_ok h
        split at h
        · cases h
        · rename_i f hfind
          obtain ⟨o, ho, h⟩ := Except.bind_ok h
          have hbuilt := hP.of_construct f.ty input hi.1.2 (atPath_ok ho)
          refine hP.of_assign t rest hi.2 (hP.insert hf hfind fun o' ho' => ?_) h
          cases ho'
          exact hbuilt
termination_by structural x => x

end

theorem Inductive.assembles (hP : Inductive d given P) : Assembles d given P fun id fields =>
    ((d.fields id).map Prod.fst).Nodup →
      FieldsBuilt (fun f o => P f.ty o ∨ f.default = some o) (d.fields id) fields where
  scalar := hP.scalar
  list := hP.list
  map := hP.map
  defaults _ hnodup := (defaults_built hnodup).imp fun _ _ => .inr
  insert hfields hf hvalue hnodup := (hfields hnodup).insert hf fun o ho => .inl (hvalue o ho)
  struct := hP.struct
  draft := hP.draft
  typed := hP.typed

/-- An inductive property is one of all that is constructed. -/
theorem Inductive.of_construct (hP : Inductive d given P) (t : Ty) (i : Input) (hi : ∀ o ∈ i.objects, given o)
    {o : Object} (h : t.construct d i = .ok o) : P t o := hP.assembles.of_construct t i hi h

theorem Inductive.of_draft (hP : Inductive d given P) (t : Ty) (draft : Draft) (hi : ∀ o ∈ draft.objects, given o)
    {o : Object} (h : t.constructDraft d draft = .ok o) : P t o := hP.assembles.of_draft t draft hi h

/-- What is built is built from what is built. -/
theorem built_inductive (hd : d.Built given) : Inductive d given fun t o => o.Built d given t where
  scalar ht h := constructScalar_built ht h
  list h := .list h
  map h := .map (fun k v hm => (h k v hm).1) fun k v hm => (h k v hm).2
  struct := by
    intro id name fields h
    replace h := h (hd.nodup id)
    refine .struct h.nodup h.known fun field o f hm hf => ?_
    rcases h.built field o f hm hf with ho | hdefault
    · exact ho
    · exact hd.default id field f o (Entries.mem_of_find? hf) hdefault
  draft h := .draft h
  typed ho h := constructTyped_built ho h

/-- What is constructed by a type is built by it. -/
theorem construct_built (hd : d.Built given) (t : Ty) (i : Input) (hi : ∀ o ∈ i.objects, given o) {o : Object}
    (h : t.construct d i = .ok o) : o.Built d given t := (built_inductive hd).of_construct t i hi h

theorem constructDraft_built (hd : d.Built given) (t : Ty) (draft : Draft) (hi : ∀ o ∈ draft.objects, given o)
    {o : Object} (h : t.constructDraft d draft = .ok o) : o.Built d given t :=
  (built_inductive hd).of_draft t draft hi h

end Ty

/-! ## Plain objects -/

/-- The object is one that constructing by the type may come to from a plain value. -/
abbrev Object.Plain (d : Declarations) (t : Ty) (o : Object) : Prop := o.Built d (fun _ => False) t

abbrev Declarations.Plain (d : Declarations) : Prop := d.Built fun _ => False

namespace Object

variable {o : Object} {t : Ty}

theorem Plain.ty_eq (h : o.Plain d t) : o.ty = t := by
  cases h with
  | same hf => exact hf.elim
  | settled hf => exact hf.elim
  | _ => rfl

theorem Plain.scopes (h : o.Plain d t) : o.scopes = [] := by
  cases h with
  | same hf => exact hf.elim
  | settled hf => exact hf.elim
  | _ => rfl

theorem Plain.fields {id : StructId} {name : String} (h : o.Plain d (.struct id name))
    {fields : List (String × Option Object)} (hp : o.payload = .struct fields) :
    FieldsBuilt (fun f o => o.Plain d f.ty) (d.fields id) fields := by
  cases h with
  | struct hnodup hknown hbuilt =>
      cases hp
      exact ⟨hnodup, hknown, hbuilt⟩
  | same hf => exact hf.elim
  | scalar _ => cases hp
  | template _ => cases hp

end Object

end TypedTemplate
