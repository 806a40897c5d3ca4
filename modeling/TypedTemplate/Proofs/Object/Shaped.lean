import TypedTemplate.Object.Find
import TypedTemplate.Proofs.Object.Built
import TypedTemplate.Proofs.Ty.Same

/-!
# Shaped objects

An object has the shape of its type if its payload is of the kind that the type prescribes and everything in it is of
the types prescribed for its parts, up to interchangeable types. Construction makes no others.
-/

namespace TypedTemplate

/-- The objects directly inside. -/
def Payload.parts : Payload → List Object
  | .list elements => elements
  | .map pairs => pairs.flatMap fun pair => [pair.1, pair.2]
  | .struct fields => fields.filterMap Prod.snd
  | .typed inner => [inner]
  | .scalar _ | .template _ | .untyped _ => []

def Payload.isChoice : Payload → Bool
  | .typed _ | .untyped _ => true
  | _ => false

theorem Payload.mem_parts_map {pairs : List (Object × Object)} {o : Object} :
    o ∈ (Payload.map pairs).parts ↔ ∃ k v, (k, v) ∈ pairs ∧ (o = k ∨ o = v) := by simp [parts]

theorem Payload.mem_parts_struct {fields : List (String × Option Object)} {o : Object} :
    o ∈ (Payload.struct fields).parts ↔ ∃ name, (name, some o) ∈ fields := by simp [parts]

section

variable {R S : Object → Object → Prop}

theorem Payload.pairs_imp {os ps : List (Object × Object)}
    (h : List.Forall₂ (fun x y => R x.1 y.1 ∧ R x.2 y.2) os ps)
    (hRS : ∀ o ∈ (Payload.map os).parts, ∀ p, R o p → S o p) :
    List.Forall₂ (fun x y => S x.1 y.1 ∧ S x.2 y.2) os ps := by
  refine Entries.forall₂_imp_of_mem h fun pair hm pair' hpair => ⟨?_, ?_⟩
  · exact hRS _ (mem_parts_map.mpr ⟨_, _, hm, .inl rfl⟩) _ hpair.1
  · exact hRS _ (mem_parts_map.mpr ⟨_, _, hm, .inr rfl⟩) _ hpair.2

theorem Payload.fields_imp {fs gs : List (String × Option Object)}
    (h : List.Forall₂ (fun x y => x.1 = y.1 ∧ Option.Rel R x.2 y.2) fs gs)
    (hRS : ∀ o ∈ (Payload.struct fs).parts, ∀ p, R o p → S o p) :
    List.Forall₂ (fun x y => x.1 = y.1 ∧ Option.Rel S x.2 y.2) fs gs := by
  refine Entries.forall₂_imp_of_mem h ?_
  rintro ⟨name, value⟩ hm ⟨name', value'⟩ ⟨hname, hvalue⟩
  refine ⟨hname, ?_⟩
  cases hvalue with
  | none => exact .none
  | some hr => exact .some (hRS _ (mem_parts_struct.mpr ⟨name, hm⟩) _ hr)

end

namespace Object

/-- The scopes that the parts of an object see. -/
def innerScopes (o : Object) : List Scope :=
  match o.payload with
  | .struct fields => structScopes fields o.scopes
  | _ => o.scopes

theorem sizeOf_lt_of_mem_parts {o p : Object} (h : p ∈ o.payload.parts) : sizeOf p < sizeOf o := by
  obtain ⟨t, payload, scopes, provided⟩ := o
  cases payload with
  | scalar | template | untyped => cases h
  | list elements =>
      have hsize := List.sizeOf_lt_of_mem h
      simp only [Payload.parts, Object.mk.sizeOf_spec, Payload.list.sizeOf_spec] at hsize ⊢
      omega
  | map pairs =>
      obtain ⟨k, v, hm, hp⟩ := Payload.mem_parts_map.mp h
      have hsize := List.sizeOf_lt_of_mem hm
      simp only [Object.mk.sizeOf_spec, Payload.map.sizeOf_spec, Prod.mk.sizeOf_spec] at hsize ⊢
      rcases hp with rfl | rfl <;> omega
  | struct fields =>
      obtain ⟨name, hm⟩ := Payload.mem_parts_struct.mp h
      have hsize := List.sizeOf_lt_of_mem hm
      simp only [Object.mk.sizeOf_spec, Payload.struct.sizeOf_spec, Prod.mk.sizeOf_spec,
        Option.some.sizeOf_spec] at hsize ⊢
      omega
  | typed inner =>
      obtain rfl := List.mem_singleton.mp h
      simp only [Object.mk.sizeOf_spec, Payload.typed.sizeOf_spec]
      omega

/-- What holds of an object as soon as it holds of its parts holds of all objects. -/
@[elab_as_elim]
theorem parts_induction {C : Object → Prop} (h : ∀ o, (∀ p ∈ o.payload.parts, C p) → C o) (o : Object) : C o :=
  h o fun p hp =>
    have := sizeOf_lt_of_mem_parts hp
    parts_induction h p
termination_by sizeOf o

/-- The second object is the first one or stands inside it. -/
inductive Holds : Object → Object → Prop
  | self {o} : Holds o o
  | part {o p q} : p ∈ o.payload.parts → Holds p q → Holds o q

theorem forall_holds {C : Object → Prop} {o : Object} :
    (∀ p, o.Holds p → C p) ↔ C o ∧ ∀ p ∈ o.payload.parts, ∀ q, p.Holds q → C q := by
  constructor
  · exact fun h => ⟨h o .self, fun p hp q hq => h q (.part hp hq)⟩
  · rintro ⟨ho, hparts⟩ p hp
    cases hp with
    | self => exact ho
    | part hq hp => exact hparts _ hq p hp

/-- The object has the shape of its type, and so does everything inside it. -/
inductive Shaped (d : Declarations) : Object → Prop
  | scalar {t s scopes provided} : t.isScalar = true → Shaped d ⟨t, .scalar s, scopes, provided⟩
  | template {t text scopes provided} : t.isScalar = true → Shaped d ⟨t, .template text, scopes, provided⟩
  | list {element elements scopes provided} : (∀ o ∈ elements, o.ty.same d element = true) →
      (∀ o ∈ elements, Shaped d o) → Shaped d ⟨.list element, .list elements, scopes, provided⟩
  | map {key value pairs scopes provided} :
      (∀ k v, (k, v) ∈ pairs → k.ty.same d key = true ∧ v.ty.same d value = true) →
      (∀ k v, (k, v) ∈ pairs → Shaped d k) → (∀ k v, (k, v) ∈ pairs → Shaped d v) →
      Shaped d ⟨.map key value, .map pairs, scopes, provided⟩
  | struct {id name fields scopes provided} : (fields.map Prod.fst).Nodup →
      (∀ entry ∈ fields, (Entries.find? entry.1 (d.fields id)).isSome) →
      (∀ field o f, (field, some o) ∈ fields → Entries.find? field (d.fields id) = some f → o.ty.same d f.ty = true) →
      (∀ field o, (field, some o) ∈ fields → Shaped d o) →
      Shaped d ⟨.struct id name, .struct fields, scopes, provided⟩
  | typed {name alternatives inner scopes provided} : alternatives.any (inner.ty.same d) = true → Shaped d inner →
      Shaped d ⟨.choice name alternatives, .typed inner, scopes, provided⟩
  | untyped {name alternatives draft scopes provided} : (∀ o ∈ draft.objects, Shaped d o) →
      Shaped d ⟨.choice name alternatives, .untyped draft, scopes, provided⟩

variable {d : Declarations}

theorem Shaped.withScopes {o : Object} (h : o.Shaped d) (scopes provided : List Scope) :
    Shaped d ⟨o.ty, o.payload, scopes, provided⟩ := by
  cases h with
  | scalar ht => exact .scalar ht
  | template ht => exact .template ht
  | list hsame h => exact .list hsame h
  | map hsame hk hv => exact .map hsame hk hv
  | struct hnodup hknown hsame h => exact .struct hnodup hknown hsame h
  | typed hany h => exact .typed hany h
  | untyped h => exact .untyped h

theorem Shaped.inScopeAll {o : Object} (h : o.Shaped d) (scopes : List Scope) : (o.inScopeAll scopes).Shaped d :=
  h.withScopes _ _

theorem Shaped.providedAll {o : Object} (h : o.Shaped d) (scopes : List Scope) : (o.providedAll scopes).Shaped d :=
  h.withScopes _ _

theorem Shaped.part {o p : Object} (h : o.Shaped d) (hp : p ∈ o.payload.parts) : p.Shaped d := by
  cases h with
  | scalar _ | template _ | untyped _ => cases hp
  | list _ h => exact h p hp
  | map _ hk hv =>
      obtain ⟨k, v, hm, rfl | rfl⟩ := Payload.mem_parts_map.mp hp
      · exact hk _ v hm
      · exact hv k _ hm
  | struct _ _ _ h =>
      obtain ⟨field, hm⟩ := Payload.mem_parts_struct.mp hp
      exact h field p hm
  | typed _ h =>
      obtain rfl := List.mem_singleton.mp hp
      exact h

/-- The parts of an object without choices have none either. -/
theorem Shaped.noChoice_part {o p : Object} (h : o.Shaped d) (hchoice : o.ty.NoChoice d) (hp : p ∈ o.payload.parts) :
    p.ty.NoChoice d := by
  cases h with
  | scalar _ | template _ => cases hp
  | list hsame _ => exact hchoice.element.of_same (hsame p hp)
  | map hsame _ _ =>
      obtain ⟨k, v, hm, rfl | rfl⟩ := Payload.mem_parts_map.mp hp
      · exact hchoice.key.of_same (hsame _ v hm).1
      · exact hchoice.value.of_same (hsame k _ hm).2
  | struct _ hknown hsame _ =>
      obtain ⟨field, hm⟩ := Payload.mem_parts_struct.mp hp
      obtain ⟨f, hf⟩ := Option.isSome_iff_exists.mp (hknown _ hm)
      exact (hchoice.field (Entries.mem_of_find? hf)).of_same (hsame field p f hm hf)
  | typed | untyped => exact absurd hchoice Ty.not_noChoice_choice

theorem Shaped.holds {o p : Object} (h : o.Shaped d) (hchoice : o.ty.NoChoice d) (hp : o.Holds p) :
    p.Shaped d ∧ p.ty.NoChoice d := by
  induction hp with
  | self => exact ⟨h, hchoice⟩
  | part hpart _ ih => exact ih (h.part hpart) (h.noChoice_part hchoice hpart)

/-- Neither the object nor anything inside it is a choice. -/
def Choiceless (o : Object) : Prop := ∀ p, o.Holds p → p.payload.isChoice = false

theorem choiceless_iff {o : Object} :
    o.Choiceless ↔ o.payload.isChoice = false ∧ ∀ p ∈ o.payload.parts, p.Choiceless := forall_holds

theorem Choiceless.inScopeAll {o : Object} (h : o.Choiceless) (scopes : List Scope) :
    (o.inScopeAll scopes).Choiceless := by
  rw [choiceless_iff] at h ⊢
  exact h

theorem Shaped.choiceless {o : Object} (h : o.Shaped d) (hchoice : o.ty.NoChoice d) : o.Choiceless := by
  intro p hp
  obtain ⟨hshaped, hchoice⟩ := h.holds hchoice hp
  cases hshaped with
  | typed | untyped => exact absurd hchoice Ty.not_noChoice_choice
  | _ => rfl

/-- What is built from shaped objects is shaped, and of the type that it is built by. -/
theorem Built.shaped {t : Ty} {o : Object} (h : o.Built d (Shaped d) t) : o.ty.same d t = true ∧ o.Shaped d := by
  induction h with
  | scalar ht => exact ⟨Ty.same_self d _, .scalar ht⟩
  | template ht => exact ⟨Ty.same_self d _, .template ht⟩
  | list _ ih => exact ⟨Ty.same_self d _, .list (fun o ho => (ih o ho).1) fun o ho => (ih o ho).2⟩
  | map _ _ ihk ihv =>
      exact ⟨Ty.same_self d _, .map (fun k v hm => ⟨(ihk k v hm).1, (ihv k v hm).1⟩) (fun k v hm => (ihk k v hm).2)
        fun k v hm => (ihv k v hm).2⟩
  | struct hnodup hknown _ ih =>
      refine ⟨Ty.same_self d _, .struct hnodup hknown (fun field o f hm hf => (ih field o f hm hf).1) ?_⟩
      intro field o hm
      obtain ⟨f, hf⟩ := Option.isSome_iff_exists.mp (hknown _ hm)
      exact (ih field o f hm hf).2
  | draft h => exact ⟨Ty.same_self d _, .untyped h⟩
  | same h hsame => exact ⟨hsame, h⟩
  | settled h hany => exact ⟨Ty.same_self d _, .typed hany h⟩

theorem Plain.part {t : Ty} {o p : Object} (h : o.Plain d t) (hp : p ∈ o.payload.parts) : ∃ t', p.Plain d t' := by
  cases h with
  | scalar _ | template _ | draft _ => cases hp
  | list h => exact ⟨_, h p hp⟩
  | map hk hv =>
      obtain ⟨k, v, hm, rfl | rfl⟩ := Payload.mem_parts_map.mp hp
      · exact ⟨_, hk _ v hm⟩
      · exact ⟨_, hv k _ hm⟩
  | struct _ hknown h =>
      obtain ⟨field, hm⟩ := Payload.mem_parts_struct.mp hp
      obtain ⟨f, hf⟩ := Option.isSome_iff_exists.mp (hknown _ hm)
      exact ⟨_, h field p f hm hf⟩
  | same h => exact h.elim
  | settled h => exact h.elim

theorem Plain.provided {t : Ty} {o : Object} (h : o.Plain d t) : o.provided = [] := by
  cases h with
  | same h => exact h.elim
  | settled h => exact h.elim
  | _ => rfl

/-- Nothing in an object that is made from a plain value is provided with scopes. -/
theorem Plain.holds_provided {t : Ty} {o p : Object} (h : o.Plain d t) (hp : o.Holds p) : p.provided = [] := by
  induction hp generalizing t with
  | self => exact h.provided
  | part hpart _ ih =>
      obtain ⟨t', ht'⟩ := h.part hpart
      exact ih ht'

/-- What is constructed from inputs that hold shaped objects is shaped. -/
theorem construct_shaped (hd : d.Built (Shaped d)) {t : Ty} {i : Input} (hi : ∀ o ∈ i.objects, o.Shaped d) {o : Object}
    (h : t.construct d i = .ok o) : o.Shaped d := (Ty.construct_built hd t i hi h).shaped.2

variable (d) in
/-- Only in a choice is something looked up in another object than the one at hand. -/
theorem enter_eq {o : Object} (h : o.payload.isChoice = false) (r : Ref) (go : Object → Except Error Object) :
    enter d r go o = go o := by
  obtain ⟨t, payload, own, provided⟩ := o
  cases payload with
  | typed | untyped => cases h
  | _ => simp [enter, core]

end Object

end TypedTemplate
