import TypedTemplate.Proofs.Object.Shaped
import TypedTemplate.Proofs.Object.Together

/-!
# Twin objects

Objects are twins if they are built alike, from the same texts and numbers, the types in the same places are related,
and their scopes are twins again. Like types make twins of the same plain data, if their defaults are twins; and twins
look the same.
-/

namespace TypedTemplate

namespace Object

/-! ## Twins -/

mutual

/-- The objects hold the same data, their types and those of their parts are related, and they see the same. -/
inductive Twin (d : Declarations) (T : Ty → Ty → Prop) : Object → Object → Prop
  | mk {t u payload payload' scopes scopes' provided provided'} : T t u → PayloadTwin d T t u payload payload' →
      List.Forall₂ (ScopeTwin d T) scopes scopes' →
      Twin d T ⟨t, payload, scopes, provided⟩ ⟨u, payload', scopes', provided'⟩

/-- What objects of two types hold, if they are twins. The keys of maps are of the types declared for them. -/
inductive PayloadTwin (d : Declarations) (T : Ty → Ty → Prop) : Ty → Ty → Payload → Payload → Prop
  | scalar {t u s} : t.isScalar = true → PayloadTwin d T t u (.scalar s) (.scalar s)
  | template {t u text} : t.isScalar = true → PayloadTwin d T t u (.template text) (.template text)
  | list {a b os ps} : List.Forall₂ (Twin d T) os ps → PayloadTwin d T (.list a) (.list b) (.list os) (.list ps)
  | map {k k' v v' os ps} : (∀ pair ∈ os, pair.1.ty.same d k = true) → (∀ pair ∈ ps, pair.1.ty.same d k' = true) →
      List.Forall₂ (PairTwin d T) os ps → PayloadTwin d T (.map k v) (.map k' v') (.map os) (.map ps)
  | struct {id id' name name' fs gs} : List.Forall₂ (FieldTwin d T) fs gs →
      PayloadTwin d T (.struct id name) (.struct id' name') (.struct fs) (.struct gs)
  | typed {name name' as bs o p} : Twin d T o p →
      PayloadTwin d T (.choice name as) (.choice name' bs) (.typed o) (.typed p)
  | untyped {name name' as bs draft} : draft.objects = [] →
      PayloadTwin d T (.choice name as) (.choice name' bs) (.untyped draft) (.untyped draft)

inductive PairTwin (d : Declarations) (T : Ty → Ty → Prop) : Object × Object → Object × Object → Prop
  | mk {k k' v v'} : Twin d T k k' → Twin d T v v' → PairTwin d T (k, v) (k', v')

/-- Fields of one name, both empty or with twins. -/
inductive FieldTwin (d : Declarations) (T : Ty → Ty → Prop) : String × Option Object → String × Option Object → Prop
  | empty {name} : FieldTwin d T (name, none) (name, none)
  | value {name o p} : Twin d T o p → FieldTwin d T (name, some o) (name, some p)

inductive ScopeTwin (d : Declarations) (T : Ty → Ty → Prop) : Scope → Scope → Prop
  | environment {table table'} : List.Forall₂ (EntryTwin d T) table table' →
      ScopeTwin d T (.environment ⟨table⟩) (.environment ⟨table'⟩)
  | object {o p} : Twin d T o p → ScopeTwin d T (.object o) (.object p)

/-- References that are bound to one text or to twins. -/
inductive EntryTwin (d : Declarations) (T : Ty → Ty → Prop) : Ref × Binding → Ref × Binding → Prop
  | text {r s} : EntryTwin d T (r, .text s) (r, .text s)
  | object {r o p} : Twin d T o p → EntryTwin d T (r, .object o) (r, .object p)

end

/-- What a reference stands for on either side. -/
inductive BindingTwin (d : Declarations) (T : Ty → Ty → Prop) : Binding → Binding → Prop
  | text {s} : BindingTwin d T (.text s) (.text s)
  | object {o p} : Twin d T o p → BindingTwin d T (.object o) (.object p)

variable {d : Declarations} {T : Ty → Ty → Prop} {o p : Object}

theorem PairTwin.iff {x y : Object × Object} : PairTwin d T x y ↔ Twin d T x.1 y.1 ∧ Twin d T x.2 y.2 := by
  constructor
  · rintro ⟨hk, hv⟩
    exact ⟨hk, hv⟩
  · exact fun h => .mk h.1 h.2

theorem FieldTwin.iff {x y : String × Option Object} :
    FieldTwin d T x y ↔ x.1 = y.1 ∧ Option.Rel (Twin d T) x.2 y.2 := by
  obtain ⟨name, value⟩ := x
  obtain ⟨name', value'⟩ := y
  constructor
  · rintro (_ | h)
    · exact ⟨rfl, .none⟩
    · exact ⟨rfl, .some h⟩
  · rintro ⟨rfl, h | _⟩
    · exact .value h
    · exact .empty

theorem EntryTwin.iff {x y : Ref × Binding} : EntryTwin d T x y ↔ x.1 = y.1 ∧ BindingTwin d T x.2 y.2 := by
  obtain ⟨r, b⟩ := x
  obtain ⟨r', c⟩ := y
  constructor
  · rintro (_ | h)
    · exact ⟨rfl, .text⟩
    · exact ⟨rfl, .object h⟩
  · rintro ⟨rfl, _ | h⟩
    · exact .text
    · exact .object h

namespace Twin

theorem ty (h : Twin d T o p) : T o.ty p.ty := by
  cases h
  assumption

theorem scopes (h : Twin d T o p) : List.Forall₂ (ScopeTwin d T) o.scopes p.scopes := by
  cases h
  assumption

theorem typeName (hT : Ty.Alike d T) (h : Twin d T o p) : o.typeName = p.typeName := hT.name_eq _ h.ty

theorem inScopeAll (h : Twin d T o p) {scopes scopes' : List Scope} (hs : List.Forall₂ (ScopeTwin d T) scopes scopes') :
    Twin d T (o.inScopeAll scopes) (p.inScopeAll scopes') := by
  cases h with
  | mk ht hpayload hscopes => exact .mk ht hpayload (List.rel_append hscopes hs)

theorem ofPayload {t u : Ty} {payload payload' : Payload} (ht : T t u) (h : PayloadTwin d T t u payload payload') :
    Twin d T (.ofPayload t payload) (.ofPayload u payload') :=
  .mk ht h .nil

theorem isNamable (hT : Ty.Alike d T) (h : Twin d T o p) : o.isNamable = p.isNamable := by
  induction o using parts_induction generalizing p with
  | _ o ih =>
      cases h with
      | mk ht hpayload _ =>
          cases hpayload with
          | scalar | template | list | map | struct => simp only [Object.isNamable]
          | typed h =>
              simp only [Object.isNamable]
              exact ih _ (List.mem_singleton.mpr rfl) h
          | untyped =>
              simp only [Object.isNamable]
              exact hT.isNamable_eq _ ht

end Twin

/-! ## Plain views -/

theorem elementTexts_eq {os ps : List Object} (h : List.Forall₂ (fun o p => o.toString = p.toString) os ps) :
    elementTexts os = elementTexts ps := by
  induction h with
  | nil => rfl
  | cons h _ ih => rw [elementTexts, elementTexts, h, ih]

theorem pairTexts_eq {os ps : List (Object × Object)}
    (h : List.Forall₂ (fun x y => x.1.toString = y.1.toString ∧ x.2.toString = y.2.toString) os ps) :
    pairTexts os = pairTexts ps := by
  induction h with
  | nil => rfl
  | cons h _ ih => rw [pairTexts, pairTexts, h.1, h.2, ih]

theorem fieldTexts_eq {fs gs : List (String × Option Object)}
    (h : List.Forall₂ (fun x y => x.1 = y.1 ∧ Option.Rel (fun o p => o.toString = p.toString) x.2 y.2) fs gs) :
    fieldTexts fs = fieldTexts gs := by
  induction h with
  | nil => rfl
  | @cons x y _ _ h _ ih =>
      obtain ⟨name, value⟩ := x
      obtain ⟨_, value'⟩ := y
      obtain ⟨rfl, h⟩ := h
      cases h with
      | none => rw [fieldTexts, fieldTexts, ih]
      | some h => rw [fieldTexts, fieldTexts, h, ih]

theorem elementValues_eq {os ps : List Object} (h : List.Forall₂ (fun o p => o.toValue = p.toValue) os ps) :
    elementValues os = elementValues ps := by
  induction h with
  | nil => rfl
  | cons h _ ih => rw [elementValues, elementValues, h, ih]

theorem pairValues_eq {os ps : List (Object × Object)}
    (h : List.Forall₂ (fun x y => x.1.toString = y.1.toString ∧ x.2.toValue = y.2.toValue) os ps) :
    pairValues os = pairValues ps := by
  induction h with
  | nil => rfl
  | cons h _ ih => rw [pairValues, pairValues, h.1, h.2, ih]

theorem fieldValues_eq {fs gs : List (String × Option Object)}
    (h : List.Forall₂ (fun x y => x.1 = y.1 ∧ Option.Rel (fun o p => o.toValue = p.toValue) x.2 y.2) fs gs) :
    fieldValues fs = fieldValues gs := by
  induction h with
  | nil => rfl
  | @cons x y _ _ h _ ih =>
      obtain ⟨name, value⟩ := x
      obtain ⟨_, value'⟩ := y
      obtain ⟨rfl, h⟩ := h
      cases h with
      | none => rw [fieldValues, fieldValues, ih]
      | some h => rw [fieldValues, fieldValues, h, ih]

/-- Twins look the same. -/
theorem Twin.toString_toValue (hT : Ty.Alike d T) (h : Twin d T o p) :
    o.toString = p.toString ∧ o.toValue = p.toValue := by
  induction o using parts_induction generalizing p with
  | _ o ih =>
      cases h with
      | @mk t u _ _ _ _ _ _ ht hpayload _ =>
          have hname : t.name = u.name := hT.name_eq _ ht
          cases hpayload with
          | scalar | template => simp only [Object.toString, Object.toValue, Payload.toValue, and_self]
          | list hops =>
              have hparts := Entries.forall₂_imp_of_mem hops fun o hm p hop => ih o hm hop
              have htexts := elementTexts_eq (hparts.imp fun _ _ h => h.1)
              have hvalues := elementValues_eq (hparts.imp fun _ _ h => h.2)
              simp only [Object.toString, Object.toValue, Payload.toValue, hname, htexts, hvalues, and_self]
          | map _ _ hops =>
              have hparts := Payload.pairs_imp (hops.imp fun _ _ => PairTwin.iff.mp) fun o hm p hop => ih o hm hop
              have htexts := pairTexts_eq (hparts.imp fun _ _ h => ⟨h.1.1, h.2.1⟩)
              have hvalues := pairValues_eq (hparts.imp fun _ _ h => ⟨h.1.1, h.2.2⟩)
              simp only [Object.toString, Object.toValue, Payload.toValue, hname, htexts, hvalues, and_self]
          | struct hfg =>
              have hparts := Payload.fields_imp (hfg.imp fun _ _ => FieldTwin.iff.mp) fun o hm p hop => ih o hm hop
              have htexts := fieldTexts_eq (hparts.imp fun _ _ h => ⟨h.1, Entries.rel_imp (fun _ _ h => h.1) h.2⟩)
              have hvalues := fieldValues_eq (hparts.imp fun _ _ h => ⟨h.1, Entries.rel_imp (fun _ _ h => h.2) h.2⟩)
              simp only [Object.toString, Object.toValue, Payload.toValue, hname, htexts, hvalues, and_self]
          | typed h =>
              simp only [Object.toString, Object.toValue, Payload.toValue]
              exact ih _ (List.mem_singleton.mpr rfl) h
          | @untyped _ _ _ _ draft =>
              cases draft <;> simp only [Object.toString, Object.toValue, Payload.toValue, and_self]

/-! ## Construction -/

theorem fieldTwin_insert {fs gs : List (String × Option Object)} (h : List.Forall₂ (FieldTwin d T) fs gs)
    (name : String) {value value' : Option Object} (hvalue : Option.Rel (Twin d T) value value') :
    List.Forall₂ (FieldTwin d T) (Entries.insert name value fs) (Entries.insert name value' gs) := by
  induction h with
  | nil => exact .cons (FieldTwin.iff.mpr ⟨rfl, hvalue⟩) .nil
  | @cons x y fs gs hxy hrest ih =>
      obtain ⟨n, a⟩ := x
      obtain ⟨m, b⟩ := y
      obtain ⟨rfl : n = m, -⟩ := FieldTwin.iff.mp hxy
      simp only [Entries.insert]
      split
      · exact .cons (FieldTwin.iff.mpr ⟨rfl, hvalue⟩) hrest
      · exact .cons hxy ih

/-- Structs of related types start with twins in the same fields. -/
def TwinDefaults (d : Declarations) (T : Ty → Ty → Prop) : Prop :=
  ∀ id id' name name', T (.struct id name) (.struct id' name') →
    List.Forall₂ (FieldTwin d T) (Ty.defaults (d.fields id)) (Ty.defaults (d.fields id'))

theorem twin_joins (hd : TwinDefaults d T) :
    Ty.Joins d T (fun t u o p => Twin d T o p ∧ o.ty = t ∧ p.ty = u) (List.Forall₂ (FieldTwin d T)) where
  scalar h ht ho := by
    rcases Ty.constructScalar_ok ho with ⟨s, -, rfl⟩ | ⟨text, rfl⟩
    · exact ⟨.ofPayload h (.scalar ht), rfl, rfl⟩
    · exact ⟨.ofPayload h (.template ht), rfl, rfl⟩
  list h hops := ⟨.ofPayload h (.list (hops.imp fun _ _ hop => hop.1)), rfl, rfl⟩
  map h hops := by
    refine ⟨.ofPayload h (.map (fun x hx => ?_) (fun y hy => ?_) (hops.imp fun _ _ hop => ?_)), rfl, rfl⟩
    · obtain ⟨_, -, ⟨-, hk, -⟩, -⟩ := Entries.exists_of_forall₂ hops hx
      exact hk ▸ Ty.same_self d _
    · obtain ⟨_, -, ⟨-, -, hk⟩, -⟩ := Entries.exists_of_forall₂_right hops hy
      exact hk ▸ Ty.same_self d _
    · exact PairTwin.iff.mpr ⟨hop.1.1, hop.2.1⟩
  struct h hfg := ⟨.ofPayload h (.struct hfg), rfl, rfl⟩
  draft h hdraft := ⟨.ofPayload h (.untyped hdraft), rfl, rfl⟩
  defaults h := hd _ _ _ _ h
  clear field hfg := fieldTwin_insert hfg field .none
  assign field hfg hop := fieldTwin_insert hfg field (.some hop.1)

/-- Like types make twins of the same plain data. -/
theorem construct_twin (hT : Ty.Alike d T) (hd : TwinDefaults d T) {t u : Ty} (h : T t u) {i : Input}
    (hi : i.objects = []) :
    Together (fun o p => Twin d T o p ∧ o.ty = t ∧ p.ty = u) (t.construct d i) (u.construct d i) :=
  (twin_joins hd).construct hT h i hi

theorem constructDraft_twin (hT : Ty.Alike d T) (hd : TwinDefaults d T) {t u : Ty} (h : T t u) {draft : Draft}
    (hdraft : draft.objects = []) : Together (Twin d T) (t.constructDraft d draft) (u.constructDraft d draft) :=
  ((twin_joins hd).constructDraft hT h draft hdraft).imp fun _ _ hop => hop.1

end Object

end TypedTemplate
