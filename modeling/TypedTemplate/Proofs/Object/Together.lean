import TypedTemplate.Object.Find
import TypedTemplate.Proofs.Ty.Alike

/-!
# Construction by like types

Like types take the same plain inputs. Whatever relation is kept by putting objects together holds between what they
make of them, and between what a lookup in the candidates of like alternatives leads to.
-/

namespace TypedTemplate

namespace Ty

variable {d : Declarations} {T : Ty → Ty → Prop} {P : Ty → Ty → Object → Object → Prop}
  {F : List (String × Option Object) → List (String × Option Object) → Prop}

/-- The relation holds between scalars and drafts as they are constructed, and between whatever is put together from
parts that it holds between. Another relation between the fields of structs holds from the start and is kept by
assignments. -/
structure Joins (d : Declarations) (T : Ty → Ty → Prop) (P : Ty → Ty → Object → Object → Prop)
    (F : List (String × Option Object) → List (String × Option Object) → Prop) : Prop where
  scalar {t s o} : T t t → t.isScalar = true → t.constructScalar s = .ok o → P t t o o
  list {a b os ps} : T (.list a) (.list b) → List.Forall₂ (P a b) os ps →
    P (.list a) (.list b) (.ofPayload (.list a) (.list os)) (.ofPayload (.list b) (.list ps))
  map {k k' v v' os ps} : T (.map k v) (.map k' v') →
    List.Forall₂ (fun x y => P k k' x.1 y.1 ∧ P v v' x.2 y.2) os ps →
    P (.map k v) (.map k' v') (.ofPayload (.map k v) (.map os)) (.ofPayload (.map k' v') (.map ps))
  struct {id id' name name' fs gs} : T (.struct id name) (.struct id' name') → F fs gs →
    P (.struct id name) (.struct id' name') (.ofPayload (.struct id name) (.struct fs))
      (.ofPayload (.struct id' name') (.struct gs))
  draft {name name' as bs draft} : T (.choice name as) (.choice name' bs) → draft.objects = [] →
    P (.choice name as) (.choice name' bs) (.ofPayload (.choice name as) (.untyped draft))
      (.ofPayload (.choice name' bs) (.untyped draft))
  defaults {id id' name name'} : T (.struct id name) (.struct id' name') →
    F (defaults (d.fields id)) (defaults (d.fields id'))
  clear {fs gs} (field : String) : F fs gs → F (Entries.insert field none fs) (Entries.insert field none gs)
  assign {fs gs t u o p} (field : String) : F fs gs → P t u o p →
    F (Entries.insert field (some o) fs) (Entries.insert field (some p) gs)

theorem fieldName_together (t u : Ty) (key : Input) :
    Together (fun a b => a = b) (t.fieldName key) (u.fieldName key) := by
  unfold fieldName
  split
  · exact .ok rfl
  · exact .error

mutual

theorem Joins.construct (hT : Alike d T) (hP : Joins d T P F) {t u : Ty} (h : T t u) : (i : Input) → i.objects = [] →
    Together (P t u) (t.construct d i) (u.construct d i)
  | .typed o, hi => by simp [Input.objects] at hi
  | .draft draft, hi => by
      simp only [Ty.construct]
      exact hP.constructDraft hT h draft (by simpa only [Input.objects] using hi)

theorem Joins.constructDraft (hT : Alike d T) (hP : Joins d T P F) {t u : Ty} (h : T t u) : (draft : Draft) →
    draft.objects = [] → Together (P t u) (t.constructDraft d draft) (u.constructDraft d draft)
  | .empty, hi => by
      cases hT h with
      | scalar ht => cases t <;> first | exact .error | cases ht
      | list | map | struct => exact .error
      | choice => exact .ok (hP.draft h hi)
  | .scalar s, hi => by
      cases hT h with
      | scalar ht =>
          have hconstruct : t.constructDraft d (.scalar s) = t.constructScalar s := by
            cases t <;> first | rfl | cases ht
          rw [hconstruct]
          cases ho : t.constructScalar s with
          | error e => exact .error
          | ok o => exact .ok (hP.scalar h ht ho)
      | list | map | struct => exact .error
      | choice => exact .ok (hP.draft h hi)
  | .sequence items, hi => by
      have hitems : itemObjects items = [] := by simpa only [Draft.objects] using hi
      cases hT h with
      | scalar ht => cases t <;> first | exact .error | cases ht
      | list ha =>
          simp only [Ty.constructDraft]
          exact (hP.constructElements hT ha items hitems).bind fun os ps hops => .ok (hP.list h hops)
      | map hk hv =>
          simp only [Ty.constructDraft]
          split
          · exact (hP.constructItems hT hk hv items hitems).bind fun os ps hops => .ok (hP.map h hops)
          · exact .error
      | struct => exact .error
      | choice => exact .ok (hP.draft h hi)
  | .pairs pairs, hi => by
      have hpairs : itemPairObjects pairs = [] := by simpa only [Draft.objects] using hi
      cases hT h with
      | scalar ht => cases t <;> first | exact .error | cases ht
      | list => exact .error
      | map hk hv =>
          simp only [Ty.constructDraft]
          exact (hP.constructPairs hT hk hv pairs hpairs).bind fun os ps hops => .ok (hP.map h hops)
      | struct hfields =>
          simp only [Ty.constructDraft]
          exact (hP.assignAll hT hfields pairs hpairs (hP.defaults h)).bind fun fs gs hfg => .ok (hP.struct h hfg)
      | choice => exact .ok (hP.draft h hi)

theorem Joins.constructElements (hT : Alike d T) (hP : Joins d T P F) {t u : Ty} (h : T t u) : (items : List Input) →
    itemObjects items = [] → ∀ {i j},
      Together (List.Forall₂ (P t u)) (constructElements d t i items) (constructElements d u j items)
  | [], _, _, _ => by
      simp only [Ty.constructElements]
      exact .ok .nil
  | item :: rest, hi, _, _ => by
      simp only [itemObjects, List.append_eq_nil_iff] at hi
      simp only [Ty.constructElements]
      refine ((hP.construct hT h item hi.1).atPath _ _).bind fun o p hop => ?_
      exact (hP.constructElements hT h rest hi.2).bind fun os ps hops => .ok (.cons hop hops)

theorem Joins.constructPairs (hT : Alike d T) (hP : Joins d T P F) {k k' v v' : Ty} (hk : T k k') (hv : T v v') :
    (pairs : List (Input × Input)) → itemPairObjects pairs = [] →
      Together (List.Forall₂ fun x y => P k k' x.1 y.1 ∧ P v v' x.2 y.2) (constructPairs d k v pairs)
        (constructPairs d k' v' pairs)
  | [], _ => by
      simp only [Ty.constructPairs]
      exact .ok .nil
  | (key, value) :: rest, hi => by
      simp only [itemPairObjects, List.append_eq_nil_iff] at hi
      simp only [Ty.constructPairs]
      refine (hP.construct hT hk key hi.1.1).bind fun key key' hkey => ?_
      refine ((hP.construct hT hv value hi.1.2).atPath _ _).bind fun value value' hvalue => ?_
      exact (hP.constructPairs hT hk hv rest hi.2).bind fun os ps hops => .ok (.cons ⟨hkey, hvalue⟩ hops)

theorem Joins.constructItems (hT : Alike d T) (hP : Joins d T P F) {k k' v v' : Ty} (hk : T k k') (hv : T v v') :
    (items : List Input) → itemObjects items = [] →
      Together (List.Forall₂ fun x y => P k k' x.1 y.1 ∧ P v v' x.2 y.2) (constructItems d k v items)
        (constructItems d k' v' items)
  | .draft (.sequence [key, value]) :: rest, hi => by
      simp only [itemObjects, Input.objects, Draft.objects, List.append_eq_nil_iff] at hi
      simp only [Ty.constructItems]
      refine (hP.construct hT hk key hi.1.1).bind fun key key' hkey => ?_
      refine ((hP.construct hT hv value hi.1.2.1).atPath _ _).bind fun value value' hvalue => ?_
      exact (hP.constructItems hT hk hv rest hi.2).bind fun os ps hops => .ok (.cons ⟨hkey, hvalue⟩ hops)
  | [], _ | .typed _ :: _, _ | .draft .empty :: _, _ | .draft (.scalar _) :: _, _ | .draft (.pairs _) :: _, _
  | .draft (.sequence []) :: _, _ | .draft (.sequence [_]) :: _, _
  | .draft (.sequence (_ :: _ :: _ :: _)) :: _, _ => by
      simp only [Ty.constructItems]
      exact .ok .nil

theorem Joins.assignAll (hT : Alike d T) (hP : Joins d T P F) {t u : Ty} {declared declared' : List (String × Field)}
    (hfields : ∀ field, Option.Rel (fun f g => T f.ty g.ty) (Entries.find? field declared)
      (Entries.find? field declared')) :
    (pairs : List (Input × Input)) → itemPairObjects pairs = [] → ∀ {fs gs}, F fs gs →
      Together F (Ty.assign d t declared fs pairs) (Ty.assign d u declared' gs pairs)
  | [], _, _, _, hfg => by
      simp only [Ty.assign]
      exact .ok hfg
  | (key, input) :: rest, hi, fs, gs, hfg => by
      simp only [itemPairObjects, List.append_eq_nil_iff] at hi
      by_cases hempty : input = .draft .empty
      · subst hempty
        simp only [Ty.assign]
        refine (fieldName_together t u key).bind ?_
        rintro name _ rfl
        have hfield := hfields name
        generalize Entries.find? name declared = f, Entries.find? name declared' = g at hfield
        cases hfield with
        | none => exact .error
        | some _ => exact hP.assignAll hT hfields rest hi.2 (hP.clear name hfg)
      · rw [assign.eq_3 d t declared fs key input rest hempty, assign.eq_3 d u declared' gs key input rest hempty]
        refine (fieldName_together t u key).bind ?_
        rintro name _ rfl
        have hfield := hfields name
        generalize Entries.find? name declared = f, Entries.find? name declared' = g at hfield
        cases hfield with
        | none => exact .error
        | some htype =>
            refine ((hP.construct hT htype input hi.1.2).atPath _ _).bind fun o p hop => ?_
            exact hP.assignAll hT hfields rest hi.2 (hP.assign name hfg hop)

end

/-- Like types take the same plain values. -/
theorem Alike.construct_iff (hT : Alike d T) {t u : Ty} (h : T t u) (v : Value) :
    (∃ o, t.construct d v.toInput = .ok o) ↔ ∃ o, u.construct d v.toInput = .ok o := by
  have htrivial : Joins d T (fun _ _ _ _ => True) fun _ _ => True := by constructor <;> intros <;> trivial
  exact (htrivial.construct hT h v.toInput v.toInput_objects).ok_iff

end Ty

/-! ## What the alternatives offer -/

namespace Object

variable {d : Declarations} {T : Ty → Ty → Prop} {R G : Object → Object → Prop} {go go' : Object → Except Error Object}

theorem candidate_alongside (hg : ∀ o p, G o p → Alongside R (go o) (go' p)) (missing : Error)
    {x y : Except Error Object} : Together G x y →
    Alongside R
      (match x with
        | .ok candidate => go candidate
        | .error _ => .error missing)
      (match y with
        | .ok candidate => go' candidate
        | .error _ => .error missing)
  | .ok hcandidate => hg _ _ hcandidate
  | .error => .error

-- What is done with a candidate is compared under `G`, the relation in which the candidates of like types stand.
mutual

theorem tryAlternatives_alongside (hT : Ty.Alike d T) {draft : Draft}
    (hdraft : ∀ t u, T t u → Together G (t.constructDraft d draft) (u.constructDraft d draft))
    (hg : ∀ o p, G o p → Alongside R (go o) (go' p)) (missing : Error) : (ts : List Ty) → ∀ {us},
    List.Forall₂ T ts us →
    Alongside R (tryAlternatives d go missing draft ts) (tryAlternatives d go' missing draft us)
  | [], _, .nil => by
      simp only [tryAlternatives]
      exact .error
  | t :: ts, _, .cons (b := u) h hs => by
      simp only [tryAlternatives, ← hT.isNamable_eq t h]
      split
      · have hfirst := tryAlternative_alongside hT hdraft hg missing t h
        generalize tryAlternative d go missing draft t = x, tryAlternative d go' missing draft u = y at hfirst ⊢
        cases hfirst with
        | ok h => exact .ok h
        | error =>
            dsimp only
            split
            · exact tryAlternatives_alongside hT hdraft hg missing ts hs
            · exact .error
      · exact tryAlternatives_alongside hT hdraft hg missing ts hs

theorem tryAlternative_alongside (hT : Ty.Alike d T) {draft : Draft}
    (hdraft : ∀ t u, T t u → Together G (t.constructDraft d draft) (u.constructDraft d draft))
    (hg : ∀ o p, G o p → Alongside R (go o) (go' p)) (missing : Error) : (t : Ty) → ∀ {u}, T t u →
    Alongside R (tryAlternative d go missing draft t) (tryAlternative d go' missing draft u)
  | .choice name as, u, h => by
      cases hT h with
      | scalar ht => cases ht
      | choice hs =>
          simp only [tryAlternative]
          exact tryAlternatives_alongside hT hdraft hg missing as hs
  | .list _, _, h | .map _ _, _, h | .struct _ _, _, h => by
      have hcandidate := candidate_alongside hg missing (hdraft _ _ h)
      cases hT h <;> exact hcandidate
  | .string, _, h | .integer, _, h | .float, _, h | .boolean, _, h | .enum _ _, _, h => by
      have hcandidate := candidate_alongside hg missing (hdraft _ _ h)
      cases hT h with
      | scalar => exact hcandidate

end

end Object

end TypedTemplate
