import Mathlib.Data.List.Forall2
import TypedTemplate.Proofs.Object.Step
import TypedTemplate.Proofs.Object.Twin

/-!
# Lookup in twins

A reference leads to twins in twins, or fails in both with the same error.
-/

namespace TypedTemplate

variable {d : Declarations} {T : Ty → Ty → Prop}

/-! ## The scopes of a struct -/

theorem Environment.under_twin (outer : Ref) {table table' : List (Ref × Binding)}
    (h : List.Forall₂ (Object.EntryTwin d T) table table') :
    List.Forall₂ (Object.EntryTwin d T) (under outer ⟨table⟩).table (under outer ⟨table'⟩).table := by
  refine List.forall₂_map_left_iff.mpr (List.forall₂_map_right_iff.mpr (h.imp fun x y hxy => ?_))
  obtain ⟨hr, hb⟩ := Object.EntryTwin.iff.mp hxy
  exact Object.EntryTwin.iff.mpr ⟨congrArg outer.concat hr, hb⟩

theorem Scope.asSuper_twin {s s' : Scope} (h : Object.ScopeTwin d T s s') :
    Object.ScopeTwin d T s.asSuper s'.asSuper := by
  cases h with
  | environment h => exact .environment (Environment.under_twin _ h)
  | object h => exact .environment (.cons (.object h) .nil)

theorem fieldBindings_twin {fs gs : List (String × Option Object)} (h : List.Forall₂ (Object.FieldTwin d T) fs gs) :
    List.Forall₂ (Object.EntryTwin d T) (fieldBindings fs) (fieldBindings gs) := by
  induction h with
  | nil => exact .nil
  | cons h _ ih =>
      cases h with
      | empty => exact ih
      | value h => exact .cons (.object h) ih

theorem structScopes_twin {fs gs : List (String × Option Object)} (h : List.Forall₂ (Object.FieldTwin d T) fs gs)
    {scopes scopes' : List Scope} (hs : List.Forall₂ (Object.ScopeTwin d T) scopes scopes') :
    List.Forall₂ (Object.ScopeTwin d T) (structScopes fs scopes) (structScopes gs scopes') := by
  have hfields := fieldBindings_twin h
  have hsuper : List.Forall₂ (Object.ScopeTwin d T) (scopes.map Scope.asSuper) (scopes'.map Scope.asSuper) :=
    List.forall₂_map_left_iff.mpr (List.forall₂_map_right_iff.mpr (hs.imp fun _ _ => Scope.asSuper_twin))
  exact .cons (.environment (Environment.under_twin _ hfields))
    (.cons (.environment hfields) (List.rel_append hs hsuper))

/-! ## Lookup in objects -/

namespace Object

variable {o p : Object} {snapshot : Object → Except Error Value}

theorem Twin.core (h : Twin d T o p) {scopes scopes' : List Scope} (hs : List.Forall₂ (ScopeTwin d T) scopes scopes') :
    Twin d T (o.core scopes) (p.core scopes') := by
  induction o using parts_induction generalizing p scopes scopes' with
  | _ o ih =>
      cases h with
      | @mk t u payload payload' own own' provided provided' ht hpayload hown =>
          have hseen : Twin d T ⟨t, payload, own ++ scopes, provided⟩ ⟨u, payload', own' ++ scopes', provided'⟩ :=
            .mk ht hpayload (List.rel_append hown hs)
          cases hpayload with
          | typed h =>
              simp only [Object.core]
              exact ih _ (List.mem_singleton.mpr rfl) h hseen.scopes
          | scalar | template | list | map | struct | untyped => exact hseen

theorem findPair_twin (hs : ∀ o p, Twin d T o p → snapshot o = snapshot p) {key key' : Object}
    (hkey : Twin d T key key') {os ps : List (Object × Object)} (hos : ∀ pair ∈ os, pair.1.ty.same d key.ty = true)
    (hps : ∀ pair ∈ ps, pair.1.ty.same d key'.ty = true) (h : List.Forall₂ (PairTwin d T) os ps) :
    Alongside (Option.Rel (Twin d T)) (findPair d snapshot key os) (findPair d snapshot key' ps) := by
  induction h with
  | nil => exact .ok .none
  | @cons x y os ps hxy _ ih =>
      obtain ⟨k, v⟩ := x
      obtain ⟨k', v'⟩ := y
      obtain ⟨hk, hv⟩ := PairTwin.iff.mp hxy
      rw [List.forall_mem_cons] at hos hps
      simp only [findPair, hos.1, hps.1, if_true, hs _ _ hk, hs _ _ hkey]
      cases snapshot k' with
      | error e => exact .error
      | ok a =>
          cases snapshot key' with
          | error e => exact .error
          | ok b =>
              simp only [bind, Except.bind]
              split
              · exact .ok (.some hv)
              · exact ih hos.2 hps.2

theorem step_twin (hT : Ty.Alike d T) (hd : TwinDefaults d T) (hs : ∀ o p, Twin d T o p → snapshot o = snapshot p)
    (c : Component) (h : Twin d T o p) : Alongside (Twin d T) (step d snapshot c o) (step d snapshot c p) := by
  have hname : o.typeName = p.typeName := h.typeName hT
  cases h with
  | @mk t u _ _ _ _ _ _ ht hpayload hscopes =>
      cases hpayload with
      | scalar | template | typed | untyped =>
          simp only [typeName] at hname
          cases c <;> (simp only [step, typeName, hname]; exact .error)
      | list hops => exact step_list_alongside hname hops (fun _ _ h => h.inScopeAll hscopes) c
      | @map k k' v v' os ps hos hps hops =>
          have hk : T k k' := by
            cases hT ht with
            | scalar hscalar => cases hscalar
            | map hk _ => exact hk
          refine step_map_alongside (R := Twin d T) hname (fun token => ?_) (fun _ _ h => h.inScopeAll hscopes) c
          refine (construct_twin hT hd hk (i := .ofText token) rfl).imp fun key key' hkey => ?_
          obtain ⟨hkey, rfl, rfl⟩ := hkey
          exact findPair_twin hs hkey hos hps hops
      | struct hfg =>
          have hfields := hfg.imp fun _ _ => FieldTwin.iff.mp
          exact step_struct_alongside hname hfields (fun _ _ _ _ h => h.inScopeAll (structScopes_twin hfg hscopes)) c

variable {go go' : Object → Except Error Object}

theorem enter_twin (hT : Ty.Alike d T) (hd : TwinDefaults d T)
    (hg : ∀ o p, Twin d T o p → Alongside (Twin d T) (go o) (go' p)) (r : Ref) (h : Twin d T o p) :
    Alongside (Twin d T) (enter d r go o) (enter d r go' p) := by
  unfold enter
  have hcore := h.core .nil
  have hname := hcore.typeName hT
  have hsame := hg _ _ hcore
  dsimp only
  generalize o.core [] = o, p.core [] = p at hcore hname hsame ⊢
  cases hcore with
  | @mk t u _ _ _ _ _ _ ht hpayload hscopes =>
      cases hpayload with
      | untyped hdraft =>
          dsimp only
          rw [hname]
          refine tryAlternatives_alongside (G := Twin d T) hT (fun t u h => constructDraft_twin hT hd h hdraft)
            (fun o p hop => hg _ _ (hop.inScopeAll hscopes)) _ _ ?_
          cases hT ht with
          | scalar hscalar => cases hscalar
          | choice hs => exact hs
      | scalar | template | list | map | struct | typed => exact hsame

theorem findNothing_twin (hT : Ty.Alike d T) (h : Twin d T o p) :
    Alongside (Twin d T) o.findNothing p.findNothing := by
  have hname := h.typeName hT
  cases h with
  | mk _ hpayload _ =>
      cases hpayload <;> (simp only [findNothing, hname]; exact .error)

theorem descend_twin (hT : Ty.Alike d T) (hg : ∀ o p, Twin d T o p → Alongside (Twin d T) (go o) (go' p))
    (h : Twin d T o p) : Alongside (Twin d T) (descend go o) (descend go' p) := by
  simp only [descend, h.isNamable hT, h.typeName hT]
  split
  · exact hg _ _ h
  · exact .error

/-- A reference leads to twins in twins. -/
theorem findFrom_twin (hT : Ty.Alike d T) (hd : TwinDefaults d T) (hs : ∀ o p, Twin d T o p → snapshot o = snapshot p)
    (path : List Component) (h : Twin d T o p) :
    Alongside (Twin d T) (findFrom d snapshot path o) (findFrom d snapshot path p) := by
  induction path generalizing o p with
  | nil => exact enter_twin hT hd (fun _ _ => findNothing_twin hT) _ h
  | cons c rest ih =>
      cases rest with
      | nil => exact enter_twin hT hd (fun _ _ => step_twin hT hd hs c) _ h
      | cons c' rest =>
          refine enter_twin hT hd (fun o p hop => ?_) _ h
          exact (step_twin hT hd hs c hop).bind fun _ _ => descend_twin hT fun _ _ => ih

end Object

/-! ## Lookup in environments -/

section

open Object

variable {snapshot : Object → Except Error Value} {r : Ref} {table table' : List (Ref × Binding)}

namespace Environment

theorem get?_twin (h : List.Forall₂ (EntryTwin d T) table table') :
    Option.Rel (BindingTwin d T) (get? ⟨table⟩ r) (get? ⟨table'⟩ r) :=
  Entries.find?_forall₂ (h.imp fun _ _ => EntryTwin.iff.mp) r

theorem candidates_twin (h : List.Forall₂ (EntryTwin d T) table table') :
    List.Forall₂ (fun x y => Twin d T x.1 y.1 ∧ x.2 = y.2) (candidates ⟨table⟩ r) (candidates ⟨table'⟩ r) := by
  refine List.forall₂_map_left_iff.mpr (List.forall₂_map_right_iff.mpr ?_)
  refine (Entries.forall₂_mergeSort (R := fun x y => x.1 = y.1 ∧ Twin d T x.2.1 y.2.1 ∧ x.2.2 = y.2.2)
    (List.rel_filterMap ?_ h) ?_).imp fun _ _ hxy => hxy.2
  · rintro _ _ (_ | hop)
    · exact .none
    · dsimp only
      rename_i key _ _
      cases key.subscope r with
      | none => exact .none
      | some rest => exact .some ⟨rfl, hop, rfl⟩
  · intro x y x' y' hx hy
    rw [hx.1, hy.1]

theorem findAmong_twin (hT : Ty.Alike d T) (hd : TwinDefaults d T)
    (hs : ∀ o p, Twin d T o p → snapshot o = snapshot p) (missing : Error) {os ps : List (Object × Ref)}
    (h : List.Forall₂ (fun x y => Twin d T x.1 y.1 ∧ x.2 = y.2) os ps) :
    Alongside (BindingTwin d T) (findAmong d snapshot missing os) (findAmong d snapshot missing ps) := by
  induction h with
  | nil => exact .error
  | @cons x y _ _ hxy _ ih =>
      obtain ⟨o, rest⟩ := x
      obtain ⟨p, _⟩ := y
      obtain ⟨hop, rfl⟩ := hxy
      have hfound := findFrom_twin hT hd hs rest.components hop
      simp only [findAmong, Object.findBy]
      generalize findFrom d snapshot rest.components o = found, findFrom d snapshot rest.components p = found'
        at hfound ⊢
      cases hfound with
      | ok hfound => exact .ok (.object hfound)
      | error =>
          dsimp only
          split
          · exact ih
          · exact .error

end Environment

/-- A reference stands for twins in twin scopes. -/
theorem Scope.findBy_twin (hT : Ty.Alike d T) (hd : TwinDefaults d T)
    (hs : ∀ o p, Twin d T o p → snapshot o = snapshot p) {s s' : Scope} (h : ScopeTwin d T s s') (r : Ref) :
    Alongside (BindingTwin d T) (s.findBy d snapshot r) (s'.findBy d snapshot r) := by
  cases h with
  | @environment table table' h =>
      have hbound := Environment.get?_twin (r := r) h
      simp only [findBy, Environment.findBy]
      generalize Environment.get? ⟨table⟩ r = b, Environment.get? ⟨table'⟩ r = b' at hbound ⊢
      cases hbound with
      | some hb => exact .ok hb
      | none => exact Environment.findAmong_twin hT hd hs _ (Environment.candidates_twin h)
  | @object o p h =>
      have hfound := findFrom_twin hT hd hs r.components h
      simp only [findBy, Object.findBy]
      generalize findFrom d snapshot r.components o = found, findFrom d snapshot r.components p = found' at hfound ⊢
      cases hfound with
      | ok hfound => exact .ok (.object hfound)
      | error => exact .error

end

end TypedTemplate
