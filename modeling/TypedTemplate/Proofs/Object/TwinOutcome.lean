import TypedTemplate.Proofs.Object.Parts
import TypedTemplate.Proofs.Scope.Twin

/-!
# What twins come to

Interpolation takes twins to twins, with the same references left, or fails for both with the same error: the texts
that a reference stands for on either side are the same, and so are the alternatives that a choice settles for.
-/

namespace TypedTemplate

variable {d : Declarations} {T : Ty → Ty → Prop}

namespace Object

/-- Twins, and the same references that are left in them. -/
def OutcomeTwin (d : Declarations) (T : Ty → Ty → Prop) (x y : Object × List Ref) : Prop :=
  Twin d T x.1 y.1 ∧ x.2 = y.2

/-- Evaluation takes twins to twins, or fails for both with the same error. -/
def KeepsTwins (d : Declarations) (T : Ty → Ty → Prop) (eval : Object → Interpolated) : Prop :=
  ∀ o p, Twin d T o p → Alongside (OutcomeTwin d T) (eval o) (eval p)

/-! ## Texts -/

section

variable {eval : Nat → Object → Interpolated} {depth : Nat}

theorem snapshotBy_twin (hT : Ty.Alike d T) {eval : Object → Interpolated} {o p : Object}
    (h : Alongside (OutcomeTwin d T) (eval o) (eval p)) (hop : Twin d T o p) :
    snapshotBy eval o = snapshotBy eval p := by
  unfold snapshotBy
  rw [(hop.toString_toValue hT).2]
  generalize eval o = x, eval p = y at h ⊢
  cases h with
  | ok h => exact congrArg Except.ok (h.1.toString_toValue hT).2
  | error => rfl

theorem renderBy_twin (hT : Ty.Alike d T) (heval : ∀ depth, KeepsTwins d T (eval depth)) {b b' : Binding}
    (h : BindingTwin d T b b') : b.renderBy eval depth = b'.renderBy eval depth := by
  unfold Binding.renderBy
  split
  · rfl
  · cases h with
    | text => rfl
    | @object o p h =>
        have hrendered := heval (depth + 1) o p h
        dsimp only
        generalize eval (depth + 1) o = x, eval (depth + 1) p = y at hrendered ⊢
        cases hrendered with
        | ok h => exact congrArg Except.ok (h.1.toString_toValue hT).1
        | error => rfl

theorem lookupBy_twin (hT : Ty.Alike d T) (hd : TwinDefaults d T) (heval : ∀ depth, KeepsTwins d T (eval depth))
    {scopes scopes' : List Scope} (h : List.Forall₂ (ScopeTwin d T) scopes scopes') :
    lookupBy d eval depth scopes = lookupBy d eval depth scopes' := by
  funext r
  induction h with
  | nil => rfl
  | @cons s s' _ _ h _ ih =>
      have hsnapshot : ∀ o p, Twin d T o p → snapshotBy (eval depth) o = snapshotBy (eval depth) p :=
        fun o p hop => snapshotBy_twin hT (heval depth o p hop) hop
      have hfound := Scope.findBy_twin hT hd hsnapshot h r
      simp only [lookupBy, ih]
      generalize s.findBy d (snapshotBy (eval depth)) r = x, s'.findBy d (snapshotBy (eval depth)) r = y at hfound ⊢
      cases hfound with
      | ok hb => exact congrArg (Except.map some) (renderBy_twin hT heval hb)
      | error => rfl

/-! ## Parts -/

variable {scopes scopes' : List Scope}

theorem resolveTemplate_twin (hT : Ty.Alike d T) (hd : TwinDefaults d T) (heval : ∀ depth, KeepsTwins d T (eval depth))
    (hs : List.Forall₂ (ScopeTwin d T) scopes scopes') {t u : Ty} (h : T t u) (ht : t.isScalar = true) (text : String) :
    Alongside (OutcomeTwin d T) (resolveTemplate d eval depth scopes t text)
      (resolveTemplate d eval depth scopes' u text) := by
  obtain rfl : t = u := by
    cases hT h with
    | scalar => rfl
    | list | map | struct | choice => cases ht
  rw [resolveTemplate, resolveTemplate, lookupBy_twin hT hd heval hs]
  cases Template.resolve (lookupBy d eval depth scopes') text with
  | error e => exact .error
  | ok resolved =>
      simp only [bind, Except.bind]
      split
      · cases t.coerce (.string resolved.1) with
        | error e => exact .error
        | ok s => exact .ok ⟨.ofPayload h (.scalar ht), rfl⟩
      · exact .ok ⟨.ofPayload h (.template ht), rfl⟩

theorem interpolateElements_twin {os ps : List Object}
    (h : List.Forall₂ (fun o p => Alongside (OutcomeTwin d T) (interpolateIn d eval depth scopes o)
      (interpolateIn d eval depth scopes' p)) os ps) :
    Alongside (fun x y => List.Forall₂ (Twin d T) x.1 y.1 ∧ x.2 = y.2) (interpolateElements d eval depth scopes os)
      (interpolateElements d eval depth scopes' ps) := by
  induction h with
  | nil => exact .ok ⟨.nil, rfl⟩
  | cons h _ ih =>
      rw [interpolateElements, interpolateElements]
      refine h.bind fun _ _ hfirst => ih.bind fun _ _ hothers => .ok ⟨.cons hfirst.1 hothers.1, ?_⟩
      rw [hfirst.2, hothers.2]

theorem interpolatePairs_twin {os ps : List (Object × Object)}
    (h : List.Forall₂ (fun x y => Alongside (OutcomeTwin d T) (interpolateIn d eval depth scopes x.1)
      (interpolateIn d eval depth scopes' y.1) ∧ Alongside (OutcomeTwin d T) (interpolateIn d eval depth scopes x.2)
      (interpolateIn d eval depth scopes' y.2)) os ps) :
    Alongside (fun x y => List.Forall₂ (PairTwin d T) x.1 y.1 ∧ x.2 = y.2) (interpolatePairs d eval depth scopes os)
      (interpolatePairs d eval depth scopes' ps) := by
  induction h with
  | nil => exact .ok ⟨.nil, rfl⟩
  | cons h _ ih =>
      rw [interpolatePairs, interpolatePairs]
      refine h.1.bind fun _ _ hkey => h.2.bind fun _ _ hvalue => ih.bind fun _ _ hothers =>
        .ok ⟨.cons (.mk hkey.1 hvalue.1) hothers.1, ?_⟩
      rw [hkey.2, hvalue.2, hothers.2]

/-- Keys stay of the types declared for them. -/
theorem interpolatePairs_keys {pairs resolved : List (Object × Object)} {refs : List Ref} {k : Ty}
    (h : interpolatePairs d eval depth scopes pairs = .ok (resolved, refs))
    (hk : ∀ pair ∈ pairs, pair.1.ty.same d k = true) : ∀ pair ∈ resolved, pair.1.ty.same d k = true := by
  intro pair hpair
  obtain ⟨source, hm, ⟨_, hkey, -⟩, -⟩ := Entries.exists_of_forall₂_right (interpolatePairs_ok h) hpair
  rw [interpolateIn_ty hkey]
  exact hk source hm

theorem interpolateFields_twin {fs gs : List (String × Option Object)}
    (h : List.Forall₂ (fun x y => x.1 = y.1 ∧ Option.Rel (fun o p => Alongside (OutcomeTwin d T)
      (interpolateIn d eval depth scopes o) (interpolateIn d eval depth scopes' p)) x.2 y.2) fs gs) :
    Alongside (fun x y => List.Forall₂ (FieldTwin d T) x.1 y.1 ∧ x.2 = y.2) (interpolateFields d eval depth scopes fs)
      (interpolateFields d eval depth scopes' gs) := by
  induction h with
  | nil => exact .ok ⟨.nil, rfl⟩
  | @cons x y _ _ h _ ih =>
      obtain ⟨name, value⟩ := x
      obtain ⟨_, value'⟩ := y
      obtain ⟨rfl, hvalue⟩ := h
      cases hvalue with
      | none =>
          rw [interpolateFields, interpolateFields]
          exact ih.bind fun _ _ hothers => .ok ⟨.cons .empty hothers.1, hothers.2⟩
      | some h =>
          rw [interpolateFields, interpolateFields]
          refine h.bind fun _ _ hfirst => ih.bind fun _ _ hothers => .ok ⟨.cons (.value hfirst.1) hothers.1, ?_⟩
          rw [hfirst.2, hothers.2]

end

/-- Choices of like alternatives settle for twins. -/
theorem settleChoice_twin (hT : Ty.Alike d T) (hd : TwinDefaults d T) {eval : Object → Interpolated}
    (heval : KeepsTwins d T eval) {scopes scopes' : List Scope} (hs : List.Forall₂ (ScopeTwin d T) scopes scopes')
    {name name' : String} {as bs : List Ty} (h : T (.choice name as) (.choice name' bs)) {draft : Draft}
    (hdraft : draft.objects = []) {ts us : List Ty} (htus : List.Forall₂ T ts us) :
    Alongside (OutcomeTwin d T) (settleChoice d eval scopes (.choice name as) draft ts)
      (settleChoice d eval scopes' (.choice name' bs) draft us) := by
  induction htus with
  | nil =>
      have hname := hT.name_eq _ h
      simp only [settleChoice, hname]
      exact .error
  | @cons t u ts us htu _ ih =>
      have hcandidate := constructDraft_twin hT hd htu hdraft
      simp only [settleChoice]
      generalize t.constructDraft d draft = x, u.constructDraft d draft = y at hcandidate ⊢
      cases hcandidate with
      | error => exact ih
      | @ok candidate candidate' hcandidate =>
          have hsettled := heval _ _ (hcandidate.inScopeAll hs)
          dsimp only
          generalize eval (candidate.inScopeAll scopes) = x, eval (candidate'.inScopeAll scopes') = y at hsettled ⊢
          cases hsettled with
          | error =>
              dsimp only
              split
              · exact ih
              · exact .error
          | @ok x y hsettled =>
              obtain ⟨resolved, refs⟩ := x
              obtain ⟨resolved', _⟩ := y
              obtain ⟨hresolved, rfl⟩ := hsettled
              have htyped := Twin.ofPayload h (.typed hresolved)
              cases hresolved with
              | mk ht hpayload hscopes =>
                  cases hpayload with
                  | template =>
                      cases refs with
                      | nil => exact .ok ⟨htyped, rfl⟩
                      | cons r rest => exact .ok ⟨.ofPayload h (.untyped rfl), rfl⟩
                  | scalar | list | map | struct | typed | untyped => exact .ok ⟨htyped, rfl⟩

/-! ## The whole object -/

theorem interpolateIn_twin (hT : Ty.Alike d T) (hd : TwinDefaults d T) {eval : Nat → Object → Interpolated}
    {depth : Nat} (heval : ∀ depth, KeepsTwins d T (eval depth)) {o p : Object} (h : Twin d T o p)
    {outer outer' : List Scope} (hs : List.Forall₂ (ScopeTwin d T) outer outer') :
    Alongside (OutcomeTwin d T) (interpolateIn d eval depth outer o) (interpolateIn d eval depth outer' p) := by
  induction o using parts_induction generalizing p outer outer' with
  | _ o ih =>
      rw [interpolateIn_eq, interpolateIn_eq]
      refine Alongside.bind (R := OutcomeTwin d T) ?_ fun _ _ hxy => .ok ⟨hxy.1, congrArg distinct hxy.2⟩
      cases h with
      | mk ht hpayload hown =>
          have hseen := List.rel_append hown hs
          dsimp only
          cases hpayload with
          | scalar hscalar => exact .ok ⟨.ofPayload ht (.scalar hscalar), rfl⟩
          | template hscalar =>
              simp only [interpolatePayload]
              exact resolveTemplate_twin hT hd heval hseen ht hscalar _
          | list hops =>
              simp only [interpolatePayload]
              have hparts := Entries.forall₂_imp_of_mem hops fun o hm p hop => ih o hm hop hseen
              exact (interpolateElements_twin hparts).bind fun _ _ hxy => .ok ⟨.ofPayload ht (.list hxy.1), hxy.2⟩
          | map hos hps hops =>
              simp only [interpolatePayload]
              have hparts := Payload.pairs_imp (hops.imp fun _ _ => PairTwin.iff.mp) fun o hm p hop => ih o hm hop hseen
              refine (interpolatePairs_twin hparts).and_ok.bind fun _ _ hxy => ?_
              obtain ⟨⟨htwins, hrefs⟩, hleft, hright⟩ := hxy
              have hkeys := interpolatePairs_keys hleft hos
              have hkeys' := interpolatePairs_keys hright hps
              exact .ok ⟨.ofPayload ht (.map hkeys hkeys' htwins), hrefs⟩
          | struct hfg =>
              simp only [interpolatePayload]
              have hinner := structScopes_twin hfg hseen
              have hparts := Payload.fields_imp (hfg.imp fun _ _ => FieldTwin.iff.mp)
                fun o hm p hop => ih o hm hop hinner
              exact (interpolateFields_twin hparts).bind fun _ _ hxy => .ok ⟨.ofPayload ht (.struct hxy.1), hxy.2⟩
          | typed h =>
              simp only [interpolatePayload]
              have hinner := ih _ (List.mem_singleton.mpr rfl) h hseen
              exact hinner.bind fun _ _ hxy => .ok ⟨.ofPayload ht (.typed hxy.1), hxy.2⟩
          | untyped hdraft =>
              simp only [interpolatePayload]
              refine settleChoice_twin hT hd (heval depth) hseen ht hdraft ?_
              cases hT ht with
              | scalar hscalar => cases hscalar
              | choice hs => exact hs

/-- Twins come to twins within any budget. -/
theorem interpolateWithin_twin (hT : Ty.Alike d T) (hd : TwinDefaults d T) (n depth : Nat) :
    KeepsTwins d T (interpolateWithin d n depth) := by
  induction n generalizing depth with
  | zero => exact fun _ _ _ => .error
  | succ n ih => exact fun _ _ h => interpolateIn_twin hT hd ih h .nil

/-- Twins have the same plain data. -/
theorem Twin.get_eq (hT : Ty.Alike d T) (hd : TwinDefaults d T) {o p : Object} (h : Twin d T o p) :
    o.get d = p.get d := by
  have houtcome := interpolateWithin_twin hT hd budget 0 _ _ h
  unfold get interpolate
  generalize interpolateWithin d budget 0 o = x, interpolateWithin d budget 0 p = y at houtcome ⊢
  cases houtcome with
  | error => rfl
  | @ok x y hxy =>
      obtain ⟨resolved, refs⟩ := x
      obtain ⟨resolved', _⟩ := y
      obtain ⟨hresolved, rfl⟩ := hxy
      simp only [bind, Except.bind, (hresolved.toString_toValue hT).2]

end Object

end TypedTemplate
