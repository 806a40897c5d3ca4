import TypedTemplate.Proofs.Object.Again
import TypedTemplate.Proofs.Scope.Later

/-!
# Interpolating in two stages

An object can be interpolated first, and an environment be bound to what is left of it later. This comes to the same as
binding the environment at once, if no choice has settled in between while references were open in it. A choice that
still has an open text does not settle, so that only containers can do so too early.
-/

namespace TypedTemplate

namespace Object

variable {d : Declarations} {e : Environment}

/-- Interpolating the object takes nothing away that the environment will be needed for. -/
structure Defers (d : Declarations) (e : Environment) (p : Object) : Prop where
  /-- The environment has nothing to do with what the object sees. -/
  apart : e.Apart d p.scopes
  /-- All texts that are found while a text is resolved are live. -/
  sound {text} : p.payload = .template text → Template.Sound (TypedTemplate.lookup d p.scopes) text
  /-- Where a lookup fails, this is because a value does not fit its type, or because of a limit. -/
  failed {text r err} : p.payload = .template text → Template.Reaches (TypedTemplate.lookup d p.scopes) text r →
    TypedTemplate.lookup d p.scopes r = .error err → err.IsLimit ∨ err.IsCoercion
  /-- The keys of a map are the same in all scopes. -/
  keys {pairs k v} : p.payload = .map pairs → (k, v) ∈ pairs → k.Closed d
  /-- A choice does not settle with references left. -/
  settles {draft inner refs} : p.payload = .untyped draft →
    p.interpolate d = .ok (.ofPayload p.ty (.typed inner), refs) → refs = []

/-- This holds of all that is interpolated along with the object. -/
def Deferrable (d : Declarations) (e : Environment) (o : Object) : Prop := ∀ p, o.Visits d p → p.Defers d e

theorem Deferrable.part {o p : Object} (h : o.Deferrable d e) (hp : p ∈ o.payload.parts) :
    (p.inScopeAll o.innerScopes).Deferrable d e := fun q hq => h q (.part hp hq)

theorem Deferrable.candidate {o c : Object} (h : o.Deferrable d e) {t : Ty} {draft : Draft}
    (ho : o.payload = .untyped draft) (ht : t ∈ o.ty.alternatives) (hc : t.constructDraft d draft = .ok c) :
    (c.inScopeAll o.scopes).Deferrable d e := fun q hq => h q (.candidate ho ht hc hq)

theorem deferrable_iff {o : Object} : o.Deferrable d e ↔ o.Defers d e ∧
    (∀ p ∈ o.payload.parts, (p.inScopeAll o.innerScopes).Deferrable d e) ∧
    ∀ draft, o.payload = .untyped draft → ∀ t ∈ o.ty.alternatives, ∀ c, t.constructDraft d draft = .ok c →
      (c.inScopeAll o.scopes).Deferrable d e := by
  constructor
  · exact fun h => ⟨h o .self, fun p hp => h.part hp, fun draft ho t ht c hc => h.candidate ho ht hc⟩
  · rintro ⟨hself, hparts, hcandidates⟩ p hp
    cases hp with
    | self => exact hself
    | part hq hp => exact hparts _ hq p hp
    | candidate ho ht hc hp => exact hcandidates _ ho _ ht _ hc p hp

theorem Deferrable.keysClosed {o : Object} (h : o.Deferrable d e) : o.KeysClosed d :=
  fun p hp _ hpairs _ _ hm => (h p hp).keys hpairs hm

/-! ## Three runs -/

/-- A first run, a run with the environment at once, and a second run on what is left of the first one. -/
structure Later (first atOnce : Interpolated) (second : Object → Interpolated) : Prop where
  tame {err} : atOnce = .error err → err.IsLimit ∨ err.IsCoercion
  fails {err} : first = .error err → err.IsCoercion → ∃ err', atOnce = .error err'
  again {r refs} : first = .ok (r, refs) → Again atOnce (second r)

section

variable {m n : Nat} {first atOnce second : List Scope}

/-! ## Texts -/

theorem lookupBy_approximates_lookup (hm : m ≤ budget) (scopes : List Scope) (r : Ref) :
    Approximates (lookupBy d (interpolateWithin d m) 0 scopes r) (TypedTemplate.lookup d scopes r) :=
  lookupBy_approximates d (interpolateWithin_approximates d hm) 0 scopes r

theorem lookup_of_lookupBy (hm : m ≤ budget) {scopes : List Scope} {r : Ref} {found : Option String}
    (h : lookupBy d (interpolateWithin d m) 0 scopes r = .ok found) : TypedTemplate.lookup d scopes r = .ok found := by
  have happrox := lookupBy_approximates_lookup (d := d) hm scopes r
  exact (h ▸ happrox).eq_of_ok

/-- A text that is resolved at once is resolved in two stages. -/
theorem resolveAt_later (he : e.LiveTexts) (hmn : m ≤ n) (hn : n ≤ budget) (hc : LaterScopes d e first atOnce second)
    (hapart : e.Apart d first) {text : String} (hsound : Template.Sound (TypedTemplate.lookup d first) text) :
    (∀ {out}, resolveAt d m atOnce text = .ok out → ∃ mid left,
      resolveAt d m first text = .ok (mid, left) ∧ resolveAt d n second mid = .ok out) ∧
    ∀ {err}, resolveAt d m atOnce text = .error err → err.IsLimit ∨
      ∃ r, Template.Reaches (TypedTemplate.lookup d first) text r ∧ TypedTemplate.lookup d first r = .error err := by
  have hm : m ≤ budget := Nat.le_trans hmn hn
  obtain ⟨later, hlater⟩ := hc.lookup he hapart hmn hn
  have hfound : ∀ r s, lookupBy d (interpolateWithin d m) 0 first r = .ok (some s) →
      TypedTemplate.lookup d first r = .ok (some s) := fun r s => lookup_of_lookupBy hm
  have hsound' := hsound.mono hfound
  refine ⟨fun {out} hout => ?_, fun {err} herr => ?_⟩
  · obtain ⟨mid, -, hmid, hout⟩ := hlater.resolve hsound' hout
    exact ⟨mid, _, hmid, hout⟩
  · rcases hlater.error_of_resolve hsound' herr with hk | ⟨r, hr, hlookup⟩
    · exact .inl (.inl hk)
    · rcases lookupBy_approximates_lookup (d := d) hm first r with ⟨err', herr', hk⟩ | hsame
      · cases hlookup.symm.trans herr'
        exact .inl (.inr hk)
      · exact .inr ⟨r, hr.mono hfound, hsame.symm.trans hlookup⟩

theorem resolveAt_later_again (he : e.LiveTexts) (hmn : m ≤ n) (hn : n ≤ budget)
    (hc : LaterScopes d e first atOnce second) (hapart : e.Apart d first) {text : String}
    (hsound : Template.Sound (TypedTemplate.lookup d first) text) {k : Nat} (hk : k ≤ budget) {mid : String}
    {left : List Ref} (hmid : resolveAt d k first text = .ok (mid, left)) :
    Again (resolveAt d m atOnce text) (resolveAt d n second mid) := by
  have hfull : ∀ {m out}, m ≤ budget → resolveAt d m first text = .ok out →
      resolveAt d budget first text = .ok out := by
    intro m out hm hout
    have happrox := resolveAt_approximates d hm first text
    exact (hout ▸ happrox).eq_of_ok
  obtain ⟨hok, herror⟩ := resolveAt_later he hmn hn hc hapart hsound
  cases hx : resolveAt d m atOnce text with
  | ok out =>
      obtain ⟨mid', left', hmid', hout⟩ := hok hx
      cases (hfull hk hmid).symm.trans (hfull (Nat.le_trans hmn hn) hmid')
      exact .of_ok rfl hout
  | error err =>
      rcases herror hx with hlimit | ⟨r, hr, hlookup⟩
      · exact .of_error rfl hlimit.not_isCoercion
      · obtain ⟨found, hfound⟩ := hsound.lookup_of_resolve (hfull hk hmid) hr
        rw [hlookup] at hfound
        cases hfound

/-- A text of which nothing is left is the same in all scopes. -/
theorem resolveAt_closed (hm : m ≤ budget) {text : String} (hsound : Template.Sound (TypedTemplate.lookup d first) text)
    {mid : String} (hmid : resolveAt d m first text = .ok (mid, [])) (n : Nat) (scopes : List Scope) :
    resolveAt d n scopes mid = .ok (mid, []) := by
  obtain ⟨hlive, hrefs⟩ := (hsound.mono fun r s => lookup_of_lookupBy hm).live_of_resolve hmid
  exact hlive.resolve_closed hrefs _

/-- What a template comes to once its text has been resolved. -/
def ofResolved (t : Ty) (resolved : String × List Ref) : Interpolated :=
  if resolved.2.isEmpty then (t.coerce (.string resolved.1)).map fun s => (.ofPayload t (.scalar s), [])
  else .ok (.ofPayload t (.template resolved.1), resolved.2)

theorem resolveTemplate_eq (n : Nat) (scopes : List Scope) (t : Ty) (text : String) :
    resolveTemplate d (interpolateWithin d n) 0 scopes t text = resolveAt d n scopes text >>= ofResolved t := by
  rfl

theorem ofResolved_closed (t : Ty) (text : String) : ofResolved t (text, []) =
    (t.coerce (.string text)).map fun s => (.ofPayload t (.scalar s), []) := rfl

theorem ofResolved_error {t : Ty} {resolved : String × List Ref} {err : Error}
    (h : ofResolved t resolved = .error err) : resolved.2 = [] ∧ err.IsCoercion := by
  obtain ⟨joined, unbound⟩ := resolved
  cases unbound with
  | cons r rest => cases h
  | nil =>
      rw [ofResolved_closed] at h
      cases hs : t.coerce (.string joined) with
      | ok s =>
          rw [hs] at h
          cases h
      | error err' =>
          rw [hs] at h
          cases h
          obtain ⟨cause, rfl⟩ := Ty.coerce_error hs
          exact ⟨rfl, _, _, rfl⟩

theorem ofResolved_scalar {t : Ty} {text : String} {r : Object} {refs : List Ref}
    (h : ofResolved t (text, []) = .ok (r, refs)) : ∃ s, r = .ofPayload t (.scalar s) ∧ refs = [] := by
  rw [ofResolved_closed] at h
  cases hs : t.coerce (.string text) with
  | ok s =>
      rw [hs] at h
      cases h
      exact ⟨s, rfl, rfl⟩
  | error err =>
      rw [hs] at h
      cases h

theorem resolveTemplate_later (he : e.LiveTexts) (hmn : m ≤ n) (hn : n ≤ budget)
    (hc : LaterScopes d e first atOnce second) {p : Object} (hp : p.Defers d e) (hscopes : p.scopes = first) {t : Ty}
    {text : String} (htext : p.payload = .template text) :
    Later (resolveTemplate d (interpolateWithin d m) 0 first t text)
      (resolveTemplate d (interpolateWithin d m) 0 atOnce t text)
      fun r => interpolatePayload d (interpolateWithin d n) 0 second r.ty r.payload := by
  subst hscopes
  have hm : m ≤ budget := Nat.le_trans hmn hn
  have hsound := hp.sound htext
  obtain ⟨hok, herror⟩ := resolveAt_later he hmn hn hc hp.apart hsound
  rw [resolveTemplate_eq, resolveTemplate_eq]
  refine ⟨fun {err} herr => ?_, fun {err} herr hk => ?_, fun {r refs} hr => ?_⟩
  · rcases Except.bind_error herr with hresolve | ⟨resolved, -, herr⟩
    · rcases herror hresolve with hlimit | ⟨r, hr, hlookup⟩
      · exact .inl hlimit
      · exact hp.failed htext hr hlookup
    · exact .inr (ofResolved_error herr).2
  · cases hx : resolveAt d m atOnce text with
    | error err' => exact ⟨err', rfl⟩
    | ok out =>
        obtain ⟨mid, left, hmid, hout⟩ := hok hx
        rw [hmid] at herr
        obtain ⟨hleft, -⟩ := ofResolved_error herr
        obtain rfl : left = [] := hleft
        cases hout.symm.trans (resolveAt_closed hm hsound hmid n second)
        exact ⟨err, herr⟩
  · obtain ⟨⟨mid, left⟩, hmid, hr⟩ := Except.bind_ok hr
    have hagain := (resolveAt_later_again he hmn hn hc hp.apart hsound hm hmid).bind fun resolved =>
      Again.refl (ofResolved t resolved)
    cases left with
    | cons r' rest =>
        cases hr
        rw [← resolveTemplate_eq] at hagain
        exact hagain
    | nil =>
        -- Nothing is left to resolve, so that the second run repeats the coercion of the first one.
        rw [resolveAt_closed hm hsound hmid n second] at hagain
        change Again _ (ofResolved t (mid, [])) at hagain
        change ofResolved t (mid, []) = .ok (r, refs) at hr
        rw [hr] at hagain
        obtain ⟨s, rfl, rfl⟩ := ofResolved_scalar hr
        exact hagain

/-! ## Choices -/

theorem settles_closed (hm : m < budget) {p : Object} (hp : p.Defers d e) {draft : Draft}
    (ho : p.payload = .untyped draft) {inner : Object} {refs : List Ref} (h : settleChoice d (interpolateWithin d m 0)
      p.scopes p.ty draft p.ty.alternatives = .ok (.ofPayload p.ty (.typed inner), refs)) : refs = [] := by
  have hrun : interpolateWithin d (m + 1) 0 p = .ok (.ofPayload p.ty (.typed inner), distinct refs) := by
    rw [interpolateWithin, interpolateIn_eq, ho, interpolatePayload, List.append_nil, h]
    rfl
  have hfull : p.interpolate d = .ok (.ofPayload p.ty (.typed inner), distinct refs) :=
    (hrun ▸ interpolateWithin_approximates d hm 0 p).eq_of_ok
  exact distinct_eq_nil.mp (hp.settles ho hfull)

theorem settleChoice_later (he : e.LiveTexts) (hmn : m ≤ n) (hn : n < budget)
    (hc : LaterScopes d e first atOnce second) {p : Object} (hp : p.Deferrable d e) (hscopes : p.scopes = first)
    {draft : Draft} (ho : p.payload = .untyped draft)
    (heval : ∀ alternative ∈ p.ty.alternatives, ∀ o, alternative.constructDraft d draft = .ok o →
      Later (interpolateWithin d m 0 (o.inScopeAll first)) (interpolateWithin d m 0 (o.inScopeAll atOnce))
        (interpolateIn d (interpolateWithin d n) 0 second)) :
    Later (settleChoice d (interpolateWithin d m 0) first p.ty draft p.ty.alternatives)
      (settleChoice d (interpolateWithin d m 0) atOnce p.ty draft p.ty.alternatives)
      fun r => interpolatePayload d (interpolateWithin d n) 0 second r.ty r.payload := by
  subst hscopes
  refine ⟨fun {err} herr => ?_, fun {err} herr hk => ?_, fun {r refs} hr => ?_⟩
  · rcases settleChoice_error herr with hk | ⟨alternative, hm, o, hcandidate, herr⟩
    · exact .inr hk
    · exact (heval alternative hm o hcandidate).tame herr
  · have hpassed := settleChoice_coercion herr hk
    cases hx : settleChoice d (interpolateWithin d m 0) atOnce p.ty draft p.ty.alternatives with
    | error err' => exact ⟨err', rfl⟩
    | ok out =>
        obtain ⟨alternative, hm, o, inner, hcandidate, hinner, -⟩ := settleChoice_ok hx
        obtain ⟨err', herr', hk'⟩ := hpassed alternative hm o hcandidate
        obtain ⟨err'', herr''⟩ := (heval alternative hm o hcandidate).fails herr' hk'
        rw [hinner] at herr''
        cases herr''
  · obtain ⟨-, -, candidate, inner, -, hinner, rfl | ⟨text, -, -, rfl⟩⟩ := settleChoice_ok hr
    · -- The choice has settled, and nothing is left in it.
      obtain rfl := settles_closed (Nat.lt_of_le_of_lt hmn hn) (hp p .self) ho hr
      have hinert : inner.Inert := interpolateWithin_inert hinner
      rw [ofPayload, interpolatePayload, hinert.interpolateIn]
      refine settleChoice_closed (fun alternative hm o hcandidate err herr hk => ?_)
        (fun alternative hm o hcandidate hfirst => ?_) hr
      · exact (heval alternative hm o hcandidate).fails herr hk
      · have hsecond := (heval alternative hm o hcandidate).again hfirst
        rwa [hinert.interpolateIn] at hsecond
    · obtain ⟨k, original, left, hk, rfl, horiginal, ⟨alternative, hm, hcandidate⟩, hleft, hne⟩ := settleChoice_text hr
      have hbudget : k ≤ budget := by omega
      have hsound : Template.Sound (TypedTemplate.lookup d p.scopes) original := by
        have hdefers := hp.candidate ho hm hcandidate _ .self
        simpa [inScopeAll, ofPayload] using hdefers.sound rfl
      have hresolve : ∀ m n, m ≤ n → n ≤ budget → Again (resolveAt d m atOnce original) (resolveAt d n second text) :=
        fun m n hmn hn => resolveAt_later_again he hmn hn hc (hp p .self).apart hsound hbudget hleft
      obtain ⟨hlive, -⟩ := (hsound.mono fun r s => lookup_of_lookupBy hbudget).live_of_resolve hleft
      obtain ⟨fs, hfs, -⟩ := hlive.split_join false
      have hreadable : Readable text := ⟨(Template.open_of_resolve hleft hne).hasPlaceholder, fs, hfs⟩
      exact settleChoice_again (offer_again horiginal hreadable hresolve hmn (Nat.le_of_lt hn)) p.ty p.ty.alternatives

/-! ## Objects -/

theorem interpolateIn_later_payload (hm : m < budget) {o : Object} (hkeys : (o.inScopeAll first).KeysClosed d)
    (h : Later (interpolatePayload d (interpolateWithin d m) 0 (o.scopes ++ first) o.ty o.payload)
      (interpolatePayload d (interpolateWithin d m) 0 (o.scopes ++ atOnce) o.ty o.payload)
      fun r => interpolatePayload d (interpolateWithin d n) 0 second r.ty r.payload) :
    Later (interpolateIn d (interpolateWithin d m) 0 first o) (interpolateIn d (interpolateWithin d m) 0 atOnce o)
      (interpolateIn d (interpolateWithin d n) 0 second) := by
  have herror : ∀ {scopes err}, interpolateIn d (interpolateWithin d m) 0 scopes o = .error err →
      interpolatePayload d (interpolateWithin d m) 0 (o.scopes ++ scopes) o.ty o.payload = .error err := by
    intro scopes err herr
    rw [interpolateIn_eq] at herr
    obtain herr | ⟨_, -, herr⟩ := Except.bind_error herr
    · exact herr
    · cases herr
  refine ⟨fun {err} herr => h.tame (herror herr), fun {err} herr hk => ?_, fun {r refs} hr => ?_⟩
  · obtain ⟨err', herr'⟩ := h.fails (herror herr) hk
    refine ⟨err', ?_⟩
    rw [interpolateIn_eq, herr']
    rfl
  · have hscopes := (interpolateIn_innerScopes hm hkeys hr).1
    rw [interpolateIn_eq] at hr
    obtain ⟨⟨resolved, left⟩, hfirst, heq⟩ := Except.bind_ok hr
    cases heq
    rw [interpolateIn_eq, interpolateIn_eq, hscopes]
    exact (h.again hfirst).bind fun _ => .refl _

theorem interpolateIn_later_of (he : e.LiveTexts) (hmn : m ≤ n) (hn : n < budget)
    (heval : ∀ (o : Object) (first atOnce second : List Scope), (o.inScopeAll first).Deferrable d e →
      LaterScopes d e (o.scopes ++ first) (o.scopes ++ atOnce) second →
      Later (interpolateWithin d m 0 (o.inScopeAll first)) (interpolateWithin d m 0 (o.inScopeAll atOnce))
        (interpolateIn d (interpolateWithin d n) 0 second))
    {o : Object} (ho : (o.inScopeAll first).Deferrable d e)
    (hc : LaterScopes d e (o.scopes ++ first) (o.scopes ++ atOnce) second) :
    Later (interpolateIn d (interpolateWithin d m) 0 first o) (interpolateIn d (interpolateWithin d m) 0 atOnce o)
      (interpolateIn d (interpolateWithin d n) 0 second) := by
  induction o using parts_induction generalizing first atOnce second with
  | _ o ih =>
    have hm : m < budget := Nat.lt_of_le_of_lt hmn hn
    cases hkind : o.payload with
    | template text =>
        refine interpolateIn_later_payload hm ho.keysClosed ?_
        simp only [hkind, interpolatePayload]
        exact resolveTemplate_later he hmn (Nat.le_of_lt hn) hc (ho _ .self) rfl hkind
    | untyped draft =>
        refine interpolateIn_later_payload hm ho.keysClosed ?_
        simp only [hkind, interpolatePayload]
        refine settleChoice_later he hmn hn hc ho rfl hkind fun alternative hm candidate hcandidate => ?_
        exact heval candidate _ _ _ (ho.candidate hkind hm hcandidate) (hc.append_left candidate.scopes)
    | scalar | list | map | struct | typed =>
        have htemplate : ∀ text, o.payload ≠ .template text := by simp [hkind]
        have huntyped : ∀ draft, o.payload ≠ .untyped draft := by simp [hkind]
        -- The parts fail or not whatever the second run is.
        obtain ⟨inner, hinner⟩ := hc.exists_innerScopes
        have hpart : ∀ p (hp : p ∈ o.payload.parts), Later
            (interpolateIn d (interpolateWithin d m) 0 (o.inScopeAll first).innerScopes p)
            (interpolateIn d (interpolateWithin d m) 0 (o.inScopeAll atOnce).innerScopes p)
            (interpolateIn d (interpolateWithin d n) 0 inner) :=
          fun p hp => ih p hp (ho.part hp) (hinner.append_left p.scopes)
        refine ⟨fun {err} herr => ?_, fun {err} herr hk => ?_, fun {r refs} hr => ?_⟩
        · obtain ⟨p, hp, herr⟩ := interpolateIn_error_parts htemplate huntyped herr
          exact (hpart p hp).tame herr
        · obtain ⟨p, hp, herr⟩ := interpolateIn_error_parts htemplate huntyped herr
          cases hx : interpolateIn d (interpolateWithin d m) 0 atOnce o with
          | error err' => exact ⟨err', rfl⟩
          | ok out =>
              obtain ⟨err', herr'⟩ := (hpart p hp).fails herr hk
              obtain ⟨_, hok⟩ := interpolateIn_ok_parts hx p hp
              rw [herr'] at hok
              cases hok
        · have hinner := hc.innerScopes hm ho.keysClosed hr
          refine interpolateIn_again_parts htemplate huntyped hr fun p hp r' left hleft => ?_
          exact (ih p hp (ho.part hp) (hinner.append_left p.scopes)).again hleft

theorem interpolateIn_later (he : e.LiveTexts) (hmn : m ≤ n) (hn : n < budget) {o : Object}
    (ho : (o.inScopeAll first).Deferrable d e) (hc : LaterScopes d e (o.scopes ++ first) (o.scopes ++ atOnce) second) :
    Later (interpolateIn d (interpolateWithin d m) 0 first o) (interpolateIn d (interpolateWithin d m) 0 atOnce o)
      (interpolateIn d (interpolateWithin d n) 0 second) := by
  induction m generalizing n o first atOnce second with
  | zero =>
      refine interpolateIn_later_of he hmn hn (fun o first atOnce second _ _ => ?_) ho hc
      refine ⟨?_, fun _ _ => ⟨.exhausted, rfl⟩, by rintro _ _ ⟨⟩⟩
      rintro _ ⟨⟩
      exact .inl (.inr rfl)
  | succ m ih =>
      refine interpolateIn_later_of he hmn hn (fun o first atOnce second ho hc => ?_) ho hc
      have hstep : ∀ scopes, interpolateWithin d (m + 1) 0 (o.inScopeAll scopes) =
          interpolateIn d (interpolateWithin d m) 0 scopes o := by
        intro scopes
        rw [interpolateWithin, interpolateIn_inScopeAll, List.append_nil]
      rw [hstep, hstep]
      exact ih (Nat.le_of_succ_le hmn) hn ho hc

end

/-- An environment that is bound to what an object has come to gives what it gives when it is bound to the object, or
fails where that fails, unless the object exceeds a limit. -/
theorem interpolate_later {o r : Object} {refs : List Ref} (he : e.LiveTexts) (ho : o.Deferrable d e)
    (h : o.interpolate d = .ok (r, refs)) :
    (∃ result, (o.bindAll [.environment e]).interpolate d = .ok result ∧
      (r.bindAll [.environment e]).interpolate d = .ok result) ∨
    (∃ err err', (o.bindAll [.environment e]).interpolate d = .error err ∧
      (r.bindAll [.environment e]).interpolate d = .error err') ∨
    ∃ err, (o.bindAll [.environment e]).interpolate d = .error err ∧ err.IsLimit := by
  -- The scopes of the object itself are taken as those around it.
  obtain ⟨t, payload, own, provided⟩ := o
  have hrun : ∀ scopes, interpolate d ⟨t, payload, scopes, provided⟩ =
      interpolateIn d (interpolateWithin d (budget - 1)) 0 scopes ⟨t, payload, [], provided⟩ := by
    intro scopes
    rw [interpolate_eq, interpolateIn_eq, interpolateIn_eq, List.append_nil, List.nil_append]
  have hfirst : interpolateIn d (interpolateWithin d (budget - 1)) 0 own ⟨t, payload, [], provided⟩ =
      .ok (r, refs) := by
    rw [← hrun, h]
  have hlater := interpolateIn_later he (Nat.le_refl (budget - 1)) (by decide) (o := ⟨t, payload, [], provided⟩) ho
    (LaterScopes.bind e own)
  have hsecond : (r.bindAll [.environment e]).interpolate d =
      interpolateIn d (interpolateWithin d (budget - 1)) 0 [.environment e] r := by
    have hr : r.bindAll [.environment e] = r.inScopeAll [.environment e] := by
      simp [bindAll, inScopeAll, (interpolateIn_innerScopes (by decide) ho.keysClosed hfirst).1]
    rw [hr, interpolate_eq, interpolateIn_inScopeAll, List.append_nil]
  have hatOnce : interpolate d (bindAll ⟨t, payload, own, provided⟩ [.environment e]) =
      interpolateIn d (interpolateWithin d (budget - 1)) 0 (.environment e :: own) ⟨t, payload, [], provided⟩ :=
    hrun (.environment e :: own)
  have hagain := hlater.again hfirst
  rw [hatOnce, hsecond]
  cases hx : interpolateIn d (interpolateWithin d (budget - 1)) 0 (.environment e :: own)
      ⟨t, payload, [], provided⟩ with
  | ok result => exact .inl ⟨result, rfl, hagain.1 result hx⟩
  | error err =>
      rcases hlater.tame hx with hlimit | hk
      · exact .inr (.inr ⟨err, rfl, hlimit⟩)
      · obtain ⟨err', herr', -⟩ := hagain.2 err hx hk
        exact .inr (.inl ⟨err, err', rfl, herr'⟩)

/-! ## Answers to a letter -/

/-- A list of numbers or of texts. -/
def openList (item : String) : Object :=
  .ofPayload (.choice "Items" [.list .integer, .list .string]) (.untyped (.sequence [.draft (.scalar (.string item))]))

def abc : Environment := ⟨[(.ofName "x", .text "abc")]⟩

/-- A choice of lists settles for the first of them while a reference is open, and the text that comes later does not
fit. -/
theorem interpolate_later_list :
    (Ty.choice "Items" [.list .integer, .list .string]).construct {}
      (Value.sequence [.string "\x7b\x7bx\x7d\x7d"]).toInput = .ok (openList "\x7b\x7bx\x7d\x7d") ∧
    (∃ result, ((openList "\x7b\x7bx\x7d\x7d").bindAll [.environment abc]).interpolate {} = .ok (result, []) ∧
      result.toValue = .sequence [.string "abc"]) ∧
    ∃ left err, (openList "\x7b\x7bx\x7d\x7d").interpolate {} = .ok (left, [.ofName "x"]) ∧
      (left.bindAll [.environment abc]).interpolate {} = .error err :=
  ⟨by cbv, ⟨_, by cbv, by cbv⟩, _, _, by cbv, by cbv⟩

/-- What is asked for in a letter, with a question that stays open. -/
def answers : Environment :=
  ⟨[(.ofName "how", .text "how is \x7b\x7bboss\x7d\x7d"), (.ofName "since", .text "41")]⟩

def letterAsking : Object := letterObject "Dear \x7b\x7bname\x7d\x7d, \x7b\x7bhow\x7d\x7d" "\x7b\x7bsince\x7d\x7d" []

theorem answers_live : answers.LiveTexts where
  texts := by simp [Environment.TextOnly, answers]
  live {r s} hm := by
    simp only [answers, List.mem_cons, Prod.mk.injEq, Binding.text.injEq, List.not_mem_nil, or_false] at hm
    obtain ⟨-, rfl⟩ | ⟨-, rfl⟩ := hm <;> decide +kernel

theorem answers_apart : answers.Apart letter letterAsking.innerScopes := by
  have htexts : ∀ r s, (r, Binding.text s) ∈ answers.table →
      (r = .ofName "how" ∧ Template.refs s = [.ofName "boss"]) ∨ (r = .ofName "since" ∧ Template.refs s = []) := by
    intro r s hm
    simp only [answers, List.mem_cons, Prod.mk.injEq, Binding.text.injEq, List.not_mem_nil, or_false] at hm
    obtain ⟨rfl, rfl⟩ | ⟨rfl, rfl⟩ := hm
    · exact .inl ⟨rfl, by cbv⟩
    · exact .inr ⟨rfl, by cbv⟩
  refine apart_structScopes ["how", "since", "boss", "super"] (by decide) (by decide) (by decide)
    (fun r s hm => ?_) fun r s hm r' hr' => ?_
  · obtain ⟨rfl, -⟩ | ⟨rfl, -⟩ := htexts r s hm
    · exact ⟨"how", by decide, [], rfl⟩
    · exact ⟨"since", by decide, [], rfl⟩
  · obtain ⟨-, hrefs⟩ | ⟨-, hrefs⟩ := htexts r s hm <;> rw [hrefs] at hr'
    · exact ⟨"boss", by decide, [], List.mem_singleton.mp hr'⟩
    · cases hr'

theorem defers_template {t : Ty} {text : String} {own : List Scope} (hapart : e.Apart d own)
    (hlive : Template.Live text) (hfound : ∀ r ∈ Template.refs text, TypedTemplate.lookup d own r = .ok none ∨
      ∃ s, TypedTemplate.lookup d own r = .ok (some s) ∧ Template.Live s ∧ Template.refs s = []) :
    Defers d e ⟨t, .template text, own, []⟩ := by
  have hreaches : ∀ r, Template.Reaches (TypedTemplate.lookup d own) text r → r ∈ Template.refs text := by
    refine fun r hr => hr.mem_refs fun r hr s hs => ?_
    obtain hnone | ⟨s', hs', -, hrefs⟩ := hfound r hr
    · cases hs.symm.trans hnone
    · cases hs.symm.trans hs'
      exact hrefs
  refine ⟨hapart, ?_, ?_, by rintro _ _ _ ⟨⟩, by rintro _ _ _ ⟨⟩⟩
  · rintro _ ⟨⟩
    refine ⟨hlive, fun {r s} hr hs => ?_⟩
    obtain hnone | ⟨s', hs', hlive, -⟩ := hfound r (hreaches r hr)
    · cases hs.symm.trans hnone
    · cases hs.symm.trans hs'
      exact hlive
  · rintro _ r err ⟨⟩ hr herr
    obtain hnone | ⟨s', hs', -, -⟩ := hfound r (hreaches r hr)
    · cases herr.symm.trans hnone
    · cases herr.symm.trans hs'

/-- An object that has nothing in it is deferrable if it defers itself. -/
theorem Defers.deferrable {p : Object} (h : p.Defers d e) (hparts : p.payload.parts = [])
    (huntyped : ∀ draft, p.payload ≠ .untyped draft) : p.Deferrable d e := by
  refine deferrable_iff.mpr ⟨h, fun q hq => ?_, fun draft ho => absurd ho (huntyped draft)⟩
  rw [hparts] at hq
  cases hq

theorem letterAsking_deferrable : letterAsking.Deferrable letter answers := by
  have hsince : ∀ t, Defers letter answers ⟨t, .template "\x7b\x7bsince\x7d\x7d", letterAsking.innerScopes, []⟩ := by
    refine fun t => defers_template answers_apart (by decide +kernel) fun r hr => .inl ?_
    rw [show Template.refs "\x7b\x7bsince\x7d\x7d" = [.ofName "since"] by cbv, List.mem_singleton] at hr
    rw [hr]
    cbv
  have htext : Defers letter answers ((letterText "Dear \x7b\x7bname\x7d\x7d, \x7b\x7bhow\x7d\x7d").inScopeAll
      letterAsking.innerScopes) := by
    refine defers_template answers_apart (by decide +kernel) fun r hr => ?_
    rw [show Template.refs _ = [.ofName "name", .ofName "how"] by cbv] at hr
    simp only [List.mem_cons, List.not_mem_nil, or_false] at hr
    obtain rfl | rfl := hr
    · exact .inr ⟨"Al", by cbv, by decide +kernel, by cbv⟩
    · exact .inl (by cbv)
  have hage : Defers letter answers ((letterAge "\x7b\x7bsince\x7d\x7d").inScopeAll letterAsking.innerScopes) := by
    refine ⟨answers_apart, by rintro _ ⟨⟩, by rintro _ _ _ ⟨⟩, by rintro _ _ _ ⟨⟩, ?_⟩
    -- The choice stays open.
    rintro _ inner refs ⟨⟩ hsettled
    have hopen : ((letterAge "\x7b\x7bsince\x7d\x7d").inScopeAll letterAsking.innerScopes).interpolate letter =
        .ok (letterAge "\x7b\x7bsince\x7d\x7d", [.ofName "since"]) := by cbv
    cases hopen.symm.trans hsettled
  have hroot : Defers letter answers letterAsking :=
    ⟨apart_nil, by rintro _ ⟨⟩, by rintro _ _ _ ⟨⟩, by rintro _ _ _ ⟨⟩, by rintro _ _ _ ⟨⟩⟩
  refine deferrable_iff.mpr ⟨hroot, fun p hp => ?_, by rintro _ ⟨⟩⟩
  obtain ⟨name, hm⟩ := Payload.mem_parts_struct.mp hp
  simp only [List.mem_cons, Prod.mk.injEq, Option.some.injEq, List.not_mem_nil, or_false] at hm
  obtain ⟨-, rfl⟩ | ⟨-, rfl⟩ | ⟨-, rfl⟩ := hm
  · refine Defers.deferrable ?_ rfl (by rintro _ ⟨⟩)
    exact ⟨answers_apart, by rintro _ ⟨⟩, by rintro _ _ _ ⟨⟩, by rintro _ _ _ ⟨⟩, by rintro _ _ _ ⟨⟩⟩
  · exact htext.deferrable rfl (by rintro _ ⟨⟩)
  · refine deferrable_iff.mpr ⟨hage, by rintro _ ⟨⟩, ?_⟩
    rintro draft ⟨⟩ t ht c hc
    obtain rfl := letterAge_candidate ⟨by cbv, _, by cbv⟩ ht hc
    exact (hsince t).deferrable rfl (by rintro _ ⟨⟩)

/-- The text of a letter and a choice in it are completed by the answers. -/
theorem interpolate_later_letter : ∃ result left refs,
    letterAsking.interpolate letter = .ok (left, [.ofName "how", .ofName "since"]) ∧
    (letterAsking.bindAll [.environment answers]).interpolate letter = .ok (result, refs) ∧
    (left.bindAll [.environment answers]).interpolate letter = .ok (result, refs) ∧ refs = [.ofName "boss"] := by
  have hfirst : letterAsking.interpolate letter =
      .ok (letterObject "Dear Al, \x7b\x7bhow\x7d\x7d" "\x7b\x7bsince\x7d\x7d" [],
        [.ofName "how", .ofName "since"]) := by cbv
  have hatOnce : ∃ result, (letterAsking.bindAll [.environment answers]).interpolate letter =
      .ok (result, [.ofName "boss"]) := ⟨_, by cbv⟩
  obtain ⟨result, hatOnce⟩ := hatOnce
  obtain ⟨_, hresult, hsecond⟩ | ⟨_, _, herr, -⟩ | ⟨_, herr, -⟩ :=
    interpolate_later answers_live letterAsking_deferrable hfirst
  · cases hatOnce.symm.trans hresult
    exact ⟨result, _, _, hfirst, hatOnce, hsecond, rfl⟩
  · cases hatOnce.symm.trans herr
  · cases hatOnce.symm.trans herr

end Object

end TypedTemplate
