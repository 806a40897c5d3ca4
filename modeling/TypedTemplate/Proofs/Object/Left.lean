import TypedTemplate.Proofs.Scope.Unknown
import TypedTemplate.Proofs.Template.Settled

/-!
# Where references are left

What interpolation leaves of an object is what it leaves of its parts. Each reference that is left stands in a text that
is interpolated along with the object, and none of the scopes that this text sees knows it.
-/

namespace TypedTemplate.Object

variable {d : Declarations} {eval : Nat → Object → Interpolated} {depth : Nat} {c : List Scope} {r : Ref}
  {refs : List Ref}

/-- Interpolation succeeds and leaves the reference. -/
def Leaves (d : Declarations) (eval : Nat → Object → Interpolated) (depth : Nat) (c : List Scope) (r : Ref)
    (o : Object) : Prop :=
  ∃ resolved left, interpolateIn d eval depth c o = .ok (resolved, left) ∧ r ∈ left

theorem interpolatePayload_of_ok {o resolved : Object} (h : interpolateIn d eval depth c o = .ok (resolved, refs)) :
    ∃ left, interpolatePayload d eval depth (o.scopes ++ c) o.ty o.payload = .ok (resolved, left) ∧
      ∀ r, r ∈ left ↔ r ∈ refs := by
  rw [interpolateIn_eq] at h
  obtain ⟨⟨resolved', left⟩, hleft, h⟩ := Except.bind_ok h
  cases h
  exact ⟨left, hleft, fun r => mem_distinct.symm⟩

theorem leaves_iff {o resolved : Object} (h : interpolateIn d eval depth c o = .ok (resolved, refs)) :
    o.Leaves d eval depth c r ↔ r ∈ refs := by
  constructor
  · rintro ⟨_, _, h', hr⟩
    cases h.symm.trans h'
    exact hr
  · exact fun hr => ⟨resolved, refs, h, hr⟩

/-! ## In the parts -/

theorem interpolateElements_mem_iff {os resolved : List Object}
    (h : interpolateElements d eval depth c os = .ok (resolved, refs)) :
    r ∈ refs ↔ ∃ o ∈ os, o.Leaves d eval depth c r := by
  induction os generalizing resolved refs with
  | nil =>
      cases h
      simp
  | cons o rest ih =>
      obtain ⟨⟨first, left⟩, hfirst, h⟩ := Except.bind_ok h
      obtain ⟨⟨others, otherLeft⟩, hothers, h⟩ := Except.bind_ok h
      cases h
      rw [List.mem_append, List.exists_mem_cons_iff, leaves_iff hfirst, ih hothers]

theorem interpolatePairs_mem_iff {pairs resolved : List (Object × Object)}
    (h : interpolatePairs d eval depth c pairs = .ok (resolved, refs)) :
    r ∈ refs ↔ ∃ p ∈ (Payload.map pairs).parts, p.Leaves d eval depth c r := by
  induction pairs generalizing resolved refs with
  | nil =>
      cases h
      simp [Payload.parts]
  | cons pair rest ih =>
      obtain ⟨k, v⟩ := pair
      obtain ⟨⟨key, keyLeft⟩, hkey, h⟩ := Except.bind_ok h
      obtain ⟨⟨value, valueLeft⟩, hvalue, h⟩ := Except.bind_ok h
      obtain ⟨⟨others, otherLeft⟩, hothers, h⟩ := Except.bind_ok h
      cases h
      have hparts : (Payload.map ((k, v) :: rest)).parts = k :: v :: (Payload.map rest).parts := rfl
      rw [hparts, List.mem_append, List.mem_append, List.exists_mem_cons_iff, List.exists_mem_cons_iff, leaves_iff hkey,
        leaves_iff hvalue, ih hothers, or_assoc]

theorem interpolateFields_mem_iff {fields resolved : List (String × Option Object)}
    (h : interpolateFields d eval depth c fields = .ok (resolved, refs)) :
    r ∈ refs ↔ ∃ p ∈ (Payload.struct fields).parts, p.Leaves d eval depth c r := by
  induction fields generalizing resolved refs with
  | nil =>
      cases h
      simp [Payload.parts]
  | cons field rest ih =>
      obtain ⟨name, value⟩ := field
      cases value with
      | none =>
          obtain ⟨⟨others, otherLeft⟩, hothers, h⟩ := Except.bind_ok h
          cases h
          exact ih hothers
      | some o =>
          obtain ⟨⟨first, left⟩, hfirst, h⟩ := Except.bind_ok h
          obtain ⟨⟨others, otherLeft⟩, hothers, h⟩ := Except.bind_ok h
          cases h
          have hparts : (Payload.struct ((name, some o) :: rest)).parts = o :: (Payload.struct rest).parts := rfl
          rw [hparts, List.mem_append, List.exists_mem_cons_iff, leaves_iff hfirst, ih hothers]

/-- Of an object that is neither a text nor an open choice, interpolation leaves what it leaves of the parts. -/
theorem interpolateIn_mem_iff {o resolved : Object} (htemplate : ∀ text, o.payload ≠ .template text)
    (huntyped : ∀ draft, o.payload ≠ .untyped draft) (h : interpolateIn d eval depth c o = .ok (resolved, refs)) :
    r ∈ refs ↔ ∃ p ∈ o.payload.parts, p.Leaves d eval depth (o.inScopeAll c).innerScopes r := by
  obtain ⟨left, hleft, hrefs⟩ := interpolatePayload_of_ok h
  rw [← hrefs r]
  obtain ⟨t, payload, own, provided⟩ := o
  cases payload with
  | scalar s =>
      cases hleft
      simp [Payload.parts]
  | template text => exact absurd rfl (htemplate text)
  | untyped draft => exact absurd rfl (huntyped draft)
  | list elements =>
      obtain ⟨⟨others, otherLeft⟩, hothers, hleft⟩ := Except.bind_ok hleft
      cases hleft
      exact interpolateElements_mem_iff hothers
  | map pairs =>
      obtain ⟨⟨others, otherLeft⟩, hothers, hleft⟩ := Except.bind_ok hleft
      cases hleft
      exact interpolatePairs_mem_iff hothers
  | struct fields =>
      obtain ⟨⟨others, otherLeft⟩, hothers, hleft⟩ := Except.bind_ok hleft
      cases hleft
      exact interpolateFields_mem_iff hothers
  | typed inner =>
      obtain ⟨⟨other, otherLeft⟩, hother, hleft⟩ := Except.bind_ok hleft
      cases hleft
      have hparts : (∃ p ∈ (Payload.typed inner).parts, p.Leaves d eval depth (own ++ c) r) ↔
          inner.Leaves d eval depth (own ++ c) r := by simp [Payload.parts]
      exact (hparts.trans (leaves_iff hother)).symm

/-- With a struct its fields are interpolated, and what is left of one of them is left of the struct. -/
theorem interpolateIn_field {o resolved value : Object} {fields : List (String × Option Object)} {name : String}
    (hfields : o.payload = .struct fields) (hvalue : Entries.find? name fields = some (some value))
    (h : interpolateIn d eval depth c o = .ok (resolved, refs)) :
    ∃ value', value.ComesTo d eval depth (structScopes fields (o.scopes ++ c)) refs value' := by
  obtain ⟨t, payload, own, provided⟩ := o
  cases hfields
  obtain ⟨others, -, hothers⟩ := interpolateIn_struct h
  obtain ⟨⟨name', value'⟩, -, -, hrel⟩ := Entries.exists_of_forall₂ hothers (Entries.mem_of_find? hvalue)
  cases hrel with
  | some hcomes => exact ⟨_, hcomes⟩

/-! ## In texts -/

theorem lookupBy_of_resolveTemplate {t : Ty} {text : String} {resolved : Object}
    (h : resolveTemplate d eval depth c t text = .ok (resolved, refs)) (hr : r ∈ refs) :
    lookupBy d eval depth c r = .ok none := by
  obtain ⟨⟨joined, unbound⟩, hresolve, h⟩ := Except.bind_ok h
  dsimp only at h
  split at h
  · obtain ⟨s, -, h⟩ := Except.bind_ok h
    cases h
    cases hr
  · cases h
    exact Template.lookup_of_resolve hresolve r hr

/-- A text that is nothing but a placeholder leaves its reference where no scope knows it. -/
theorem leaves_placeholder {o : Object} (hp : o.payload = .template r.placeholder)
    (hr : Ref.parse r.address = .ok r) (hl : lookupBy d eval depth (o.scopes ++ c) r = .ok none) :
    o.Leaves d eval depth c r := by
  have hpayload : interpolatePayload d eval depth (o.scopes ++ c) o.ty o.payload =
      .ok (.ofPayload o.ty (.template r.placeholder), [r]) := by
    rw [hp, interpolatePayload, resolveTemplate, Template.resolve_placeholder_none hr hl]
    rfl
  have hin : interpolateIn d eval depth c o = .ok (.ofPayload o.ty (.template r.placeholder), [r]) := by
    rw [interpolateIn_eq, hpayload]
    rfl
  exact (leaves_iff hin).mpr (List.mem_singleton_self r)

/-- A reference that is left stands in a text that is interpolated along with the object, and whose scopes do not know
it. -/
theorem exists_visits_of_mem {n : Nat} {o resolved : Object}
    (h : interpolateIn d (interpolateWithin d n) 0 c o = .ok (resolved, refs)) (hr : r ∈ refs) :
    ∃ q text m, (o.inScopeAll c).Visits d q ∧ q.payload = .template text ∧
      lookupBy d (interpolateWithin d m) 0 q.scopes r = .ok none := by
  -- The budget gets smaller where a choice settles, and the object on the way to its parts.
  induction n using Nat.strong_induction_on generalizing o c resolved refs with
  | _ n ihn =>
    induction o using parts_induction generalizing c resolved refs with
    | h o ih =>
      obtain ⟨left, hleft, hrefs⟩ := interpolatePayload_of_ok h
      by_cases htemplate : ∃ text, o.payload = .template text
      · obtain ⟨text, htext⟩ := htemplate
        rw [htext] at hleft
        exact ⟨_, text, n, .self, htext, lookupBy_of_resolveTemplate hleft ((hrefs r).mpr hr)⟩
      by_cases huntyped : ∃ draft, o.payload = .untyped draft
      · obtain ⟨draft, hdraft⟩ := huntyped
        rw [hdraft] at hleft
        obtain ⟨alternative, hm, candidate, inner, hcandidate, hinner, -⟩ := settleChoice_ok hleft
        cases n with
        | zero => cases hinner
        | succ n =>
            have hwithin : interpolateIn d (interpolateWithin d n) 0 [] (candidate.inScopeAll (o.scopes ++ c)) =
              .ok (inner, left) := hinner
            obtain ⟨q, text, m, hq, htext⟩ := ihn n (Nat.lt_succ_self n) hwithin ((hrefs r).mpr hr)
            rw [inScopeAll_nil] at hq
            exact ⟨q, text, m, .candidate hdraft hm hcandidate hq, htext⟩
      obtain ⟨p, hp, resolved', left', hleft', hr'⟩ :=
        (interpolateIn_mem_iff (not_exists.mp htemplate) (not_exists.mp huntyped) h).mp hr
      obtain ⟨q, text, m, hq, htext⟩ := ih p hp hleft' hr'
      exact ⟨q, text, m, .part hp hq, htext⟩

theorem mem_innerScopes {o : Object} {s : Scope} (h : s ∈ o.scopes) : s ∈ o.innerScopes := by
  unfold innerScopes
  split
  · simp [structScopes, h]
  · exact h

/-- On the way inside, scopes are only added. -/
theorem Visits.mem_scopes {o q : Object} (h : o.Visits d q) {s : Scope} (hs : s ∈ o.scopes) : s ∈ q.scopes := by
  induction h with
  | self => exact hs
  | part _ _ ih => exact ih (List.mem_append_right _ (mem_innerScopes hs))
  | candidate _ _ _ _ ih => exact ih (List.mem_append_right _ hs)

/-- What an environment binds is not left of an object that sees the environment. -/
theorem not_mem_of_bound {n : Nat} {o resolved : Object} {e : Environment}
    (h : interpolateIn d (interpolateWithin d n) 0 c o = .ok (resolved, refs)) (he : .environment e ∈ o.scopes ++ c)
    (hr : (e.get? r).isSome) : r ∉ refs := by
  intro hleft
  obtain ⟨q, _, m, hq, -, hlookup⟩ := exists_visits_of_mem h hleft
  have hmissing := lookupBy_eq_none_iff.mp hlookup _ (hq.mem_scopes he)
  rw [(Environment.findBy_missing_iff.mp hmissing).1] at hr
  cases hr

end TypedTemplate.Object
