import Mathlib
import TypedTemplate.Object.Struct
import TypedTemplate.Proofs.Object.Check

/-!
# What a choice commits to

Interpolation commits a choice to the first alternative that can be interpolated, whether or not references are left
in it or required fields are missing. What it commits to passes the check exactly if neither is the case.
-/

namespace TypedTemplate

variable {d : Declarations}

namespace Object

/-! ## Checks of resolved objects -/

theorem Resolved.checkable {o : Object} (h : o.Resolved d) : o.Checkable d [] := by
  have hprovided : ∀ {p : Object}, p.Resolved d → p.provided = [] := by
    intro p hp
    cases hp <;> rfl
  induction h with
  | scalar => exact .scalar
  | template _ => exact .template
  | list h ih => exact .list (fun o ho => hprovided (h o ho)) ih
  | map hk hv ihk ihv => exact .map (fun k v hm => ⟨hprovided (hk k v hm), hprovided (hv k v hm)⟩) ihk ihv
  | struct hdeclares h ih => exact .struct hdeclares (fun name o hm => hprovided (h name o hm)) ih
  | typed h ih => exact .typed (hprovided h) ih
  | text hopen => exact .text rfl hopen

/-- The check of a resolved object passes exactly if interpolating it once more leaves nothing, and no required field is
missing. -/
theorem Resolved.check_pass_iff {o : Object} (h : o.Resolved d) :
    o.check d = .pass ↔ (∃ again, o.interpolate d = .ok (again, [])) ∧ o.complete d = true := by
  have hprovided : o.provided = [] := by cases h <;> rfl
  rw [← covered_nil (d := d), ← hprovided]
  exact Checkable.check_pass_iff (hprovided ▸ h.checkable)

/-! ## The value of a choice -/

/-- Interpolating a choice settles it for an alternative, or leaves it with a text that has references. -/
theorem interpolate_choice (hd : d.Built (WellFormed d)) {c resolved : Object} {refs : List Ref} (hc : c.WellFormed d)
    (hchoice : c.payload.isChoice) (h : c.interpolate d = .ok (resolved, refs)) :
    (∃ inner, resolved = .ofPayload c.ty (.typed inner) ∧ inner.Resolved d) ∨
      ∃ text, resolved = .ofPayload c.ty (.untyped (.scalar (.string text))) ∧ Template.Open text := by
  obtain ⟨ty, payload, scopes, provided⟩ := c
  have hresolved := interpolateWithin_resolved hd hc h
  obtain ⟨⟨settled, left⟩, hsettled, h⟩ := Except.bind_ok h
  cases h
  cases payload with
  | typed inner =>
      obtain ⟨⟨inner', left'⟩, -, hsettled⟩ := Except.bind_ok hsettled
      cases hsettled
      cases hresolved with
      | typed hinner => exact .inl ⟨inner', rfl, hinner⟩
  | untyped draft =>
      cases hc with
      | untyped hdraft =>
          exact settleChoice_resolved hd (fun _ _ _ ho h => interpolateWithin_resolved hd ho h) hdraft hsettled
  | scalar _ | template _ | list _ | map _ | struct _ => cases hchoice

/-- A choice that is left with an open text never comes to an end, and neither do the objects that its alternatives
make of the text. -/
theorem open_unfinished {text : String} (hopen : Template.Open text) (t : Ty) :
    (∀ again, (ofPayload t (.untyped (.scalar (.string text)))).interpolate d ≠ .ok (again, [])) ∧
      ∀ alternative candidate, Ty.constructDraft d alternative (.scalar (.string text)) = .ok candidate →
        candidate.check d ≠ .pass := by
  have hleft : ∀ n joined, resolveAt d n [] text ≠ .ok (joined, []) := fun n joined => hopen.resolve_unbound joined
  constructor
  · intro again h
    obtain ⟨⟨settled, left⟩, hsettled, h⟩ := Except.bind_ok h
    simp only [pure, Except.pure, Except.ok.injEq, Prod.mk.injEq, distinct_eq_nil] at h
    refine (alternatives_unfinished (offer_unfinished hopen hleft (budget - 1)) t t.alternatives).1 settled ?_
    rw [← h.2]
    exact hsettled
  · intro alternative candidate hcandidate hpass
    have hunfinished := (offer_unfinished hopen hleft budget alternative candidate hcandidate).2
    rw [inScopeAll_nil] at hunfinished
    exact hunfinished (check_pass_iff.mp hpass)

theorem interpolate_typed_iff {t : Ty} {inner : Object} :
    (∃ again, (ofPayload t (.typed inner)).interpolate d = .ok (again, [])) ↔
      ∃ again, inner.interpolate d = .ok (again, []) := by
  rw [← covered_nil (d := d), ← covered_nil (d := d), interpolate_eq, interpolateIn_eq, covered_distinct]
  exact covered_map fun inner => ofPayload t (.typed inner)

theorem constructDraft_of_firstAlternative {draft : Draft} {candidate : Object} {ts : List Ty}
    (h : firstAlternative d draft ts = some candidate) : ∃ t, Ty.constructDraft d t draft = .ok candidate := by
  induction ts with
  | nil => cases h
  | cons t rest ih =>
      simp only [firstAlternative] at h
      split at h
      · cases h
        exact ⟨t, ‹_›⟩
      · exact ih h

theorem unwrap_of_error {c : Object} (hchoice : c.payload.isChoice) {e : Error} (h : c.interpolate d = .error e) :
    c.unwrap d = .error e := by
  rw [unwrap]
  cases hpayload : c.payload with
  | typed _ | untyped _ => simp [h, bind, Except.bind]
  | scalar _ | template _ | list _ | map _ | struct _ => simp [hpayload, Payload.isChoice] at hchoice

theorem unwrap_of_typed {c inner : Object} {refs : List Ref} (hchoice : c.payload.isChoice)
    (h : c.interpolate d = .ok (.ofPayload c.ty (.typed inner), refs)) : c.unwrap d = .ok inner := by
  rw [unwrap]
  cases hpayload : c.payload with
  | typed _ | untyped _ => simp [h, ofPayload, bind, Except.bind, pure, Except.pure]
  | scalar _ | template _ | list _ | map _ | struct _ => simp [hpayload, Payload.isChoice] at hchoice

theorem firstAlternative_of_unwrap {c u : Object} {draft : Draft} {refs : List Ref} (hchoice : c.payload.isChoice)
    (h : c.interpolate d = .ok (.ofPayload c.ty (.untyped draft), refs)) (hu : c.unwrap d = .ok u) :
    firstAlternative d draft c.ty.alternatives = some u := by
  rw [unwrap] at hu
  cases hpayload : c.payload with
  | typed _ | untyped _ =>
      cases hfirst : firstAlternative d draft c.ty.alternatives with
      | none => simp [hpayload, h, hfirst, ofPayload, bind, Except.bind] at hu
      | some candidate => simpa [hpayload, h, hfirst, ofPayload, bind, Except.bind, pure, Except.pure] using hu
  | scalar _ | template _ | list _ | map _ | struct _ => simp [hpayload, Payload.isChoice] at hchoice

/-- Taking the value out of a choice gives one that passes its check exactly if the choice can be interpolated, and what
that comes to leaves nothing when it is interpolated once more and misses no required field. -/
theorem unwrap_check_iff (hd : d.Built (WellFormed d)) {c : Object} (hc : c.WellFormed d)
    (hchoice : c.payload.isChoice) :
    (∃ u, c.unwrap d = .ok u ∧ u.check d = .pass) ↔
      ∃ resolved refs, c.interpolate d = .ok (resolved, refs) ∧
        (∃ again, resolved.interpolate d = .ok (again, [])) ∧ resolved.complete d = true := by
  cases hresult : c.interpolate d with
  | error e => simp [unwrap_of_error hchoice hresult]
  | ok result =>
      obtain ⟨resolved, refs⟩ := result
      rcases interpolate_choice hd hc hchoice hresult with ⟨inner, rfl, hinner⟩ | ⟨text, rfl, hopen⟩
      · -- The value is what is inside, and interpolating the choice again goes inside as well.
        have hcheck := hinner.check_pass_iff
        rw [← interpolate_typed_iff (t := c.ty)] at hcheck
        rw [unwrap_of_typed hchoice hresult]
        constructor
        · rintro ⟨u, hu, hpass⟩
          cases hu
          exact ⟨_, _, rfl, hcheck.mp hpass⟩
        · rintro ⟨resolved, refs', heq, hleft⟩
          cases heq
          exact ⟨inner, rfl, hcheck.mpr hleft⟩
      · -- Both sides are false: the value holds the open text, as the choice does.
        obtain ⟨hinterpolate, hcheck⟩ := open_unfinished (d := d) hopen c.ty
        constructor
        · rintro ⟨u, hu, hpass⟩
          obtain ⟨t, ht⟩ := constructDraft_of_firstAlternative (firstAlternative_of_unwrap hchoice hresult hu)
          exact absurd hpass (hcheck t u ht)
        · rintro ⟨resolved, refs', heq, ⟨again, hagain⟩, -⟩
          cases heq
          exact absurd hagain (hinterpolate again)

/-- A struct `A` that requires a text, and a struct `B` that does not. -/
def overlapping : Declarations where
  next := 2
  finished := [
    (0, [("a", ⟨.string, true, none⟩), ("b", ⟨.string, false, none⟩)]),
    (1, [("b", ⟨.string, false, none⟩)])]

def overlappingChoice : Ty := .choice "AB" [.struct 0 "A", .struct 1 "B"]

def overlappingObject (field : String) : Object :=
  .ofPayload overlappingChoice (.untyped (.pairs [(.draft (.scalar (.string field)), .draft (.scalar (.string "x")))]))

theorem construct_overlapping (field : String) : overlappingChoice.construct overlapping
    (Value.mapping [(field, .string "x")]).toInput = .ok (overlappingObject field) := rfl

/-- A choice commits to an alternative in which a required field is missing, although another one passes. -/
theorem unwrap_missing_required :
    overlappingChoice.construct overlapping (Value.mapping [("b", .string "x")]).toInput = .ok (overlappingObject "b") ∧
    (overlappingObject "b").check overlapping = .pass ∧
    ∃ u, (overlappingObject "b").unwrap overlapping = .ok u ∧ u.check overlapping = .fail "A[a] is required." :=
  ⟨rfl, by cbv, _, by cbv, by cbv⟩

theorem unwrap_required_present :
    ∃ u, (overlappingObject "a").unwrap overlapping = .ok u ∧ u.check overlapping = .pass := by
  have hd : overlapping.Built (WellFormed overlapping) := Declarations.built_of_noDefaults (by decide)
  have hc := (Ty.construct_built hd overlappingChoice (Value.mapping [("a", .string "x")]).toInput
    (by simp [Value.toInput_objects]) (construct_overlapping "a")).wellFormed
  exact (unwrap_check_iff hd hc rfl).mpr ⟨_, _, by cbv, ⟨_, by cbv⟩, by cbv⟩

end Object

end TypedTemplate
