import Mathlib
import TypedTemplate.Proofs.Choice.OpenText
import TypedTemplate.Proofs.Object.Resolved
import TypedTemplate.Proofs.Object.Shaped

/-!
# What passes a check

A check goes through an object as interpolation does. It passes exactly if the object can be interpolated, what stays
unbound is promised by the scopes provided, and no required field is missing.
-/

namespace TypedTemplate

variable (d : Declarations)

/-! ## Required fields -/

mutual

/-- No struct in the object misses a field that its type requires. -/
def Object.complete : Object → Bool
  | ⟨ty, payload, _, _⟩ => payload.complete ty

def Payload.complete (ty : Ty) : Payload → Bool
  | .scalar _ | .template _ | .untyped _ => true
  | .list elements => elementsComplete elements
  | .map pairs => pairsComplete pairs
  | .struct fields =>
    match ty with
    | .struct id _ =>
      (d.fields id).all (fun entry => !entry.2.required || (Entries.find? entry.1 fields).any Option.isSome) &&
        fieldsComplete fields
    | _ => false
  | .typed inner => inner.complete

def elementsComplete : List Object → Bool
  | [] => true
  | o :: rest => o.complete && elementsComplete rest

def pairsComplete : List (Object × Object) → Bool
  | [] => true
  | (k, v) :: rest => k.complete && v.complete && pairsComplete rest

def fieldsComplete : List (String × Option Object) → Bool
  | [] => true
  | (_, none) :: rest => fieldsComplete rest
  | (_, some o) :: rest => o.complete && fieldsComplete rest

end

/-! ## Covered references -/

/-- There is an outcome, and each reference that it leaves is promised by one of the scopes. -/
def Covered {α : Type} (provided : List Scope) (x : Except Error (α × List Ref)) : Prop :=
  ∃ a refs, x = .ok (a, refs) ∧ ∀ r ∈ refs, ∃ s ∈ provided, s.provides d r = true

section

variable {d} {α β γ : Type} {provided : List Scope} {x : Except Error (α × List Ref)}

@[simp] theorem covered_ok {a : α} {refs : List Ref} :
    Covered d provided (.ok (a, refs)) ↔ ∀ r ∈ refs, ∃ s ∈ provided, s.provides d r = true := by
  constructor
  · rintro ⟨a', refs', h, hrefs⟩
    cases h
    exact hrefs
  · exact fun hrefs => ⟨a, refs, rfl, hrefs⟩

@[simp] theorem not_covered_error {e : Error} : ¬ Covered (α := α) d provided (.error e) := by
  rintro ⟨a, refs, h, -⟩
  cases h

theorem covered_map (f : α → β) :
    Covered d provided (x >>= fun result => pure (f result.1, result.2)) ↔ Covered d provided x := by
  constructor
  · rintro ⟨b, _, h, hrefs⟩
    obtain ⟨⟨a, refs⟩, hx, h⟩ := Except.bind_ok h
    cases h
    exact ⟨a, refs, hx, hrefs⟩
  · rintro ⟨a, refs, rfl, hrefs⟩
    exact covered_ok.mpr hrefs

theorem covered_both {y : Except Error (β × List Ref)} (f : α → β → γ) :
    Covered d provided (x >>= fun a => y >>= fun b => pure (f a.1 b.1, a.2 ++ b.2)) ↔
      Covered d provided x ∧ Covered d provided y := by
  constructor
  · rintro ⟨c, refs, h, hrefs⟩
    obtain ⟨⟨a, left⟩, hx, h⟩ := Except.bind_ok h
    obtain ⟨⟨b, right⟩, hy, h⟩ := Except.bind_ok h
    cases h
    exact ⟨⟨a, left, hx, fun r hr => hrefs r (List.mem_append_left _ hr)⟩,
      ⟨b, right, hy, fun r hr => hrefs r (List.mem_append_right _ hr)⟩⟩
  · rintro ⟨⟨a, left, rfl, hleft⟩, ⟨b, right, rfl, hright⟩⟩
    refine covered_ok.mpr fun r hr => ?_
    rcases List.mem_append.mp hr with hr | hr
    · exact hleft r hr
    · exact hright r hr

theorem covered_distinct :
    Covered d provided (x >>= fun result => pure (result.1, distinct result.2)) ↔ Covered d provided x := by
  constructor
  · rintro ⟨a, _, h, hrefs⟩
    obtain ⟨⟨a', refs⟩, hx, h⟩ := Except.bind_ok h
    cases h
    exact ⟨a', refs, hx, fun r hr => hrefs r (Object.mem_distinct.mpr hr)⟩
  · rintro ⟨a, refs, rfl, hrefs⟩
    exact covered_ok.mpr fun r hr => hrefs r (Object.mem_distinct.mp hr)

/-- Where no scopes are provided nothing may be left. -/
theorem covered_nil : Covered d [] x ↔ ∃ a, x = .ok (a, []) := by
  constructor
  · rintro ⟨a, refs, hx, hrefs⟩
    cases refs with
    | nil => exact ⟨a, hx⟩
    | cons r rest =>
        obtain ⟨s, hs, -⟩ := hrefs r (by simp)
        cases hs
  · rintro ⟨a, hx⟩
    exact ⟨a, [], hx, by simp⟩

end

variable {d}

namespace Object

/-! ## The check of a struct -/

section

variable {eval : Nat → Object → Interpolated} {sub : Object → Checked} {scopes provided : List Scope}

theorem find?_checkFields {fields : List (String × Option Object)} (hnodup : (fields.map Prod.fst).Nodup)
    (name : String) : Entries.find? name (checkFields d eval sub scopes provided fields) =
      (Entries.find? name fields).join.map (checkIn d eval sub scopes provided) := by
  induction fields with
  | nil => rfl
  | cons entry rest ih =>
      obtain ⟨k, v⟩ := entry
      rw [List.map_cons, List.nodup_cons] at hnodup
      cases v with
      | none =>
          simp only [checkFields, ih hnodup.2, Entries.find?]
          split
          · rename_i hk
            subst hk
            cases hrest : Entries.find? k rest with
            | none => rfl
            | some v => exact absurd (List.mem_map.mpr ⟨_, Entries.mem_of_find? hrest, rfl⟩) hnodup.1
          · rfl
      | some o =>
          simp only [checkFields, Entries.find?]
          split
          · rfl
          · exact ih hnodup.2

theorem checkDeclared_pass_iff {name : String} {checks : List (String × Checked)} {declared : List (String × Field)} :
    checkDeclared name checks declared = .ok .pass ↔ ∀ entry ∈ declared,
      match Entries.find? entry.1 checks with
      | some check => check = .ok .pass
      | none => entry.2.required = false := by
  induction declared with
  | nil => simp [checkDeclared]
  | cons entry rest ih =>
      obtain ⟨field, f⟩ := entry
      rw [List.forall_mem_cons, ← ih]
      cases hfind : Entries.find? field checks with
      | none => cases hrequired : f.required <;> simp [checkDeclared, hfind, hrequired]
      | some check =>
          cases check with
          | error e => simp [checkDeclared, hfind, bind, Except.bind]
          | ok c => cases c <;> simp [checkDeclared, hfind, bind, Except.bind, pure, Except.pure]

/-- The check of a struct passes exactly if those of the fields do that are present, and no required one is missing. -/
theorem checkStruct_pass_iff {id : StructId} {name : String} {fields : List (String × Option Object)}
    (hdeclares : (Ty.struct id name).Declares d (fields.map Prod.fst)) :
    checkDeclared name (checkFields d eval sub scopes provided fields) (d.fields id) = .ok .pass ↔
      (∀ field o, (field, some o) ∈ fields → checkIn d eval sub scopes provided o = .ok .pass) ∧
      (d.fields id).all (fun entry => !entry.2.required || (Entries.find? entry.1 fields).any Option.isSome) = true := by
  rw [checkDeclared_pass_iff]
  simp only [find?_checkFields hdeclares.nodup, List.all_eq_true]
  constructor
  · intro h
    constructor
    · intro field o hm
      obtain ⟨f, hf⟩ := Option.isSome_iff_exists.mp (hdeclares.known field (List.mem_map.mpr ⟨_, hm, rfl⟩))
      have hcheck := h (field, f) (Entries.mem_of_find? hf)
      rw [Entries.find?_of_mem hdeclares.nodup hm] at hcheck
      exact hcheck
    · rintro ⟨field, f⟩ hm
      have hcheck := h (field, f) hm
      cases hfind : Entries.find? field fields with
      | none =>
          rw [hfind] at hcheck
          simpa using hcheck
      | some value =>
          cases value with
          | none =>
              rw [hfind] at hcheck
              simpa using hcheck
          | some o => simp
  · rintro ⟨hchecks, hrequired⟩ ⟨field, f⟩ hm
    have hpresent := hrequired (field, f) hm
    cases hfind : Entries.find? field fields with
    | none => simpa [hfind] using hpresent
    | some value =>
        cases value with
        | none => simpa [hfind] using hpresent
        | some o => exact hchecks field o (Entries.mem_of_find? hfind)

end

/-! ## Checks and interpolation -/

/-- The check of the object goes the way of its interpolation: structs have fields that their types declare, nothing
inside is provided with scopes of its own, and a choice that has not settled holds an open text and is provided with
none at all. -/
inductive Checkable (d : Declarations) (provided : List Scope) : Object → Prop
  | scalar {t s scopes own} : Checkable d provided ⟨t, .scalar s, scopes, own⟩
  | template {t text scopes own} : Checkable d provided ⟨t, .template text, scopes, own⟩
  | list {t elements scopes own} : (∀ o ∈ elements, o.provided = []) → (∀ o ∈ elements, Checkable d provided o) →
      Checkable d provided ⟨t, .list elements, scopes, own⟩
  | map {t pairs scopes own} : (∀ k v, (k, v) ∈ pairs → k.provided = [] ∧ v.provided = []) →
      (∀ k v, (k, v) ∈ pairs → Checkable d provided k) → (∀ k v, (k, v) ∈ pairs → Checkable d provided v) →
      Checkable d provided ⟨t, .map pairs, scopes, own⟩
  | struct {t fields scopes own} : t.Declares d (fields.map Prod.fst) →
      (∀ name o, (name, some o) ∈ fields → o.provided = []) →
      (∀ name o, (name, some o) ∈ fields → Checkable d provided o) → Checkable d provided ⟨t, .struct fields, scopes, own⟩
  | typed {t inner scopes own} : inner.provided = [] → Checkable d provided inner →
      Checkable d provided ⟨t, .typed inner, scopes, own⟩
  | text {t text scopes own} : provided = [] → Template.Open text →
      Checkable d provided ⟨t, .untyped (.scalar (.string text)), scopes, own⟩

theorem checkFirst_pass_iff {first rest : Checked} {failed : String → String} :
    (first >>= fun
      | .pass => rest
      | .fail message => pure (.fail (failed message))) = .ok .pass ↔ first = .ok .pass ∧ rest = .ok .pass := by
  cases first with
  | error e => simp [bind, Except.bind]
  | ok c => cases c <;> simp [bind, Except.bind, pure, Except.pure]

theorem checkScalar_pass_iff {provided : List Scope} {i : Interpolated} :
    checkScalar d provided i = .ok .pass ↔ Covered d provided i := by
  cases i with
  | error e =>
      simp only [checkScalar]
      split <;> simp
  | ok result =>
      obtain ⟨o, refs⟩ := result
      have hall : (refs.all fun r => provided.any (·.provides d r)) = true ↔
          ∀ r ∈ refs, ∃ s ∈ provided, s.provides d r = true := by simp
      rw [checkScalar, covered_ok, ← hall]
      split <;> simp [*]

section

variable {provided : List Scope}

-- Both recursions descend into the object alike; what is left on the way up is only joined and freed of repetitions.
mutual

/-- A check passes exactly if interpolation leaves nothing but what is provided, and no required field is missing. -/
theorem checkIn_pass_iff (n : Nat) (outer : List Scope) : (o : Object) → o.Checkable d provided → o.provided = [] →
    (checkIn d (interpolateWithin d n) (checkWithin d n) outer provided o = .ok .pass ↔
      Covered d provided (interpolateIn d (interpolateWithin d n) 0 outer o) ∧ o.complete d = true)
  | ⟨t, payload, scopes, own⟩, ho, hown => by
      rw [interpolateIn_eq, covered_distinct]
      simp only [checkIn, complete]
      rw [show own = [] from hown, List.nil_append]
      exact checkPayload_pass_iff n _ payload ho
termination_by structural x => x

theorem checkPayload_pass_iff (n : Nat) (scopes : List Scope) {own : List Scope} {ownProvided : List Scope} {t : Ty} :
    (payload : Payload) → Checkable d provided ⟨t, payload, own, ownProvided⟩ →
    (checkPayload d (interpolateWithin d n) (checkWithin d n) scopes provided t payload = .ok .pass ↔
      Covered d provided (interpolatePayload d (interpolateWithin d n) 0 scopes t payload) ∧
        payload.complete d t = true)
  | .scalar s, _ => by
      simp only [checkPayload, Payload.complete, and_true]
      exact checkScalar_pass_iff
  | .template text, _ => by
      simp only [checkPayload, Payload.complete, and_true, checkScalar_pass_iff]
      have hmap : ((interpolatePayload d (interpolateWithin d n) 0 scopes t (.template text)).map
          fun (o, refs) => (o, distinct refs)) = interpolatePayload d (interpolateWithin d n) 0 scopes t (.template text)
            >>= fun result => pure (result.1, distinct result.2) := by
        cases interpolatePayload d (interpolateWithin d n) 0 scopes t (.template text) <;> rfl
      rw [hmap, covered_distinct]
  | .list elements, ho => by
      cases ho with
      | list hown hos =>
          simp only [checkPayload, interpolatePayload, Payload.complete]
          rw [covered_map fun elements => ofPayload t (.list elements)]
          exact checkElements_pass_iff n scopes t elements hos hown
  | .map pairs, ho => by
      cases ho with
      | map hown hk hv =>
          simp only [checkPayload, interpolatePayload, Payload.complete]
          rw [covered_map fun pairs => ofPayload t (.map pairs)]
          exact checkPairs_pass_iff n scopes t pairs hk hv hown
  | .struct fields, ho => by
      cases ho with
      | struct hdeclares hown hos =>
          simp only [checkPayload, interpolatePayload, Payload.complete]
          rw [covered_map fun fields => ofPayload t (.struct fields)]
          cases t with
          | struct id name =>
              dsimp only
              rw [checkStruct_pass_iff hdeclares, checkFields_pass_iff n _ fields hos hown, Bool.and_eq_true]
              exact and_assoc.trans (and_congr_right fun _ => and_comm)
          | _ => simp
  | .typed inner, ho => by
      cases ho with
      | typed hown hinner =>
          simp only [checkPayload, interpolatePayload, Payload.complete]
          rw [covered_map fun inner => ofPayload t (.typed inner)]
          exact checkIn_pass_iff n scopes inner hinner hown
  | .untyped draft, ho => by
      cases ho with
      | text hnone hopen =>
          subst hnone
          simp only [checkPayload, interpolatePayload, Payload.complete, and_true, covered_nil]
          exact checkAlternatives_open hopen n t t.alternatives
termination_by structural x => x

theorem checkElements_pass_iff (n : Nat) (scopes : List Scope) (t : Ty) : (elements : List Object) →
    (∀ o ∈ elements, o.Checkable d provided) → (∀ o ∈ elements, o.provided = []) →
    (checkElements d (interpolateWithin d n) (checkWithin d n) scopes provided t elements = .ok .pass ↔
      Covered d provided (interpolateElements d (interpolateWithin d n) 0 scopes elements) ∧
        elementsComplete d elements = true)
  | [], _, _ => by simp [checkElements, interpolateElements, elementsComplete]
  | o :: rest, hos, hown => by
      have hfirst := checkIn_pass_iff n scopes o (hos o (by simp)) (hown o (by simp))
      have hrest := checkElements_pass_iff n scopes t rest (fun o ho => hos o (by simp [ho]))
        fun o ho => hown o (by simp [ho])
      simp only [interpolateElements, elementsComplete, Bool.and_eq_true]
      rw [covered_both fun resolved others => resolved :: others, and_and_and_comm, ← hfirst, ← hrest]
      exact checkFirst_pass_iff
termination_by structural x => x

theorem checkPairs_pass_iff (n : Nat) (scopes : List Scope) (t : Ty) : (pairs : List (Object × Object)) →
    (∀ k v, (k, v) ∈ pairs → k.Checkable d provided) → (∀ k v, (k, v) ∈ pairs → v.Checkable d provided) →
    (∀ k v, (k, v) ∈ pairs → k.provided = [] ∧ v.provided = []) →
    (checkPairs d (interpolateWithin d n) (checkWithin d n) scopes provided t pairs = .ok .pass ↔
      Covered d provided (interpolatePairs d (interpolateWithin d n) 0 scopes pairs) ∧
        pairsComplete d pairs = true)
  | [], _, _, _ => by simp [checkPairs, interpolatePairs, pairsComplete]
  | (k, v) :: rest, hk, hv, hown => by
      have hkey := checkIn_pass_iff n scopes k (hk k v (by simp)) (hown k v (by simp)).1
      have hvalue := checkIn_pass_iff n scopes v (hv k v (by simp)) (hown k v (by simp)).2
      have hrest := checkPairs_pass_iff n scopes t rest (fun k' v' hm => hk k' v' (by simp [hm]))
        (fun k' v' hm => hv k' v' (by simp [hm])) fun k' v' hm => hown k' v' (by simp [hm])
      have hsplit : interpolatePairs d (interpolateWithin d n) 0 scopes ((k, v) :: rest) =
          ((interpolateIn d (interpolateWithin d n) 0 scopes k >>= fun key =>
            interpolateIn d (interpolateWithin d n) 0 scopes v >>= fun value =>
              pure ((key.1, value.1), key.2 ++ value.2)) >>= fun pair =>
            interpolatePairs d (interpolateWithin d n) 0 scopes rest >>= fun others =>
              pure (pair.1 :: others.1, pair.2 ++ others.2)) := by
        simp only [interpolatePairs, bind_assoc, pure_bind]
      rw [hsplit, covered_both fun pair others => pair :: others, covered_both Prod.mk]
      simp only [pairsComplete, Bool.and_eq_true]
      rw [and_and_and_comm, and_and_and_comm (b := Covered _ _ _), ← hkey, ← hvalue, ← hrest, and_assoc]
      exact checkFirst_pass_iff.trans (and_congr_right fun _ => checkFirst_pass_iff)
termination_by structural x => x

theorem checkFields_pass_iff (n : Nat) (scopes : List Scope) : (fields : List (String × Option Object)) →
    (∀ name o, (name, some o) ∈ fields → o.Checkable d provided) →
    (∀ name o, (name, some o) ∈ fields → o.provided = []) →
    ((∀ name o, (name, some o) ∈ fields →
        checkIn d (interpolateWithin d n) (checkWithin d n) scopes provided o = .ok .pass) ↔
      Covered d provided (interpolateFields d (interpolateWithin d n) 0 scopes fields) ∧
        fieldsComplete d fields = true)
  | [], _, _ => by simp [interpolateFields, fieldsComplete]
  | (name, none) :: rest, hos, hown => by
      have hrest := checkFields_pass_iff n scopes rest (fun name o hm => hos name o (by simp [hm]))
        fun name o hm => hown name o (by simp [hm])
      simp only [interpolateFields, fieldsComplete]
      rw [covered_map fun others => (name, none) :: others, ← hrest]
      simp
  | (name, some o) :: rest, hos, hown => by
      have hfirst := checkIn_pass_iff n scopes o (hos name o (by simp)) (hown name o (by simp))
      have hrest := checkFields_pass_iff n scopes rest (fun name o hm => hos name o (by simp [hm]))
        fun name o hm => hown name o (by simp [hm])
      simp only [interpolateFields, fieldsComplete, Bool.and_eq_true]
      rw [covered_both fun resolved others => (name, some resolved) :: others, and_and_and_comm, ← hfirst, ← hrest]
      simp only [List.mem_cons, Prod.mk.injEq, Option.some.injEq]
      constructor
      · intro h
        exact ⟨h name o (.inl ⟨rfl, rfl⟩), fun name' o' hm => h name' o' (.inr hm)⟩
      · rintro ⟨ho, hrest⟩ name' o' (⟨rfl, rfl⟩ | hm)
        · exact ho
        · exact hrest name' o' hm
termination_by structural x => x

end

end

theorem check_pass_iff {o : Object} : o.check d = .pass ↔ checkWithin d budget o = .ok .pass := by
  rw [check]
  cases checkWithin d budget o <;> simp

/-- An object passes its check exactly if its interpolation leaves nothing but what it is provided with, and no required
field is missing. -/
theorem Checkable.check_pass_iff {o : Object} (h : o.Checkable d o.provided) :
    o.check d = .pass ↔ Covered d o.provided (o.interpolate d) ∧ o.complete d = true := by
  obtain ⟨t, payload, scopes, own⟩ := o
  have hcheck : checkWithin d budget ⟨t, payload, scopes, own⟩ = checkPayload d (interpolateWithin d (budget - 1))
    (checkWithin d (budget - 1)) (scopes ++ []) (own ++ []) t payload := rfl
  rw [Object.check_pass_iff, hcheck, interpolate_eq, interpolateIn_eq, covered_distinct, List.append_nil own]
  exact checkPayload_pass_iff (budget - 1) (scopes ++ []) payload h

/-! ## Objects without choices -/

/-- In a shaped object without choices nothing keeps the check from going the way of interpolation. -/
theorem Shaped.checkable {o : Object} (ho : o.Shaped d) (hchoice : o.ty.NoChoice d) {provided : List Scope}
    (hprovided : ∀ p ∈ o.payload.parts, ∀ q, p.Holds q → q.provided = []) : o.Checkable d provided := by
  replace hprovided : ∀ p ∈ o.payload.parts, ∀ q, p.Holds q → q.provided = [] ∧ q.ty.NoChoice d :=
    fun p hp q hq => ⟨hprovided p hp q hq, (ho.holds hchoice (.part hp hq)).2⟩
  induction ho with
  | scalar _ => exact .scalar
  | template _ => exact .template
  | list _ _ ih =>
      refine .list (fun o hm => (hprovided o hm o .self).1) fun o hm => ?_
      exact ih o hm (hprovided o hm o .self).2 fun p hp q hq => hprovided o hm q (.part hp hq)
  | @map key value pairs _ _ _ _ _ ihk ihv =>
      have hparts : ∀ k v, (k, v) ∈ pairs → k ∈ (Payload.map pairs).parts ∧ v ∈ (Payload.map pairs).parts :=
        fun k v hm => ⟨Payload.mem_parts_map.mpr ⟨k, v, hm, .inl rfl⟩, Payload.mem_parts_map.mpr ⟨k, v, hm, .inr rfl⟩⟩
      refine .map (fun k v hm => ?_) (fun k v hm => ?_) fun k v hm => ?_
      all_goals obtain ⟨hk, hv⟩ := hparts k v hm
      · exact ⟨(hprovided k hk k .self).1, (hprovided v hv v .self).1⟩
      · exact ihk k v hm (hprovided k hk k .self).2 fun p hp q hq => hprovided k hk q (.part hp hq)
      · exact ihv k v hm (hprovided v hv v .self).2 fun p hp q hq => hprovided v hv q (.part hp hq)
  | @struct id name fields scopes own hnodup hknown _ _ ih =>
      have hdeclares : ∀ n ∈ fields.map Prod.fst, (Entries.find? n (d.fields id)).isSome := by
        intro n hn
        obtain ⟨entry, he, rfl⟩ := List.mem_map.mp hn
        exact hknown entry he
      have hparts : ∀ name o, (name, some o) ∈ fields → o ∈ (Payload.struct fields).parts :=
        fun name o hm => Payload.mem_parts_struct.mpr ⟨name, hm⟩
      refine .struct ⟨hnodup, hdeclares⟩ (fun name o hm => ?_) fun name o hm => ?_
      all_goals have hpart := hprovided o (hparts name o hm)
      · exact (hpart o .self).1
      · exact ih name o hm (hpart o .self).2 fun p hp q hq => hpart q (.part hp hq)
  | typed => exact absurd hchoice Ty.not_noChoice_choice
  | untyped => exact absurd hchoice Ty.not_noChoice_choice

/-- An object of a type without choices passes its check exactly if it can be interpolated, each reference that stays
unbound is promised by a scope that it is provided with, and no struct in it misses a required field. -/
theorem check_iff_interpolates {o : Object} (ho : o.Shaped d) (hchoice : o.ty.NoChoice d)
    (hprovided : ∀ p ∈ o.payload.parts, ∀ q, p.Holds q → q.provided = []) :
    o.check d = .pass ↔ ∃ resolved refs, o.interpolate d = .ok (resolved, refs) ∧
      (∀ r ∈ refs, ∃ s ∈ o.provided, s.provides d r = true) ∧ o.complete d = true := by
  rw [(ho.checkable hchoice hprovided).check_pass_iff]
  constructor
  · rintro ⟨⟨resolved, refs, h, hrefs⟩, hcomplete⟩
    exact ⟨resolved, refs, h, hrefs, hcomplete⟩
  · rintro ⟨resolved, refs, h, hrefs, hcomplete⟩
    exact ⟨⟨resolved, refs, h, hrefs⟩, hcomplete⟩

/-- A tree, whose nodes require a name. -/
def tree : Declarations where
  next := 1
  finished := [
    (0, [("name", ⟨.string, true, none⟩), ("children", ⟨.list (.struct 0 "Tree"), false, none⟩)])]

def treeValue : Value := .mapping [("name", .string "\x7b\x7bx\x7d\x7d"),
  ("children", .sequence [.mapping [("name", .string "\x7b\x7by\x7d\x7d")]])]

def treeNode (name : String) (children : Option Object) : Object :=
  .ofPayload (.struct 0 "Tree") (.struct [("name", some (.ofPayload .string (.template name))), ("children", children)])

def treeObject : Object := treeNode "\x7b\x7bx\x7d\x7d"
  (some (.ofPayload (.list (.struct 0 "Tree")) (.list [treeNode "\x7b\x7by\x7d\x7d" none])))

theorem construct_tree : (Ty.struct 0 "Tree").construct tree treeValue.toInput = .ok treeObject := by cbv

def texts (names : List String) : Scope := .environment ⟨names.map fun name => (.ofName name, .text "")⟩

/-- What is left deep in a tree must be provided as well. -/
theorem check_iff_interpolates_tree : (treeObject.providedAll [texts ["x", "y"]]).check tree = .pass ∧
    (treeObject.providedAll [texts ["x"]]).check tree ≠ .pass := by
  have hd : tree.Plain := Declarations.built_of_noDefaults (by decide)
  have hd' : tree.Built (Shaped tree) := Declarations.built_of_noDefaults (by decide)
  have hchoice : (Ty.struct 0 "Tree").NoChoice tree := Ty.noChoice_of_isChoiceFree rfl (by decide)
  have hplain : treeObject.Plain tree (.struct 0 "Tree") :=
    Ty.construct_built hd _ _ (by simp [Value.toInput_objects]) construct_tree
  have hshaped : treeObject.Shaped tree := construct_shaped hd' (by simp [Value.toInput_objects]) construct_tree
  have hprovided : ∀ p ∈ treeObject.payload.parts, ∀ q, p.Holds q → q.provided = [] :=
    fun p hp q hq => hplain.holds_provided (.part hp hq)
  obtain ⟨resolved, hresolved⟩ : ∃ resolved, treeObject.interpolate tree = .ok (resolved, [.ofName "x", .ofName "y"]) :=
    ⟨_, by cbv⟩
  have hcheck : ∀ names, (treeObject.providedAll [texts names]).check tree = .pass ↔ _ :=
    fun names => check_iff_interpolates (hshaped.providedAll _) hchoice hprovided
  constructor
  · refine (hcheck _).mpr ⟨resolved, _, hresolved, fun r hr => ⟨texts ["x", "y"], by simp [providedAll], ?_⟩, by cbv⟩
    simp only [List.mem_cons, List.not_mem_nil, or_false] at hr
    rcases hr with rfl | rfl <;> cbv
  · intro hpass
    obtain ⟨resolved', refs, h, hrefs, -⟩ := (hcheck _).mp hpass
    cases hresolved.symm.trans h
    obtain ⟨s, hs, hprovides⟩ := hrefs (.ofName "y") (by simp)
    obtain rfl : s = texts ["x"] := List.mem_singleton.mp hs
    cases hprovides.symm.trans (by cbv : (texts ["x"]).provides tree (.ofName "y") = false)

end Object

end TypedTemplate
