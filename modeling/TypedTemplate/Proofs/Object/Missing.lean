import TypedTemplate.Proofs.Scope.Sibling

/-!
# Lookups that lead nowhere

A reference leads nowhere in a choice if it leads nowhere in what the choice has settled for, or else in any of the
objects that its alternatives offer. Where nothing can be looked up at all, it leads nowhere either.
-/

namespace TypedTemplate

/-- A failure that a search through several places passes over. -/
def Missing {α : Type} (x : Except Error α) : Prop := ∃ e, x = .error e ∧ e.isLookup = true

theorem not_missing_ok {α : Type} (a : α) : ¬ Missing (.ok a : Except Error α) := not_fails_ok

theorem missing_error {α : Type} {e : Error} : Missing (.error e : Except Error α) ↔ e.isLookup = true := fails_error

theorem Alongside.missing_iff {α β : Type} {R : α → β → Prop} {x : Except Error α} {y : Except Error β}
    (h : Alongside R x y) : Missing x ↔ Missing y := by
  cases h with
  | ok _ => exact iff_of_false (not_missing_ok _) (not_missing_ok _)
  | error => rw [missing_error, missing_error]

/-- A step and what follows it lead nowhere if the step does, or else what follows. -/
theorem missing_bind {α β : Type} {x : Except Error α} {f : α → Except Error β} :
    Missing (x.bind f) ↔ Missing x ∨ ∃ a, x = .ok a ∧ Missing (f a) :=
  fails_bind

theorem Ty.anyNamable_iff {ts : List Ty} : anyNamable ts = true ↔ ∃ t ∈ ts, t.isNamable = true := by
  induction ts with
  | nil => simp [anyNamable]
  | cons t rest ih => simp [anyNamable, ih]

theorem Ty.isNamable_of_alternative {t alternative : Ty} (hm : alternative ∈ t.alternatives)
    (h : alternative.isNamable = true) : t.isNamable = true := by
  cases t with
  | choice name alternatives => exact anyNamable_iff.mpr ⟨alternative, hm, h⟩
  | _ => cases hm

variable {d : Declarations}

/-! ## What the alternatives offer -/

/-- What a draft is made into is of the kind that the type prescribes; a choice keeps the draft. -/
theorem Ty.constructDraft_payload {t : Ty} {draft : Draft} {o : Object} (h : t.constructDraft d draft = .ok o) :
    o = .ofPayload t o.payload ∧
      match t with
      | .list _ => ∃ elements, o.payload = .list elements
      | .map .. => ∃ pairs, o.payload = .map pairs
      | .struct .. => ∃ fields, o.payload = .struct fields
      | .choice .. => o.payload = .untyped draft
      | t => ∃ s, draft = .scalar s ∧ t.constructScalar s = .ok o := by
  cases t with
  | choice name alternatives =>
      cases draft <;> cases h <;> exact ⟨rfl, rfl⟩
  | list element =>
      cases draft with
      | sequence items =>
          obtain ⟨elements, -, h⟩ := Except.bind_ok h
          cases h
          exact ⟨rfl, elements, rfl⟩
      | _ => cases h
  | map key value =>
      cases draft with
      | sequence items =>
          simp only [constructDraft] at h
          split at h
          · obtain ⟨pairs, -, h⟩ := Except.bind_ok h
            cases h
            exact ⟨rfl, pairs, rfl⟩
          · cases h
      | pairs pairs =>
          obtain ⟨pairs, -, h⟩ := Except.bind_ok h
          cases h
          exact ⟨rfl, pairs, rfl⟩
      | _ => cases h
  | struct id name =>
      cases draft with
      | pairs pairs =>
          obtain ⟨fields, -, h⟩ := Except.bind_ok h
          cases h
          exact ⟨rfl, fields, rfl⟩
      | _ => cases h
  | _ =>
      cases draft with
      | scalar s =>
          refine ⟨?_, s, rfl, h⟩
          rcases constructScalar_ok h with ⟨s', -, rfl⟩ | ⟨text, rfl⟩ <;> rfl
      | _ => cases h

/-- Something can be looked up in what a draft is made into exactly if the type says so. -/
theorem Ty.isNamable_of_constructDraft {t : Ty} {draft : Draft} {o : Object} (h : t.constructDraft d draft = .ok o) :
    o.isNamable = t.isNamable := by
  obtain ⟨ho, hkind⟩ := constructDraft_payload h
  rw [ho]
  cases t with
  | list | map | struct =>
      obtain ⟨_, hpayload⟩ := hkind
      simp only [hpayload, Object.ofPayload, Object.isNamable, isNamable]
  | choice => simp only [show o.payload = _ from hkind, Object.ofPayload, Object.isNamable]
  | _ =>
      obtain ⟨s, -, hs⟩ := hkind
      rcases constructScalar_ok hs with ⟨s', -, rfl⟩ | ⟨text, rfl⟩ <;>
        simp only [Object.ofPayload, Object.isNamable, isNamable]

/-- The type takes the draft and makes an object of it in which something can be looked up; a choice does so by any
of its alternatives. -/
inductive Ty.Offers (d : Declarations) (draft : Draft) : Ty → Object → Prop
  | taken {t o} : t.isNamable = true → t.alternatives = [] → t.constructDraft d draft = .ok o → Offers d draft t o
  | alternative {name alternatives t o} : t ∈ alternatives → Offers d draft t o →
      Offers d draft (.choice name alternatives) o

namespace Ty.Offers

variable {draft : Draft} {t : Ty} {o : Object}

theorem isNamable (h : t.Offers d draft o) : t.isNamable = true := by
  induction h with
  | taken ht _ _ => exact ht
  | alternative hm _ ih => exact anyNamable_iff.mpr ⟨_, hm, ih⟩

theorem isChoice (h : t.Offers d draft o) : o.payload.isChoice = false := by
  induction h with
  | @taken t o ht halternatives h =>
      obtain ⟨-, hkind⟩ := constructDraft_payload h
      cases t with
      | list | map | struct =>
          obtain ⟨_, hpayload⟩ := hkind
          rw [hpayload]
          rfl
      | choice name alternatives =>
          cases halternatives
          cases ht
      | _ => cases ht
  | alternative _ _ ih => exact ih

theorem taken_iff (ht : t.isNamable = true) (halternatives : t.alternatives = [])
    (hchoice : ∀ name ts, t ≠ .choice name ts) :
    t.Offers d draft o ↔ t.constructDraft d draft = .ok o := by
  constructor
  · intro h
    cases h with
    | taken _ _ h => exact h
    | alternative hm _ => exact absurd rfl (hchoice _ _)
  · exact .taken ht halternatives

end Ty.Offers

/-- No scalar is made into an object in which something can be looked up. -/
theorem Ty.not_offers_scalar {s : Scalar} {o : Object} (t : Ty) : ¬ t.Offers d (.scalar s) o := by
  intro h
  generalize hdraft : Draft.scalar s = draft at h
  induction h with
  | @taken t o ht halternatives h =>
      subst hdraft
      cases t with
      | list | map | struct => cases h
      | choice =>
          cases halternatives
          cases ht
      | _ => cases ht
  | alternative _ _ ih => exact ih

namespace Object

section

variable {go : Object → Except Error Object} {draft : Draft} {missing : Error}

mutual

theorem tryAlternatives_missing_iff (hm : missing.isLookup = true) : (ts : List Ty) →
    (Missing (tryAlternatives d go missing draft ts) ↔ ∀ t ∈ ts, ∀ o, t.Offers d draft o → Missing (go o))
  | [] => by simp [tryAlternatives, missing_error, hm]
  | t :: rest => by
      have hrest := tryAlternatives_missing_iff hm rest
      rw [List.forall_mem_cons, tryAlternatives, ← hrest]
      split
      · rename_i ht
        have hfirst := tryAlternative_missing_iff hm t ht
        cases hx : tryAlternative d go missing draft t with
        | ok found =>
            rw [hx] at hfirst
            exact iff_of_false (not_missing_ok _) fun h => not_missing_ok _ (hfirst.mpr h.1)
        | error e =>
            rw [hx, missing_error] at hfirst
            dsimp only
            split
            · rename_i he
              exact ⟨fun h => ⟨hfirst.mp he, h⟩, And.right⟩
            · rename_i he
              rw [missing_error]
              exact iff_of_false he fun h => he (hfirst.mpr h.1)
      · rename_i ht
        exact ⟨fun h => ⟨fun o ho => absurd ho.isNamable ht, h⟩, And.right⟩

theorem tryAlternative_missing_iff (hm : missing.isLookup = true) : (t : Ty) → t.isNamable = true →
    (Missing (tryAlternative d go missing draft t) ↔ ∀ o, t.Offers d draft o → Missing (go o))
  | .choice name alternatives, _ => by
      rw [tryAlternative, tryAlternatives_missing_iff hm alternatives]
      constructor
      · intro h o ho
        cases ho with
        | taken _ halternatives _ =>
            cases halternatives
            rename_i ht _
            cases ht
        | alternative hmem ho => exact h _ hmem o ho
      · exact fun h t ht o ho => h o (.alternative ht ho)
  | .list _, ht | .map _ _, ht | .struct _ _, ht => by
      simp only [tryAlternative, Ty.Offers.taken_iff ht rfl (by rintro _ _ ⟨⟩)]
      split
      · rename_i candidate hcandidate
        simp [hcandidate]
      · rename_i e he
        simp [he, missing_error, hm]
  | .string, ht | .integer, ht | .float, ht | .boolean, ht | .enum _ _, ht => by cases ht

end

end

/-! ## Following a path -/

section

variable {snapshot : Object → Except Error Value}

/-- Following a path from an object that is no choice. -/
def follow (d : Declarations) (snapshot : Object → Except Error Value) : List Component → Object → Except Error Object
  | [], o => o.findNothing
  | [c], o => step d snapshot c o
  | c :: rest, o => (step d snapshot c o).bind (descend (findFrom d snapshot rest))

theorem findFrom_eq (path : List Component) (o : Object) :
    findFrom d snapshot path o = enter d ⟨path⟩ (follow d snapshot path) o := by
  match path with
  | [] | [_] | _ :: _ :: _ => rfl

theorem findFrom_of_isChoice {o : Object} (h : o.payload.isChoice = false) (path : List Component) :
    findFrom d snapshot path o = follow d snapshot path o := by
  rw [findFrom_eq, enter_eq d h]

theorem follow_cons (c : Component) {rest : List Component} (h : rest ≠ []) (o : Object) :
    follow d snapshot (c :: rest) o = (step d snapshot c o).bind (descend (findFrom d snapshot rest)) := by
  cases rest with
  | nil => exact absurd rfl h
  | cons => rfl

/-- A path leads nowhere if its first step does not, or leads to where nothing can be looked up, or the rest of the
path leads nowhere from there. -/
theorem follow_missing_iff {c : Component} {rest : List Component} {o : Object} :
    Missing (follow d snapshot (c :: rest) o) ↔ Missing (step d snapshot c o) ∨ ∃ p, step d snapshot c o = .ok p ∧
      rest ≠ [] ∧ (p.isNamable = false ∨ Missing (findFrom d snapshot rest p)) := by
  by_cases hrest : rest = []
  · subst hrest
    simp [follow]
  · rw [follow_cons c hrest, missing_bind]
    refine or_congr_right (exists_congr fun p => and_congr_right fun _ => ?_)
    rw [descend]
    split
    · rename_i hp
      simp [hrest, hp]
    · rename_i hp
      simp [hrest, hp, missing_error, Error.unnamable, Error.isLookup]

theorem missing_inScopeAll (path : List Component) (o : Object) (scopes : List Scope) :
    Missing (findFrom d snapshot path (o.inScopeAll scopes)) ↔ Missing (findFrom d snapshot path o) := by
  have halike : (o.inScopeAll scopes).Alike o := ⟨rfl, rfl⟩
  exact (findFrom_alike path halike).missing_iff

theorem core_core (o : Object) : ∀ outer : List Scope, (o.core outer).core [] = o.core outer := by
  induction o using parts_induction with
  | _ o ih =>
    intro outer
    obtain ⟨t, payload, own, provided⟩ := o
    cases payload with
    | typed inner =>
        simp only [core]
        exact ih inner (List.mem_singleton.mpr rfl) _
    | _ => simp [core]

theorem findFrom_core (path : List Component) (o : Object) (outer : List Scope) :
    Missing (findFrom d snapshot path (o.core outer)) ↔ Missing (findFrom d snapshot path o) := by
  have hcore : ∀ p : Object, findFrom d snapshot path (p.core []) = findFrom d snapshot path p := by
    intro p
    rw [findFrom_eq, findFrom_eq, enter, enter, core_core]
  rw [← hcore o]
  exact (findFrom_alike path (core_alike outer [] o)).missing_iff

theorem findFrom_typed (path : List Component) {t : Ty} {inner : Object} {own provided : List Scope} :
    Missing (findFrom d snapshot path ⟨t, .typed inner, own, provided⟩) ↔ Missing (findFrom d snapshot path inner) := by
  rw [← findFrom_core path ⟨t, .typed inner, own, provided⟩ [], core, findFrom_core]

theorem findFrom_untyped (path : List Component) {t : Ty} {draft : Draft} {own provided : List Scope} :
    Missing (findFrom d snapshot path ⟨t, .untyped draft, own, provided⟩) ↔
      ∀ alternative ∈ t.alternatives, ∀ o, alternative.Offers d draft o → Missing (findFrom d snapshot path o) := by
  have hsees : ∀ alternative o, Ty.Offers d draft alternative o →
      (Missing (follow d snapshot path (o.inScopeAll own)) ↔ Missing (findFrom d snapshot path o)) := by
    intro alternative o ho
    rw [← findFrom_of_isChoice (o := o.inScopeAll own) ho.isChoice, missing_inScopeAll]
  rw [findFrom_eq, enter]
  simp only [core, List.append_nil]
  rw [tryAlternatives_missing_iff (by rfl)]
  exact forall₂_congr fun alternative _ => forall₂_congr fun o ho => hsees alternative o ho

/-- A path leads nowhere in an object in which nothing can be looked up. -/
theorem missing_of_not_namable {o : Object} (h : o.isNamable = false) {path : List Component} (hpath : path ≠ []) :
    Missing (findFrom d snapshot path o) := by
  induction o using parts_induction with
  | _ o ih =>
    obtain ⟨t, payload, own, provided⟩ := o
    cases payload with
    | list | map | struct => simp [isNamable] at h
    | scalar | template =>
        obtain ⟨c, rest, rfl⟩ := List.exists_cons_of_ne_nil hpath
        rw [findFrom_of_isChoice rfl, follow_missing_iff]
        exact .inl (by cases c <;> exact ⟨_, rfl, rfl⟩)
    | typed inner =>
        rw [findFrom_typed]
        rw [isNamable] at h
        exact ih inner (List.mem_singleton.mpr rfl) h
    | untyped draft =>
        rw [findFrom_untyped]
        intro alternative hm o ho
        rw [isNamable] at h
        exact absurd (Ty.isNamable_of_alternative hm ho.isNamable) (by simpa using h)

end

end Object

end TypedTemplate
