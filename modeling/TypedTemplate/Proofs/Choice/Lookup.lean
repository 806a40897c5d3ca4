import TypedTemplate.Proofs.Choice.Commit
import TypedTemplate.Proofs.Object.FindResolved
import TypedTemplate.Proofs.Object.Hides
import TypedTemplate.Proofs.Object.Promised

/-!
# Lookup in a choice and in its value

A reference is looked up in a choice by trying its alternatives anew, and the first that takes the draft and has the
reference counts. This need not be the alternative that the choice settles for when its value is taken out: everything
that is found in the value is found in the choice, but in the choice other alternatives may be found as well.
-/

namespace TypedTemplate

namespace Object

variable {d : Declarations}

/-! ## How a lookup fails -/

/-- A search passes over the error, or the budget has run out. -/
def IsFailedLookup (e : Error) : Prop := e.isLookup = true ∨ e.kind = .exhausted

/-- Nothing but the budget keeps a lookup from being passed over where it fails. -/
theorem findFrom_error {n : Nat} {path : List Component} (hpath : path ≠ []) {o : Object} {e : Error}
    (h : findFrom d (snapshotWithin d n) path o = .error e) : IsFailedLookup e :=
  (error_of_findFrom hpath h).imp_right fun ⟨_, _, he⟩ => (snapshotBy_error he).2

/-- A lookup that is not passed over succeeds, or runs out of the budget. -/
theorem find_of_not_missing {r : Ref} (hr : r.components ≠ []) {o : Object} (h : ¬ Missing (o.find d r)) :
    (∃ found, o.find d r = .ok found) ∨ Exhausted (o.find d r) := by
  cases hfind : o.find d r with
  | ok found => exact .inl ⟨found, rfl⟩
  | error e =>
      rcases findFrom_error (n := budget) hr hfind with he | he
      · rw [hfind] at h
        exact absurd (missing_error.mpr he) h
      · exact .inr ⟨e, rfl, he⟩

/-! ## What a choice may be -/

/-- The first object may turn out to be the second one, which is no choice: a choice may be what it has settled for,
or else what any of its alternatives makes of its draft. -/
inductive MayBe (d : Declarations) : Object → Object → Prop
  | self {o} : o.payload.isChoice = false → MayBe d o o
  | settled {c inner o} : c.payload = .typed inner → MayBe d (inner.inScopeAll c.scopes) o → MayBe d c o
  | offered {c draft t candidate o} : c.payload = .untyped draft → t ∈ c.ty.alternatives →
      t.constructDraft d draft = .ok candidate → MayBe d (candidate.inScopeAll c.scopes) o → MayBe d c o

/-- What a choice may be is interpolated along with it. -/
theorem MayBe.keysClosed {c o : Object} (ho : c.MayBe d o) (h : c.KeysClosed d) : o.KeysClosed d := by
  induction ho with
  | self _ => exact h
  | @settled c inner o hc _ ih =>
      obtain ⟨t, payload, own, provided⟩ := c
      cases hc
      exact ih (h.part (List.mem_singleton.mpr rfl))
  | offered hc ht hcandidate _ ih => exact ih (h.candidate hc ht hcandidate)

/-- What a type offers for a draft, a choice that holds the draft may be. -/
theorem mayBe_of_offers {draft : Draft} {t : Ty} {o : Object} (ho : t.Offers d draft o) {c : Object}
    (hc : c.payload = .untyped draft) (ht : t ∈ c.ty.alternatives) : c.MayBe d (o.inScopeAll c.scopes) := by
  induction ho generalizing c with
  | taken hnamable halternatives h =>
      exact .offered hc ht h (.self (Ty.Offers.taken hnamable halternatives h).isChoice)
  | @alternative name alternatives t o hm _ ih =>
      have hcandidate : (Ty.choice name alternatives).constructDraft d draft =
          .ok (.ofPayload (.choice name alternatives) (.untyped draft)) := by cases draft <;> rfl
      exact .offered hc ht hcandidate (ih (c := (ofPayload _ (.untyped draft)).inScopeAll c.scopes) rfl hm)

theorem core_inScopeAll (o : Object) (scopes : List Scope) : (o.inScopeAll scopes).core [] = o.core scopes := by
  obtain ⟨t, payload, own, provided⟩ := o
  cases payload <;> simp only [inScopeAll, core, List.append_nil]

section

variable {snapshot : Object → Except Error Value} {path : List Component} {c o found : Object}

theorem findFrom_inner {t : Ty} {inner : Object} {own provided : List Scope} :
    findFrom d snapshot path ⟨t, .typed inner, own, provided⟩ = findFrom d snapshot path (inner.inScopeAll own) := by
  rw [findFrom_eq, findFrom_eq, enter, enter, core_inScopeAll, core, List.append_nil]

/-- What is found in a choice is found in something that the choice may be. -/
theorem exists_mayBe_of_findFrom (h : findFrom d snapshot path c = .ok found) :
    ∃ o, c.MayBe d o ∧ ∃ found', findFrom d snapshot path o = .ok found' := by
  have hscopes : ∀ scopes found, findFrom d snapshot path (c.inScopeAll scopes) = .ok found →
      ∃ o, (c.inScopeAll scopes).MayBe d o ∧ ∃ found', findFrom d snapshot path o = .ok found' := by
    clear h
    induction c using parts_induction with
    | _ c ih =>
      intro scopes found h
      obtain ⟨t, payload, own, provided⟩ := c
      cases payload with
      | typed inner =>
          rw [inScopeAll, findFrom_inner] at h
          obtain ⟨o, ho, hfound⟩ := ih inner (List.mem_singleton.mpr rfl) _ found h
          exact ⟨o, .settled rfl ho, hfound⟩
      | untyped draft =>
          rw [inScopeAll, findFrom_eq, enter] at h
          obtain ⟨alternative, hm, o, ho, hfollow⟩ := tryAlternatives_ok _ h
          simp only [core, List.append_nil] at hm hfollow
          refine ⟨_, mayBe_of_offers ho rfl hm, found, ?_⟩
          rw [findFrom_of_isChoice (o := o.inScopeAll _) ho.isChoice]
          exact hfollow
      | scalar | template | list | map | struct => exact ⟨_, .self rfl, found, h⟩
  have hnil := hscopes [] found
  rw [inScopeAll_nil] at hnil
  exact hnil h

/-- What cannot be found in a choice cannot be found in anything that the choice may be. -/
theorem MayBe.missing (ho : c.MayBe d o) (hpath : path ≠ []) (h : Missing (findFrom d snapshot path c)) :
    Missing (findFrom d snapshot path o) := by
  induction ho with
  | self _ => exact h
  | @settled c inner o hc _ ih =>
      obtain ⟨t, payload, own, provided⟩ := c
      cases hc
      rw [findFrom_inner] at h
      exact ih h
  | @offered c draft alternative candidate o hc hm hcandidate _ ih =>
      obtain ⟨t, payload, own, provided⟩ := c
      cases hc
      apply ih
      rw [missing_inScopeAll]
      by_cases hnamable : alternative.isNamable = true
      · exact missing_of_offers ((findFrom_untyped path).mp h alternative hm) hnamable hcandidate
      · refine missing_of_not_namable ?_ hpath
        rw [Ty.isNamable_of_constructDraft hcandidate]
        simpa using hnamable

theorem findFrom_core_nil (o : Object) : findFrom d snapshot path (o.core []) = findFrom d snapshot path o := by
  rw [findFrom_eq, findFrom_eq, enter, enter, core_core]

end

/-! ## The value of a choice -/

/-- The object comes to what a value is, if the value is taken out of nested choices. -/
def Yields (d : Declarations) (o u : Object) : Prop := ∃ refs, o.interpolate d = .ok (u.core [], refs)

theorem core_typed (t : Ty) (inner : Object) : (ofPayload t (.typed inner)).core [] = inner.core [] := by
  simp only [ofPayload, core, List.append_nil]

/-- What comes of an object that is no choice is none either. -/
theorem interpolateIn_core {eval : Nat → Object → Interpolated} {depth : Nat} {outer : List Scope} {o r : Object}
    {refs : List Ref} (ho : o.payload.isChoice = false) (h : interpolateIn d eval depth outer o = .ok (r, refs)) :
    r.core [] = r := by
  obtain ⟨t, payload, own, provided⟩ := o
  cases payload with
  | scalar s =>
      obtain rfl := interpolateIn_scalar h
      simp only [ofPayload, core, List.append_nil]
  | template text =>
      rcases interpolateIn_template h with ⟨_, _, -, rfl⟩ | ⟨_, rfl, -⟩ <;>
        simp only [ofPayload, core, List.append_nil]
  | list elements =>
      obtain ⟨_, rfl, -⟩ := interpolateIn_list h
      simp only [ofPayload, core, List.append_nil]
  | map pairs =>
      obtain ⟨_, rfl, -⟩ := interpolateIn_map h
      simp only [ofPayload, core, List.append_nil]
  | struct fields =>
      obtain ⟨_, rfl, -⟩ := interpolateIn_struct h
      simp only [ofPayload, core, List.append_nil]
  | typed | untyped => cases ho

/-- What a choice comes to is what something comes to that it may be, or an open text. -/
theorem exists_yields {n : Nat} (hn : n < budget) {c r : Object} {outer : List Scope} {refs : List Ref}
    (h : interpolateIn d (interpolateWithin d n) 0 outer c = .ok (r, refs)) :
    (∃ o, (c.inScopeAll outer).MayBe d o ∧ o.Yields d r) ∨
      ∃ t text, r.core [] = .ofPayload t (.untyped (.scalar (.string text))) := by
  induction n using Nat.strong_induction_on generalizing c r outer refs with
  | _ n ihn =>
    induction c using parts_induction generalizing outer r refs with
    | _ c ih =>
      have hself : c.payload.isChoice = false → ∃ o, (c.inScopeAll outer).MayBe d o ∧ o.Yields d r := by
        intro hc
        have hrun : interpolateWithin d (n + 1) 0 (c.inScopeAll outer) = .ok (r, refs) := by
          rw [interpolateWithin, interpolateIn_inScopeAll, List.append_nil, h]
        refine ⟨_, .self hc, refs, ?_⟩
        rw [interpolateIn_core hc h]
        exact (hrun ▸ interpolateWithin_approximates d hn 0 (c.inScopeAll outer)).eq_of_ok
      obtain ⟨t, payload, own, provided⟩ := c
      cases payload with
      | typed inner =>
          obtain ⟨other, rfl, left, hother, -⟩ := interpolateIn_typed h
          simp only [Yields, core_typed]
          rcases ih inner (List.mem_singleton.mpr rfl) hother with ⟨o, ho, hyields⟩ | hopen
          · exact .inl ⟨o, .settled rfl ho, hyields⟩
          · exact .inr hopen
      | untyped draft =>
          obtain ⟨left, h, -⟩ := interpolateIn_ok h
          obtain ⟨alternative, hm, candidate, inner, hcandidate, hinner, rfl | ⟨text, -, -, rfl⟩⟩ := settleChoice_ok h
          · cases n with
            | zero => cases hinner
            | succ m =>
                have hsettled := ihn m (Nat.lt_succ_self m) (Nat.lt_of_succ_lt hn) hinner
                rw [inScopeAll_nil] at hsettled
                simp only [Yields, core_typed]
                rcases hsettled with ⟨o, ho, hyields⟩ | hopen
                · exact .inl ⟨o, .offered rfl hm hcandidate ho, hyields⟩
                · exact .inr hopen
          · exact .inr ⟨t, text, rfl⟩
      | scalar | template | list | map | struct => exact .inl (hself rfl)

theorem unwrap_ok {c u : Object} (hchoice : c.payload.isChoice = true) (h : c.unwrap d = .ok u) :
    ∃ resolved refs, c.interpolate d = .ok (resolved, refs) ∧ (resolved = .ofPayload c.ty (.typed u) ∨
      ∃ text t, resolved = .ofPayload c.ty (.untyped (.scalar (.string text))) ∧
        Ty.constructDraft d t (.scalar (.string text)) = .ok u) := by
  cases hresult : c.interpolate d with
  | error e =>
      rw [unwrap_of_error hchoice hresult] at h
      cases h
  | ok result =>
      obtain ⟨resolved, refs⟩ := result
      refine ⟨resolved, refs, rfl, ?_⟩
      have htyped : ∀ inner, resolved = .ofPayload c.ty (.typed inner) → resolved = .ofPayload c.ty (.typed u) := by
        rintro inner rfl
        rw [unwrap_of_typed hchoice hresult] at h
        cases h
        rfl
      have hrun := hresult
      rw [interpolate_eq] at hrun
      obtain ⟨t, payload, own, provided⟩ := c
      cases payload with
      | typed inner =>
          obtain ⟨other, hother, -⟩ := interpolateIn_typed hrun
          exact .inl (htyped other hother)
      | untyped draft =>
          obtain ⟨left, hrun, -⟩ := interpolateIn_ok hrun
          obtain ⟨_, -, _, inner, -, -, hinner | ⟨text, -, -, rfl⟩⟩ := settleChoice_ok hrun
          · exact .inl (htyped inner hinner)
          · have hfirst := firstAlternative_of_unwrap hchoice hresult h
            obtain ⟨alternative, hu⟩ := constructDraft_of_firstAlternative hfirst
            exact .inr ⟨text, alternative, rfl, hu⟩
      | scalar | template | list | map | struct => cases hchoice

/-- The value of a choice in which something can be found is what something comes to that the choice may be; and if the
keys of maps are the same in all scopes, the choice has what the value has. -/
theorem value_of_unwrap {c u : Object} (hchoice : c.payload.isChoice = true) (hu : c.unwrap d = .ok u) {r : Ref}
    (hr : r.components ≠ []) (h : ¬ Missing (u.find d r)) :
    (∃ o, c.MayBe d o ∧ o.Yields d u) ∧ (c.KeysClosed d → ¬ Missing (c.find d r)) := by
  obtain ⟨resolved, refs, hresolved, rfl | ⟨text, t, rfl, ht⟩⟩ := unwrap_ok hchoice hu
  · rw [interpolate_eq] at hresolved
    refine ⟨?_, fun hkeys hmissing => h ?_⟩
    · have hyields := exists_yields (by decide) hresolved
      simp only [inScopeAll_nil, Yields, core_typed] at hyields
      refine hyields.resolve_right ?_
      rintro ⟨t, text, hcore⟩
      -- An open text is held by a choice none of whose alternatives has anything to look up in a text.
      refine h ?_
      rw [find, findBy, ← findFrom_core_nil, hcore]
      exact (findFrom_untyped _).mpr fun _ _ o ho => absurd ho (Ty.not_offers_scalar _)
    · have hhides := interpolateIn_hides (by decide) (by rwa [inScopeAll_nil]) hresolved
      exact (findFrom_typed _).mp (hhides.missing (Nat.le_refl budget) (Nat.le_refl budget) _ hr hmissing)
  · refine absurd ?_ h
    by_cases hnamable : t.isNamable = true
    · exact missing_of_offers (fun o ho => absurd ho (Ty.not_offers_scalar t)) hnamable ht
    · refine missing_of_not_namable ?_ hr
      rw [Ty.isNamable_of_constructDraft ht]
      simpa using hnamable

/-- What is found in an object whose places stay where they are is found in what the object comes to. -/
theorem Yields.find {o u : Object} (hyields : o.Yields d u) (hfixed : o.Fixed d) {r : Ref}
    (h : ∃ found, o.find d r = .ok found) : ∃ found, u.find d r = .ok found := by
  obtain ⟨refs, hrun⟩ := hyields
  obtain ⟨found, ho⟩ := h
  have hofound : findFrom d (snapshotBy (interpolate d)) r.components o = .ok found := ho
  have halongside := findFrom_alongside r.components hfixed ⟨_, refs, [], hrun, (inScopeAll_nil _).symm⟩
  rw [findFrom_core_nil, hofound] at halongside
  rw [Object.find, findBy]
  generalize findFrom d (snapshotBy (interpolate d)) r.components u = x at halongside ⊢
  cases halongside with
  | ok _ => exact ⟨_, rfl⟩

/-- What is found in a choice is found in something that the choice may be, and all that is found there is found in the
choice. The value of the choice is one of these objects, after interpolation; and where that object holds no choices and
only closed keys, what is found in it is found in the value. -/
theorem find_unwrap {c u : Object} (hchoice : c.payload.isChoice = true) (hu : c.unwrap d = .ok u) {r : Ref}
    (hr : r.components ≠ []) :
    ((∃ found, c.find d r = .ok found) → ∃ o, c.MayBe d o ∧ ∃ found, o.find d r = .ok found) ∧
    (∀ o, c.MayBe d o → (∃ found, o.find d r = .ok found) →
      ((∃ found, c.find d r = .ok found) ∨ Exhausted (c.find d r)) ∧
      (o.Yields d u → o.Choiceless → o.KeysClosed d → ∃ found, u.find d r = .ok found)) ∧
    ((∃ found, u.find d r = .ok found) → (∃ o, c.MayBe d o ∧ o.Yields d u) ∧
      (c.KeysClosed d → (∃ found, c.find d r = .ok found) ∨ Exhausted (c.find d r))) := by
  have hfound : ∀ o : Object, (∃ found, o.find d r = .ok found) → ¬ Missing (o.find d r) := by
    rintro o ⟨found, hfound⟩
    rw [hfound]
    exact not_missing_ok found
  refine ⟨fun ⟨found, hc⟩ => exists_mayBe_of_findFrom hc, fun o ho h => ⟨?_, fun hyields hnone hkeys => ?_⟩, fun h => ?_⟩
  · exact find_of_not_missing hr fun hmissing => hfound o h (ho.missing hr hmissing)
  · exact hyields.find (.of_closed hnone hkeys) h
  · obtain ⟨hmayBe, hchoice⟩ := value_of_unwrap hchoice hu hr (hfound u h)
    exact ⟨hmayBe, fun hkeys => find_of_not_missing hr (hchoice hkeys)⟩

/-! ## A person and a glossary -/

/-- A person with a name. -/
def people : Declarations where
  next := 1
  finished := [(0, [("name", ⟨.string, true, none⟩)])]

/-- A name of which a person can be made, and also a table. -/
def person : Object :=
  ⟨.choice "Person" [.struct 0 "Person", .map .string .string],
    .untyped (.pairs [(.draft (.scalar (.string "name")), .draft (.scalar (.string "\x7b\x7bx\x7d\x7d")))]),
    [.environment ⟨[(.ofName "x", .text "Al")]⟩], []⟩

def personNamed (name : Payload) : Object :=
  .ofPayload (.struct 0 "Person") (.struct [("name", some (.ofPayload .string name))])

def personTable : Object := .ofPayload (.map .string .string)
  (.map [(.ofPayload .string (.scalar (.string "name")), .ofPayload .string (.template "\x7b\x7bx\x7d\x7d"))])

theorem construct_personNamed : (Ty.struct 0 "Person").construct people
    (Value.mapping [("name", .string "\x7b\x7bx\x7d\x7d")]).toInput =
      .ok (personNamed (.template "\x7b\x7bx\x7d\x7d")) := by cbv

theorem construct_personTable : (Ty.map .string .string).construct people
    (Value.mapping [("name", .string "\x7b\x7bx\x7d\x7d")]).toInput = .ok personTable := by cbv

theorem person_candidate {t : Ty} {draft : Draft} {o : Object} (hdraft : person.payload = .untyped draft)
    (ht : t ∈ person.ty.alternatives) (ho : t.constructDraft people draft = .ok o) :
    o = personNamed (.template "\x7b\x7bx\x7d\x7d") ∨ o = personTable := by
  cases hdraft
  rcases List.mem_cons.mp ht with rfl | ht
  · cases construct_personNamed.symm.trans ho
    exact .inl rfl
  · cases List.mem_singleton.mp ht
    cases construct_personTable.symm.trans ho
    exact .inr rfl

theorem person_keysClosed : person.KeysClosed people := by
  have htext : ∀ payload scopes, (payload = .scalar (.string "name") ∨ payload = .template "\x7b\x7bx\x7d\x7d") →
      ((ofPayload .string payload).inScopeAll scopes).KeysClosed people := by
    rintro _ scopes (rfl | rfl) <;> exact .of_parts (by rintro _ ⟨⟩) (by rintro _ ⟨⟩) (by rintro _ ⟨⟩)
  refine .of_parts (by rintro _ ⟨⟩) (by rintro _ ⟨⟩) fun draft hdraft t ht o ho => ?_
  rcases person_candidate hdraft ht ho with rfl | rfl
  · refine .of_parts (by rintro _ ⟨⟩) (fun p hp => ?_) (by rintro _ ⟨⟩)
    cases List.mem_singleton.mp hp
    exact htext _ _ (.inr rfl)
  · refine .of_parts ?_ (fun p hp => ?_) (by rintro _ ⟨⟩)
    · rintro _ ⟨⟩ k v hm
      cases List.mem_singleton.mp hm
      exact ⟨.ofPayload .string (.scalar (.string "name")), fun _ => rfl⟩
    · obtain ⟨k, v, hm, hp⟩ := Payload.mem_parts_map.mp hp
      cases List.mem_singleton.mp hm
      rcases hp with rfl | rfl
      · exact htext _ _ (.inl rfl)
      · exact htext _ _ (.inr rfl)

theorem personNamed_choiceless : (personNamed (.template "\x7b\x7bx\x7d\x7d")).Choiceless := by
  refine choiceless_iff.mpr ⟨rfl, fun p hp => ?_⟩
  cases List.mem_singleton.mp hp
  exact choiceless_iff.mpr ⟨rfl, by rintro _ ⟨⟩⟩

/-- The name of a person is found in the choice, in the person that it may be, and in the person that it settles for. -/
theorem find_unwrap_person : ∃ u o, person.unwrap people = .ok u ∧ person.MayBe people o ∧ o.Yields people u ∧
    (∃ found, o.find people (.ofName "name") = .ok found) ∧
    (∃ found, person.find people (.ofName "name") = .ok found) ∧
    ∃ found, u.find people (.ofName "name") = .ok found := by
  have hu : person.unwrap people = .ok (personNamed (.scalar (.string "Al"))) := by cbv
  let o : Object := (personNamed (.template "\x7b\x7bx\x7d\x7d")).inScopeAll person.scopes
  have hmayBe : person.MayBe people o := .offered rfl (.head _) construct_personNamed (.self rfl)
  have hyields : o.Yields people (personNamed (.scalar (.string "Al"))) := ⟨[], by cbv⟩
  have hofound : ∃ found, o.find people (.ofName "name") = .ok found := ⟨_, by cbv⟩
  obtain ⟨-, hback, hvalue⟩ := find_unwrap rfl hu (r := .ofName "name") (by decide)
  have hufound := (hback o hmayBe hofound).2 hyields (personNamed_choiceless.inScopeAll _)
    (hmayBe.keysClosed person_keysClosed)
  refine ⟨_, o, hu, hmayBe, hyields, hofound, ?_, hufound⟩
  rcases (hvalue hufound).2 person_keysClosed with h | ⟨e, he, -⟩
  · exact h
  · have hperson : ∃ found, person.find people (.ofName "name") = .ok found := ⟨_, by cbv⟩
    obtain ⟨found, hfound⟩ := hperson
    cases hfound.symm.trans he

/-- A glossary whose one word is still to be filled in. -/
def glossary : Object :=
  ⟨.choice "Glossary" [.map .string .string],
    .untyped (.pairs [(.draft (.scalar (.string "\x7b\x7bx\x7d\x7d")), .draft (.scalar (.string "meaning")))]),
    [.environment ⟨[(.ofName "x", .text "word")]⟩], []⟩

/-- A table is found in a choice that settles for a person, by a reference that leads nowhere in the person; and a word
is found in the glossary only when the glossary is taken out of its choice, as the key is not closed before. -/
theorem find_unwrap_apart :
    (∃ u, person.unwrap people = .ok u ∧ (∃ found, person.find people ⟨[.index "name"]⟩ = .ok found) ∧
      ∃ e, u.find people ⟨[.index "name"]⟩ = .error e) ∧
    ∃ u, glossary.unwrap {} = .ok u ∧ (∃ found, u.find {} ⟨[.index "word"]⟩ = .ok found) ∧
      ∃ e, glossary.find {} ⟨[.index "word"]⟩ = .error e :=
  ⟨⟨personNamed (.scalar (.string "Al")), by cbv, ⟨_, by cbv⟩, _, by cbv⟩,
    ⟨.ofPayload (.map .string .string) (.map [(.ofPayload .string (.scalar (.string "word")),
      .ofPayload .string (.scalar (.string "meaning")))]), by cbv, ⟨_, by cbv⟩, _, by cbv⟩⟩

end Object

end TypedTemplate
