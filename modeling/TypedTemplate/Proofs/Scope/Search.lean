import TypedTemplate.Proofs.Object.Compares
import TypedTemplate.Proofs.Scope.Unknown
import TypedTemplate.Proofs.Template.Met

/-!
# Searches

A lookup succeeds, or it fails in a way that every search passes over, or it never ends. So a search among the
alternatives of a choice, in an environment or along a chain of scopes that ends at all ends with its first success, and
a scope that has none of the references that a text meets makes no difference to it. A lookup that never ends compares a
key whose evaluation never ends: the default values of a struct may lead back to themselves through a choice.
-/

namespace TypedTemplate

variable {d : Declarations}

/-- The computation succeeds, or fails in a way that a search passes over. -/
def Settles {α : Type} (x : Except Error α) : Prop := (∃ a, x = .ok a) ∨ Missing x

/-- The first success among the attempts, or else the given failure. -/
def firstSuccess {α : Type} (missing : Error) (attempts : List (Except Error α)) : Except Error α :=
  match attempts.findSome? Except.toOption with
  | some a => .ok a
  | none => .error missing

/-- The first outcome, or the second one where the first is a failure that a search passes over. -/
def passOver {α : Type} (x rest : Except Error α) : Except Error α :=
  match x with
  | .ok a => .ok a
  | .error e => if e.isLookup then rest else .error e

section

variable {α : Type} {missing : Error} {x y rest : Except Error α} {attempts : List (Except Error α)}

theorem settles_error {e : Error} : Settles (.error e : Except Error α) ↔ e.isLookup = true := by
  simp [Settles, missing_error]

theorem Settles.not_exhausted (h : Settles x) : ¬ Exhausted x := by
  rintro ⟨e, rfl, he⟩
  have hlookup := settles_error.mp h
  rw [Error.isLookup, he] at hlookup
  cases hlookup

theorem firstSuccess_cons_ok {a : α} (h : x.toOption = some a) : firstSuccess missing (x :: attempts) = .ok a := by
  rw [firstSuccess, List.findSome?_cons_of_isSome (by simp [h]), h]

theorem firstSuccess_cons_error (h : x.toOption = none) :
    firstSuccess missing (x :: attempts) = firstSuccess missing attempts := by
  rw [firstSuccess, List.findSome?_cons_of_isNone (by simp [h])]
  rfl

/-- A search that is not cut short at its first attempt ends with the first success. -/
theorem passOver_eq (hy : y.toOption = x.toOption) (h : Settles (passOver x rest))
    (hrest : Settles rest → rest = firstSuccess missing attempts) :
    passOver x rest = firstSuccess missing (y :: attempts) := by
  cases x with
  | ok a => exact (firstSuccess_cons_ok hy).symm
  | error e =>
      rw [firstSuccess_cons_error hy]
      simp only [passOver] at h ⊢
      split at h
      · rename_i hlookup
        rw [if_pos hlookup]
        exact hrest h
      · rename_i hlookup
        exact absurd (settles_error.mp h) hlookup

end

/-! ## Choices -/

namespace Object

section

variable {go : Object → Except Error Object} {draft : Draft} {missing missing' : Error}

theorem tryAlternatives_cons {t : Ty} (ht : t.isNamable = true) (rest : List Ty) :
    tryAlternatives d go missing draft (t :: rest) =
      passOver (tryAlternative d go missing draft t) (tryAlternatives d go missing draft rest) := by
  rw [tryAlternatives, if_pos ht]
  cases tryAlternative d go missing draft t <;> rfl

mutual

/-- The failure for when nothing is found only matters if nothing is. -/
theorem tryAlternatives_congr (hm : missing.isLookup = true) (hm' : missing'.isLookup = true) : (ts : List Ty) →
    tryAlternatives d go missing draft ts = tryAlternatives d go missing' draft ts ∨
      Missing (tryAlternatives d go missing draft ts) ∧ Missing (tryAlternatives d go missing' draft ts)
  | [] => .inr ⟨missing_error.mpr hm, missing_error.mpr hm'⟩
  | t :: rest => by
      have hrest := tryAlternatives_congr hm hm' rest
      rw [tryAlternatives, tryAlternatives]
      split
      · rcases tryAlternative_congr hm hm' t with hsame | ⟨⟨e, he, hlookup⟩, ⟨e', he', hlookup'⟩⟩
        · rw [hsame]
          cases tryAlternative d go missing' draft t with
          | ok found => exact .inl rfl
          | error e =>
              dsimp only
              split
              · exact hrest
              · exact .inl rfl
        · rw [he, he']
          simpa only [hlookup, hlookup', ↓reduceIte] using hrest
      · exact hrest

theorem tryAlternative_congr (hm : missing.isLookup = true) (hm' : missing'.isLookup = true) : (t : Ty) →
    tryAlternative d go missing draft t = tryAlternative d go missing' draft t ∨
      Missing (tryAlternative d go missing draft t) ∧ Missing (tryAlternative d go missing' draft t)
  | .choice name alternatives => by
      rw [tryAlternative, tryAlternative]
      exact tryAlternatives_congr hm hm' alternatives
  | .list _ | .map _ _ | .struct _ _ | .string | .integer | .float | .boolean | .enum _ _ => by
      simp only [tryAlternative]
      split
      · exact .inl rfl
      · exact .inr ⟨missing_error.mpr hm, missing_error.mpr hm'⟩

end

end

section

variable {snapshot : Object → Except Error Value} {path : List Component} {draft : Draft} {missing : Error}

/-- Looking along the path in what the type makes of the draft, which sees the scopes. -/
def lookInto (d : Declarations) (snapshot : Object → Except Error Value) (path : List Component) (draft : Draft)
    (scopes : List Scope) (t : Ty) : Except Error Object :=
  (t.constructDraft d draft).bind fun candidate => findFrom d snapshot path (candidate.inScopeAll scopes)

theorem findFrom_draft {o : Object} (h : o.payload = .untyped draft) : findFrom d snapshot path o =
    tryAlternatives d (fun candidate => follow d snapshot path (candidate.inScopeAll o.scopes))
      (Error.notFound (Ref.address ⟨path⟩) o.typeName) draft o.ty.alternatives := by
  obtain ⟨t, payload, own, provided⟩ := o
  cases h
  rw [findFrom_eq, enter]
  simp only [core, List.append_nil]

theorem lookInto_of_not_namable (hpath : path ≠ []) {t : Ty} (ht : ¬ t.isNamable = true) (scopes : List Scope) :
    (lookInto d snapshot path draft scopes t).toOption = none := by
  rw [lookInto]
  cases hcandidate : t.constructDraft d draft with
  | error e => rfl
  | ok candidate =>
      have hnot : (candidate.inScopeAll scopes).isNamable = false := by
        simpa [isNamable_inScopeAll, Ty.isNamable_of_constructDraft hcandidate] using ht
      have hmissing : Missing (findFrom d snapshot path (candidate.inScopeAll scopes)) :=
        missing_of_not_namable hnot hpath
      obtain ⟨e, he, -⟩ := hmissing
      rw [Except.bind, he]
      rfl

/-- Trying an alternative finds what is found in what it makes of the draft. -/
theorem lookInto_toOption (hm : missing.isLookup = true) (scopes : List Scope) {t : Ty} (ht : t.isNamable = true) :
    (lookInto d snapshot path draft scopes t).toOption = (tryAlternative d
      (fun candidate => follow d snapshot path (candidate.inScopeAll scopes)) missing draft t).toOption := by
  cases t with
  | choice name alternatives =>
      have hcandidate : (Ty.choice name alternatives).constructDraft d draft =
          .ok (.ofPayload (.choice name alternatives) (.untyped draft)) := by cases draft <;> rfl
      let go : Object → Except Error Object := fun candidate => follow d snapshot path (candidate.inScopeAll scopes)
      have hcongr : tryAlternatives d go (Error.notFound (Ref.address ⟨path⟩) name) draft alternatives =
          tryAlternatives d go missing draft alternatives ∨ _ := tryAlternatives_congr rfl hm alternatives
      rw [lookInto, hcandidate, tryAlternative, Except.bind, findFrom_draft rfl]
      rcases hcongr with hsame | ⟨⟨e, he, -⟩, ⟨e', he', -⟩⟩
      · exact congrArg Except.toOption hsame
      · exact (congrArg Except.toOption he).trans (congrArg Except.toOption he').symm
  | list | map | struct =>
      simp only [lookInto, tryAlternative]
      split
      · rename_i candidate hcandidate
        have hoffers : Ty.Offers d draft _ candidate := .taken ht rfl hcandidate
        rw [hcandidate, Except.bind, findFrom_of_isChoice (o := candidate.inScopeAll scopes) hoffers.isChoice]
      · rename_i e he
        rw [he]
        rfl
  | _ => cases ht

/-- Where no alternative cuts the search short, it ends with the first in which something is found. -/
theorem tryAlternatives_eq (hpath : path ≠ []) (hm : missing.isLookup = true) (scopes : List Scope) {ts : List Ty}
    (h : Settles (tryAlternatives d (fun candidate => follow d snapshot path (candidate.inScopeAll scopes)) missing
      draft ts)) :
    tryAlternatives d (fun candidate => follow d snapshot path (candidate.inScopeAll scopes)) missing draft ts =
      firstSuccess missing (ts.map (lookInto d snapshot path draft scopes)) := by
  induction ts with
  | nil => rfl
  | cons t rest ih =>
      rw [List.map_cons]
      by_cases ht : t.isNamable = true
      · rw [tryAlternatives_cons ht] at h ⊢
        exact passOver_eq (lookInto_toOption hm scopes ht) h ih
      · rw [tryAlternatives, if_neg ht] at h ⊢
        rw [firstSuccess_cons_error (lookInto_of_not_namable hpath ht scopes)]
        exact ih h

end

end Object

/-! ## Environments -/

theorem Environment.findAmong_eq {snapshot : Object → Except Error Value} {missing : Error}
    {candidates : List (Object × Ref)} (h : Settles (findAmong d snapshot missing candidates)) :
    findAmong d snapshot missing candidates = firstSuccess missing
      (candidates.map fun (o, rest) => (o.findBy d snapshot rest).map .object) := by
  induction candidates with
  | nil => rfl
  | cons candidate others ih =>
      obtain ⟨o, rest⟩ := candidate
      have hcons : findAmong d snapshot missing ((o, rest) :: others) =
          passOver ((o.findBy d snapshot rest).map .object) (findAmong d snapshot missing others) := by
        rw [findAmong]
        cases o.findBy d snapshot rest <;> rfl
      rw [hcons] at h ⊢
      exact passOver_eq rfl h ih

theorem Environment.error_of_findAmong {snapshot : Object → Except Error Value} {missing e : Error}
    {candidates : List (Object × Ref)} (h : findAmong d snapshot missing candidates = .error e) :
    e = missing ∨ ∃ o rest, (o, rest) ∈ candidates ∧ o.findBy d snapshot rest = .error e := by
  induction candidates with
  | nil =>
      cases h
      exact .inl rfl
  | cons candidate others ih =>
      obtain ⟨o, rest⟩ := candidate
      rw [findAmong] at h
      split at h
      · cases h
      · rename_i e' he'
        split at h
        · rcases ih h with rfl | ⟨o', rest', hm, he⟩
          · exact .inl rfl
          · exact .inr ⟨o', rest', List.mem_cons_of_mem _ hm, he⟩
        · cases h
          exact .inr ⟨o, rest, by simp, he'⟩

theorem Environment.findBy_of_candidate_error {snapshot : Object → Except Error Value} {env : Environment}
    {r rest : Ref} {o : Object} {others : List (Object × Ref)} {e : Error} (hget : env.get? r = none)
    (hcandidates : env.candidates r = (o, rest) :: others) (h : o.findBy d snapshot rest = .error e)
    (he : e.isLookup = false) : env.findBy d snapshot r = .error e := by
  rw [findBy, hget, hcandidates]
  simp only [findAmong, h, he]
  rfl

/-! ## Scopes -/

/-- Looking the reference up in the scope compares the object. -/
def Scope.Compares (d : Declarations) (snapshot : Object → Except Error Value) (s : Scope) (r : Ref) (k : Object) :
    Prop :=
  match s with
  | environment e => ∃ o rest, (o, rest) ∈ e.candidates r ∧ o.Compares d snapshot rest.components k
  | object o => o.Compares d snapshot r.components k

/-- A lookup in a scope fails in a way that a search passes over, or because of what it compares. -/
theorem Scope.error_of_findBy {snapshot : Object → Except Error Value} {s : Scope} {r : Ref} (hr : r.components ≠ [])
    {e : Error} (h : s.findBy d snapshot r = .error e) :
    e.isLookup = true ∨ ∃ k, s.Compares d snapshot r k ∧ snapshot k = .error e := by
  cases s with
  | object o =>
      cases hfind : o.findBy d snapshot r with
      | ok found => simp [findBy, hfind, Except.map] at h
      | error e' =>
          simp only [findBy, hfind, Except.map, Except.error.injEq] at h
          exact Object.error_of_findFrom hr (h ▸ hfind)
  | environment env =>
      simp only [findBy, Environment.findBy] at h
      split at h
      · cases h
      · rcases Environment.error_of_findAmong h with rfl | ⟨o, rest, hm, he⟩
        · exact .inl rfl
        · obtain ⟨key, -, hrest⟩ := Environment.mem_candidates.mp hm
          rcases Object.error_of_findFrom (Ref.subscope_ne_nil hrest) he with he | ⟨k, hk, he⟩
          · exact .inl he
          · exact .inr ⟨k, ⟨o, rest, hm, hk⟩, he⟩

/-- Looking the reference up in the scope compares a key that the evaluation does not get to the end of. -/
def Scope.Incomparable (d : Declarations) (eval : Object → Interpolated) (s : Scope) (r : Ref) : Prop :=
  ∃ k, s.Compares d (Object.snapshotBy eval) r k ∧ Exhausted (eval k)

section

variable {eval : Object → Interpolated} {r : Ref}

theorem Scope.settles (hr : r.components ≠ []) (s : Scope) :
    Settles (s.findBy d (Object.snapshotBy eval) r) ∨ s.Incomparable d eval r := by
  cases hfind : s.findBy d (Object.snapshotBy eval) r with
  | ok b => exact .inl (.inl ⟨b, rfl⟩)
  | error e =>
      refine (error_of_findBy hr hfind).imp settles_error.mpr fun ⟨k, hk, he⟩ => ?_
      exact ⟨k, hk, e, Object.snapshotBy_error he⟩

theorem Environment.settles (hr : r.components ≠ []) (e : Environment) :
    Settles (e.findBy d (Object.snapshotBy eval) r) ∨ (Scope.environment e).Incomparable d eval r :=
  Scope.settles hr (.environment e)

theorem settles_map {α β : Type} {f : α → β} {x : Except Error α} : Settles (x.map f) ↔ Settles x := by
  cases x with
  | ok a => exact iff_of_true (.inl ⟨f a, rfl⟩) (.inl ⟨a, rfl⟩)
  | error e => exact settles_error.trans settles_error.symm

theorem Object.settles (hr : r.components ≠ []) (o : Object) :
    Settles (o.findBy d (snapshotBy eval) r) ∨ (Scope.object o).Incomparable d eval r :=
  (Scope.settles hr (.object o)).imp_left settles_map.mp

theorem Scope.finite_compares (s : Scope) (r : Ref) : {k | ∃ snapshot, s.Compares d snapshot r k}.Finite := by
  cases s with
  | object o => exact Object.finite_compared r.components o
  | environment e =>
      have hcandidates : {candidate | candidate ∈ e.candidates r}.Finite := List.finite_toSet _
      have hcompared := hcandidates.biUnion fun candidate _ =>
        Object.finite_compared (d := d) candidate.2.components candidate.1
      refine hcompared.subset ?_
      rintro k ⟨snapshot, o, rest, hm, hk⟩
      exact Set.mem_biUnion hm ⟨snapshot, hk⟩

/-- The evaluation of the object never ends. -/
def Object.Endless (d : Declarations) (o : Object) : Prop := ∀ n, Exhausted (o.interpolateWithin d n 0)

/-- Finitely many objects whose evaluation ends can share a budget. -/
theorem Object.exists_budget {ks : Set Object} (hks : ks.Finite) (h : ∀ k ∈ ks, ¬ k.Endless d) :
    ∃ n, ∀ k ∈ ks, ¬ Exhausted (interpolateWithin d n 0 k) := by
  have heventually : ∀ k ∈ ks, ∀ᶠ n in Filter.atTop, ¬ Exhausted (interpolateWithin d n 0 k) := by
    intro k hk
    obtain ⟨n, hn⟩ := not_forall.mp (h k hk)
    refine Filter.eventually_atTop.mpr ⟨n, fun m hnm hm => hn ?_⟩
    rcases interpolateWithin_approximates d hnm 0 k with hexhausted | heq
    · exact hexhausted
    · exact heq ▸ hm
  exact ((Filter.eventually_all_finite hks).mpr heventually).exists

/-- Looking the reference up in the scope never ends: whatever the budget is, it is exhausted, because an object is
compared whose evaluation never ends. -/
def Scope.Endless (d : Declarations) (s : Scope) (r : Ref) : Prop :=
  (∀ n, Exhausted (s.findBy d (Object.snapshotWithin d n) r)) ∧
    ∃ k, (∃ n, s.Compares d (Object.snapshotWithin d n) r k) ∧ k.Endless d

theorem Scope.endless_of_not_settles (hr : r.components ≠ []) {s : Scope}
    (h : ∀ n, ¬ Settles (s.findBy d (Object.snapshotWithin d n) r)) : s.Endless d r := by
  constructor
  · intro n
    have hnot : ¬ Settles (s.findBy d (Object.snapshotWithin d n) r) := h n
    cases hfind : s.findBy d (Object.snapshotWithin d n) r with
    | ok b => exact absurd (.inl ⟨b, hfind⟩) hnot
    | error e =>
        rw [hfind, settles_error] at hnot
        obtain ⟨k, -, he⟩ := (error_of_findBy hr hfind).resolve_left hnot
        exact ⟨e, rfl, (Object.snapshotBy_error he).2⟩
  · by_contra hends
    have hfinite : {k | ∃ n, s.Compares d (Object.snapshotWithin d n) r k}.Finite :=
      (s.finite_compares r).subset fun k ⟨n, hk⟩ => ⟨_, hk⟩
    obtain ⟨n, hn⟩ := Object.exists_budget hfinite fun k hk hendless => hends ⟨k, hk, hendless⟩
    obtain ⟨k, hk, hexhausted⟩ := (settles hr s).resolve_left (h n)
    exact hn k ⟨n, hk⟩ hexhausted

theorem Scope.Endless.not_settles {s : Scope} (h : s.Endless d r) : ¬ Settles (s.find d r) :=
  fun hsettles => hsettles.not_exhausted (h.1 Object.budget)

/-- With a large enough budget, a lookup settles for good, unless it never ends. -/
theorem Scope.settles_or_endless (hr : r.components ≠ []) (s : Scope) :
    (∃ n x, Settles x ∧ ∀ m, n ≤ m → s.findBy d (Object.snapshotWithin d m) r = x) ∨ s.Endless d r := by
  by_cases hsettles : ∃ n, Settles (s.findBy d (Object.snapshotWithin d n) r)
  · obtain ⟨n, hn⟩ := hsettles
    refine .inl ⟨n, _, hn, fun m hnm => ?_⟩
    have happrox : Approximates (s.findBy d (Object.snapshotWithin d n) r) (s.findBy d (Object.snapshotWithin d m) r) :=
      findBy_approximates d (Object.snapshotWithin_approximates hnm) s r
    exact (happrox.resolve_left hn.not_exhausted).symm
  · exact .inr (endless_of_not_settles hr (not_exists.mp hsettles))

end

/-! ## Chains of scopes -/

section

variable {eval : Nat → Object → Interpolated} {depth : Nat} {scopes : List Scope} {r : Ref}

/-- What the first scope that has the reference has for it. -/
def firstFound (d : Declarations) (snapshot : Object → Except Error Value) (scopes : List Scope) (r : Ref) :
    Option Binding :=
  scopes.findSome? fun s => (s.findBy d snapshot r).toOption

theorem lookupBy_eq_firstFound (h : ∀ s ∈ scopes, Settles (s.findBy d (Object.snapshotBy (eval depth)) r)) :
    lookupBy d eval depth scopes r =
      match firstFound d (Object.snapshotBy (eval depth)) scopes r with
      | some b => (b.renderBy eval depth).map some
      | none => .ok none := by
  induction scopes with
  | nil => rfl
  | cons s rest ih =>
      obtain ⟨hs, hrest⟩ := List.forall_mem_cons.mp h
      rcases hs with ⟨b, hb⟩ | ⟨e, he, hlookup⟩
      · rw [lookupBy_cons_ok d eval hb, firstFound, List.findSome?_cons_of_isSome (by simp [hb, Except.toOption])]
        simp only [hb, Except.toOption]
      · rw [lookupBy_cons_missing d eval he hlookup, ih hrest, firstFound, firstFound,
          List.findSome?_cons_of_isNone (by simp [he, Except.toOption])]

theorem lookupBy_cons_error {s : Scope} {rest : List Scope} {e : Error}
    (h : s.findBy d (Object.snapshotBy (eval depth)) r = .error e) (he : e.isLookup = false) :
    lookupBy d eval depth (s :: rest) r = .error e := by
  rw [lookupBy, h]
  simp only [he]
  rfl

/-- A scope that misses the reference makes no difference. -/
theorem lookupBy_of_missing {s : Scope} (h : Missing (s.findBy d (Object.snapshotBy (eval depth)) r))
    (before after : List Scope) :
    lookupBy d eval depth (before ++ s :: after) r = lookupBy d eval depth (before ++ after) r := by
  obtain ⟨e, he, hlookup⟩ := h
  induction before with
  | nil => exact lookupBy_cons_missing d eval he hlookup
  | cons first rest ih => rw [List.cons_append, List.cons_append, lookupBy, lookupBy, ih]

end

/-- The searches for a reference go on to their first success: the one among the alternatives of a choice, the one among
the objects of an environment, and the one along a chain of scopes. -/
structure GoesOn (d : Declarations) (eval : Nat → Object → Interpolated) (depth : Nat) (r : Ref) : Prop where
  choice (o : Object) {draft : Draft} : o.payload = .untyped draft →
    o.findBy d (Object.snapshotBy (eval depth)) r = firstSuccess (Error.notFound r.address o.typeName)
      (o.ty.alternatives.map
        (Object.lookInto d (Object.snapshotBy (eval depth)) r.components draft o.scopes)) ∨
      (Scope.object o).Incomparable d (eval depth) r
  environment (e : Environment) : e.get? r = none →
    e.findBy d (Object.snapshotBy (eval depth)) r = firstSuccess (Error.notFound r.address "Environment")
      ((e.candidates r).map fun (o, rest) => (o.findBy d (Object.snapshotBy (eval depth)) rest).map .object) ∨
      (Scope.environment e).Incomparable d (eval depth) r
  scopes (scopes : List Scope) :
    lookupBy d eval depth scopes r =
      (match firstFound d (Object.snapshotBy (eval depth)) scopes r with
      | some b => (b.renderBy eval depth).map some
      | none => .ok none) ∨
      ∃ s ∈ scopes, s.Incomparable d (eval depth) r

theorem goesOn (eval : Nat → Object → Interpolated) (depth : Nat) {r : Ref} (hr : r.components ≠ []) :
    GoesOn d eval depth r where
  choice o draft hdraft := by
    refine (Object.settles hr o).imp_left fun h => ?_
    simp only [Object.findBy, Object.findFrom_draft hdraft] at h ⊢
    exact Object.tryAlternatives_eq hr rfl o.scopes h
  environment e hnone := by
    refine (Environment.settles hr e).imp_left fun h => ?_
    simp only [Environment.findBy, hnone] at h ⊢
    exact Environment.findAmong_eq h
  scopes scopes := by
    by_cases hall : ∀ s ∈ scopes, Settles (s.findBy d (Object.snapshotBy (eval depth)) r)
    · exact .inl (lookupBy_eq_firstFound hall)
    · obtain ⟨s, hs, hnot⟩ : ∃ s ∈ scopes, ¬ Settles (s.findBy d (Object.snapshotBy (eval depth)) r) := by
        simpa using hall
      exact .inr ⟨s, hs, (Scope.settles hr s).resolve_left hnot⟩

/-- A scope that has none of the references that a text meets without it makes no difference to the text. -/
theorem resolve_of_unrelated (eval : Nat → Object → Interpolated) (depth : Nat) (before after : List Scope) {s : Scope}
    {text : String} (h : ∀ r, Template.Meets (lookupBy d eval depth (before ++ after)) text r →
      ∀ b, s.findBy d (Object.snapshotBy (eval depth)) r ≠ .ok b) :
    Template.resolve (lookupBy d eval depth (before ++ s :: after)) text =
        Template.resolve (lookupBy d eval depth (before ++ after)) text ∨
      ∃ r, Template.Meets (lookupBy d eval depth (before ++ after)) text r ∧ s.Incomparable d (eval depth) r := by
  by_cases hcompare : ∃ r, Template.Meets (lookupBy d eval depth (before ++ after)) text r ∧
      s.Incomparable d (eval depth) r
  · exact .inr hcompare
  · refine .inl (Template.resolve_congr fun r hr => ?_).symm
    rcases (Scope.settles hr.components_ne_nil s).resolve_right fun hs => hcompare ⟨r, hr, hs⟩ with ⟨b, hb⟩ | hmissing
    · exact absurd hb (h r hr b)
    · exact (lookupBy_of_missing hmissing before after).symm

/-- Looking a reference up succeeds, or fails in a way that every search passes over, in any object, environment or
scope, unless a key on the way is compared whose evaluation needs more than the budget; and if no budget is enough, one
is compared whose evaluation never ends. So a search goes on to its first success, and a scope that has none of the
references that a text meets cannot make the text fail. -/
theorem find_settles (d : Declarations) :
    (∀ r : Ref, r.components ≠ [] →
      (∀ o : Object, Settles (o.find d r) ∨ (Scope.object o).Incomparable d (Object.interpolate d) r) ∧
      (∀ e : Environment, Settles (e.find d r) ∨ (Scope.environment e).Incomparable d (Object.interpolate d) r) ∧
      (∀ s : Scope, Settles (s.find d r) ∨ s.Incomparable d (Object.interpolate d) r) ∧
      (∀ s : Scope, (∃ n x, Settles x ∧ ∀ m, n ≤ m → s.findBy d (Object.snapshotWithin d m) r = x) ∨ s.Endless d r) ∧
      (∀ (compare : Object → Value) (s : Scope), Settles (s.findBy d (fun k => .ok (compare k)) r)) ∧
      ∀ (eval : Nat → Object → Interpolated) (depth : Nat), GoesOn d eval depth r) ∧
    ∀ (eval : Nat → Object → Interpolated) (depth : Nat) (before after : List Scope) (s : Scope) (text : String),
      (∀ r, Template.Meets (lookupBy d eval depth (before ++ after)) text r →
        ∀ b, s.findBy d (Object.snapshotBy (eval depth)) r ≠ .ok b) →
      Template.resolve (lookupBy d eval depth (before ++ s :: after)) text =
          Template.resolve (lookupBy d eval depth (before ++ after)) text ∨
        ∃ r, Template.Meets (lookupBy d eval depth (before ++ after)) text r ∧ s.Incomparable d (eval depth) r := by
  refine ⟨fun r hr => ⟨Object.settles hr, Environment.settles hr, Scope.settles hr, Scope.settles_or_endless hr,
    fun compare s => ?_, fun eval depth => goesOn eval depth hr⟩, fun eval depth before after s text => ?_⟩
  · cases hfind : s.findBy d (fun k => .ok (compare k)) r with
    | ok b => exact .inl ⟨b, rfl⟩
    | error e =>
        rcases Scope.error_of_findBy hr hfind with he | ⟨k, -, he⟩
        · exact settles_error.mpr he
        · cases he
  · exact resolve_of_unrelated eval depth before after

/-- A key that may be a text or a number. -/
def wordKey : Ty := .choice "Key" [.string, .integer]

def wordMap : Object := .ofPayload (.map wordKey .string) (.map
  [(.ofPayload wordKey (.untyped (.scalar (.string "a"))), .ofPayload .string (.scalar (.string "x")))])

/-- A map that has numbers for keys. -/
def rankMap : Object := .ofPayload (.map .integer .string) (.map
  [(.ofPayload .integer (.scalar (.integer 1)), .ofPayload .string (.scalar (.string "y")))])

def scopeOfList (o : Object) : Scope := .environment ⟨[(.ofName "list", .object o)]⟩

theorem meets_listA {r : Ref}
    (h : Template.Meets (lookup {} [scopeOfList wordMap]) "\x7b\x7blist[a]\x7d\x7d" r) :
    r = ⟨[.dereference "list", .index "a"]⟩ := by
  have hsplit : Fragment.split false "\x7b\x7blist[a]\x7d\x7d" =
      .ok [.reference ⟨[.dereference "list", .index "a"]⟩] := by cbv
  have hjoin : Template.join (lookup {} [scopeOfList wordMap])
      [.reference ⟨[.dereference "list", .index "a"]⟩] = .ok ("x", []) := by cbv
  have hnext : Fragment.split false "x" = .ok [.literal "x"] := by cbv
  cases h with
  | here hr =>
      rw [← Template.refs_of_split hsplit] at hr
      simpa [Fragment.refs] using hr
  | next hfs hj _ hnextMeets =>
      rw [hsplit] at hfs
      cases hfs
      rw [hjoin] at hj
      cases hj
      cases hnextMeets with
      | here hr =>
          rw [← Template.refs_of_split hnext] at hr
          cases hr
      | next hfs hj hunbound _ =>
          rw [hnext] at hfs
          cases hfs
          cases hj
          exact absurd rfl hunbound

theorem wordMap_comparable :
    ¬ (Scope.object wordMap).Incomparable {} (Object.interpolate {}) ⟨[.index "a"]⟩ := by
  rintro ⟨k, hcompares, e, he, hkind⟩
  cases hcompares with
  | key hpairs hty hmade hm _ hk =>
      cases hpairs
      cases hty
      cases List.mem_singleton.mp hm
      have hmade' : wordKey.construct {} (.ofText "a") =
          .ok (.ofPayload wordKey (.untyped (.scalar (.string "a")))) := rfl
      cases hmade'.symm.trans hmade
      obtain rfl : k = .ofPayload wordKey (.untyped (.scalar (.string "a"))) := hk.elim id id
      have hok : ∃ result, Object.interpolate {} (.ofPayload wordKey (.untyped (.scalar (.string "a")))) =
          .ok result := ⟨_, by cbv⟩
      obtain ⟨result, hok⟩ := hok
      rw [hok] at he
      cases he
  | behind _ hrest => exact hrest.path_ne_nil rfl
  | settled htyped => cases htyped
  | offered hdraft => cases hdraft

/-- A word is no number, so there is nothing to compare. -/
theorem rankMap_comparable (eval : Object → Interpolated) :
    ¬ (scopeOfList rankMap).Incomparable {} eval ⟨[.dereference "list", .index "a"]⟩ := by
  rintro ⟨k, ⟨o, rest, hm, hcompares⟩, -⟩
  have hcandidates : Environment.candidates ⟨[(.ofName "list", .object rankMap)]⟩
      ⟨[.dereference "list", .index "a"]⟩ = [(rankMap, ⟨[.index "a"]⟩)] := by cbv
  rw [hcandidates] at hm
  cases List.mem_singleton.mp hm
  cases hcompares with
  | key _ hty hmade =>
      cases hty
      have hnumber : ∃ e, Ty.integer.construct {} (.ofText "a") = .error e := ⟨_, by cbv⟩
      obtain ⟨e, he⟩ := hnumber
      cases he.symm.trans hmade
  | behind _ hrest => exact hrest.path_ne_nil rfl
  | settled htyped => cases htyped
  | offered hdraft => cases hdraft

/-- A map with other keys in front of the right one is searched without harm. -/
theorem find_settles_wordMap : Settles (wordMap.find {} ⟨[.index "a"]⟩) ∧
    Template.resolve (lookup {} [scopeOfList rankMap, scopeOfList wordMap]) "\x7b\x7blist[a]\x7d\x7d" =
      Template.resolve (lookup {} [scopeOfList wordMap]) "\x7b\x7blist[a]\x7d\x7d" := by
  obtain ⟨hfind, hresolve⟩ := find_settles {}
  constructor
  · exact ((hfind ⟨[.index "a"]⟩ (by decide)).1 wordMap).resolve_right wordMap_comparable
  · refine (hresolve (Object.interpolateWithin {} Object.budget) 0 [] [scopeOfList wordMap] (scopeOfList rankMap) _
      fun r hr b hb => ?_).resolve_right ?_
    · obtain rfl := meets_listA hr
      have hmiss : ∃ e, (scopeOfList rankMap).findBy {}
          (Object.snapshotBy (Object.interpolateWithin {} Object.budget 0))
          ⟨[.dereference "list", .index "a"]⟩ = .error e := ⟨_, by cbv⟩
      obtain ⟨e, he⟩ := hmiss
      cases he.symm.trans hb
    · rintro ⟨r, hr, hincomparable⟩
      obtain rfl := meets_listA hr
      exact rankMap_comparable _ hincomparable

/-! ### Keys without end -/

section

variable {eval : Nat → Object → Interpolated} {depth : Nat} {own provided outer : List Scope} {e : Error}

/-- A lookup in a map fails as the comparison with its first key does. -/
theorem Object.findBy_of_key_error {snapshot : Object → Except Error Value} {key value : Ty} {k v made : Object}
    {rest : List (Object × Object)} {token : String} (hmade : key.construct d (.ofText token) = .ok made)
    (hsame : k.ty.same d made.ty = true) (h : snapshot k = .error e) :
    findBy d snapshot ⟨.map key value, .map ((k, v) :: rest), own, provided⟩ ⟨[.index token]⟩ = .error e := by
  rw [findBy, findFrom, enter_eq d rfl]
  simp only [step, hmade, findPair, hsame, if_true, h]
  rfl

/-- A struct is interpolated no further than to its first field that fails. -/
theorem Object.interpolateIn_of_field_error {t : Ty} {name : String} {o : Object} {rest : List (String × Option Object)}
    (h : interpolateIn d eval depth (structScopes ((name, some o) :: rest) (own ++ outer)) o = .error e) :
    interpolateIn d eval depth outer ⟨t, .struct ((name, some o) :: rest), own, provided⟩ = .error e := by
  rw [interpolateIn_eq, interpolatePayload, interpolateFields, h]
  rfl

/-- A choice tries no further alternative when the evaluation of one does not end. -/
theorem Object.interpolateIn_of_candidate_exhausted {name : String} {alternative : Ty} {rest : List Ty} {draft : Draft}
    {candidate : Object} (hcandidate : alternative.constructDraft d draft = .ok candidate)
    (h : eval depth (candidate.inScopeAll (own ++ outer)) = .error .exhausted) :
    interpolateIn d eval depth outer ⟨.choice name (alternative :: rest), .untyped draft, own, provided⟩ =
      .error .exhausted := by
  rw [interpolateIn_eq, interpolatePayload, Ty.alternatives, settleChoice, hcandidate]
  simp only [h]
  rfl

end

/-- A struct with the name, or a text. -/
def linkType (name : String) : Ty := .choice "Link" [.struct 0 name, .string]

/-- A link to a struct for which nothing is given. -/
def bareLink (name : String) : Object := .ofPayload (linkType name) (.untyped (.pairs []))

def linkMap (name : String) : Object :=
  .ofPayload (.map (linkType name) .string) (.map [(bareLink name, .ofPayload .string (.scalar (.string "v")))])

theorem find_linkMap {name : String} {snapshot : Object → Except Error Value} {e : Error}
    (h : snapshot (bareLink name) = .error e) : (linkMap name).findBy d snapshot ⟨[.index "x"]⟩ = .error e := by
  have hmade : (linkType name).construct d (.ofText "x") =
      .ok (.ofPayload (linkType name) (.untyped (.scalar (.string "x")))) := rfl
  exact Object.findBy_of_key_error hmade (Ty.same_self d (linkType name)) h

theorem snapshot_bareLink {name : String} {n : Nat}
    (h : Object.interpolateWithin d n 0 (bareLink name) = .error .exhausted) :
    Object.snapshotWithin d n (bareLink name) = .error .exhausted := by
  rw [Object.snapshotWithin, Object.snapshotBy, h]
  rfl

theorem endless_linkMap {name : String}
    (h : ∀ n, Object.interpolateWithin d n 0 (bareLink name) = .error .exhausted) :
    (Scope.object (linkMap name)).Endless d ⟨[.index "x"]⟩ := by
  refine Scope.endless_of_not_settles (by decide) fun n hsettles => hsettles.not_exhausted ⟨.exhausted, ?_, rfl⟩
  rw [Scope.findBy, find_linkMap (snapshot_bareLink (h n))]
  rfl

/-- A ring that is not linked to anything is linked to another such ring. -/
def ringTypes : Declarations where
  next := 1
  finished := [(0, [("next", ⟨linkType "Ring", false, some (bareLink "Ring")⟩)])]

theorem interpolate_ring (n : Nat) (outer : List Scope) :
    Object.interpolateIn ringTypes (Object.interpolateWithin ringTypes n) 0 outer (bareLink "Ring") =
      .error .exhausted := by
  have hring : (Ty.struct 0 "Ring").constructDraft ringTypes (.pairs []) =
      .ok (.ofPayload (.struct 0 "Ring") (.struct [("next", some (bareLink "Ring"))])) := by cbv
  induction n generalizing outer with
  | zero => exact Object.interpolateIn_of_candidate_exhausted hring rfl
  | succ n ih =>
      refine Object.interpolateIn_of_candidate_exhausted hring ?_
      rw [Object.interpolateWithin]
      exact Object.interpolateIn_of_field_error (ih _)

def entryText : Object := .ofPayload .string (.template "\x7b\x7bnotes[x]\x7d\x7d")

def entryFields : List (String × Option Object) := [("text", some entryText), ("notes", some (linkMap "Entry"))]

/-- The text of an entry mentions one of its notes, which are found under entries. -/
def entryTypes : Declarations where
  next := 1
  finished := [(0, [("text", ⟨.string, false, some entryText⟩),
    ("notes", ⟨.map (linkType "Entry") .string, false, some (linkMap "Entry")⟩)])]

theorem lookup_entryNotes {eval : Nat → Object → Interpolated} {depth : Nat}
    (h : Object.snapshotBy (eval depth) (bareLink "Entry") = .error .exhausted) (outer : List Scope) :
    lookupBy entryTypes eval depth (structScopes entryFields outer) ⟨[.dereference "notes", .index "x"]⟩ =
      .error .exhausted := by
  have hself : (Scope.environment (Environment.under (.ofName "self") ⟨fieldBindings entryFields⟩)).findBy entryTypes
      (Object.snapshotBy (eval depth)) ⟨[.dereference "notes", .index "x"]⟩ =
        .error (Error.notFound "notes[x]" "Environment") := by
    rw [Scope.findBy]
    exact Environment.findBy_of_no_prefix entryTypes _ (by decide)
  have hown : (Scope.environment ⟨fieldBindings entryFields⟩).findBy entryTypes (Object.snapshotBy (eval depth))
      ⟨[.dereference "notes", .index "x"]⟩ = .error .exhausted := by
    rw [Scope.findBy]
    exact Environment.findBy_of_candidate_error (by cbv) (show _ = [(linkMap "Entry", ⟨[.index "x"]⟩)] by cbv)
      (find_linkMap h) rfl
  rw [structScopes, lookupBy_cons_missing entryTypes eval hself rfl]
  exact lookupBy_cons_error hown rfl

theorem interpolate_entry (n : Nat) :
    Object.interpolateWithin entryTypes n 0 (bareLink "Entry") = .error .exhausted := by
  have hentry : (Ty.struct 0 "Entry").constructDraft entryTypes (.pairs []) =
      .ok (.ofPayload (.struct 0 "Entry") (.struct entryFields)) := by cbv
  -- The evaluation of the key leads to that of an entry, whose text leads back to the key.
  have hfields : ∀ m, Object.interpolateWithin entryTypes m 0 (bareLink "Entry") = .error .exhausted →
      Object.interpolateWithin entryTypes (m + 1) 0 (.ofPayload (.struct 0 "Entry") (.struct entryFields)) =
        .error .exhausted := by
    intro m hm
    have hlookup := lookup_entryNotes (snapshot_bareLink hm) []
    have hresolve := Template.resolve_placeholder_error (by cbv) hlookup
    refine Object.interpolateIn_of_field_error ?_
    rw [Object.interpolateIn_eq, entryText, Object.ofPayload, Object.interpolatePayload, Object.resolveTemplate]
    exact congrArg (· >>= _ >>= _) hresolve
  induction n using Nat.twoStepInduction with
  | zero => rfl
  | one => exact Object.interpolateIn_of_candidate_exhausted hentry rfl
  | more n ih _ => exact Object.interpolateIn_of_candidate_exhausted hentry (hfields n ih)

/-- Neither map answers a lookup, because their keys never come to an end: in the first one each ring leads to another
ring, in the second one the text of an entry compares the key of that entry. -/
theorem find_settles_endless :
    ((Ty.map (linkType "Ring") .string).construct ringTypes
        (.draft (.pairs [(.draft (.pairs []), .draft (.scalar (.string "v")))])) = .ok (linkMap "Ring") ∧
      (Scope.object (linkMap "Ring")).Endless ringTypes ⟨[.index "x"]⟩ ∧
      ¬ Settles ((linkMap "Ring").find ringTypes ⟨[.index "x"]⟩)) ∧
    (Ty.map (linkType "Entry") .string).construct entryTypes
        (.draft (.pairs [(.draft (.pairs []), .draft (.scalar (.string "v")))])) = .ok (linkMap "Entry") ∧
      (Scope.object (linkMap "Entry")).Endless entryTypes ⟨[.index "x"]⟩ ∧
      ¬ Settles ((linkMap "Entry").find entryTypes ⟨[.index "x"]⟩) := by
  have hring : (Scope.object (linkMap "Ring")).Endless ringTypes ⟨[.index "x"]⟩ := by
    refine endless_linkMap fun n => ?_
    cases n with
    | zero => rfl
    | succ n => exact interpolate_ring n []
  have hentry : (Scope.object (linkMap "Entry")).Endless entryTypes ⟨[.index "x"]⟩ :=
    endless_linkMap interpolate_entry
  exact ⟨⟨by cbv, hring, fun h => hring.not_settles (settles_map.mpr h)⟩,
    by cbv, hentry, fun h => hentry.not_settles (settles_map.mpr h)⟩

end TypedTemplate
