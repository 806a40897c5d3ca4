import TypedTemplate.Proofs.Object.Compare
import TypedTemplate.Proofs.Object.Compares
import TypedTemplate.Proofs.Object.Inert

/-!
# What interpolation hides

Where an object comes to another one, nothing can be found in the second one that could not be found in the first one,
if the keys of maps are the same in all scopes: choices that settle only drop alternatives, and everything else keeps
its place.
-/

namespace TypedTemplate

namespace Object

/-! ## What is interpolated along with an object -/

/-- The second object is interpolated for the sake of the first one: it is the object itself, a part of it, or what an
alternative of a choice makes of the draft, with all the scopes that it sees. -/
inductive Visits (d : Declarations) : Object → Object → Prop
  | self {o} : Visits d o o
  | part {o p q} : p ∈ o.payload.parts → Visits d (p.inScopeAll o.innerScopes) q → Visits d o q
  | candidate {o q c t draft} : o.payload = .untyped draft → t ∈ o.ty.alternatives →
      t.constructDraft d draft = .ok c → Visits d (c.inScopeAll o.scopes) q → Visits d o q

/-- The object comes to the same in all scopes, and leaves nothing. -/
def Closed (d : Declarations) (o : Object) : Prop :=
  ∃ r, ∀ scopes, (o.inScopeAll scopes).interpolate d = .ok (r, [])

/-- All keys of maps that are interpolated along with the object are closed. -/
def KeysClosed (d : Declarations) (o : Object) : Prop :=
  ∀ p, o.Visits d p → ∀ pairs, p.payload = .map pairs → ∀ k v, (k, v) ∈ pairs → k.Closed d

variable {d : Declarations} {o o' p : Object}

theorem KeysClosed.part (h : o.KeysClosed d) (hp : p ∈ o.payload.parts) :
    (p.inScopeAll o.innerScopes).KeysClosed d := fun q hq => h q (.part hp hq)

theorem KeysClosed.candidate (h : o.KeysClosed d) {c : Object} {t : Ty} {draft : Draft}
    (ho : o.payload = .untyped draft) (ht : t ∈ o.ty.alternatives) (hc : t.constructDraft d draft = .ok c) :
    (c.inScopeAll o.scopes).KeysClosed d := fun q hq => h q (.candidate ho ht hc hq)

theorem KeysClosed.of_parts {o : Object} (hkey : ∀ pairs, o.payload = .map pairs → ∀ k v, (k, v) ∈ pairs → k.Closed d)
    (hparts : ∀ p ∈ o.payload.parts, (p.inScopeAll o.innerScopes).KeysClosed d)
    (hcandidates : ∀ draft, o.payload = .untyped draft → ∀ t ∈ o.ty.alternatives, ∀ c,
      t.constructDraft d draft = .ok c → (c.inScopeAll o.scopes).KeysClosed d) : o.KeysClosed d := by
  intro p hp
  cases hp with
  | self => exact hkey
  | part hq hp => exact hparts _ hq p hp
  | candidate ho ht hc hp => exact hcandidates _ ho _ ht _ hc p hp

/-! ## Nothing new is found -/

/-- How an object is compared within a budget. -/
def snapshotWithin (d : Declarations) (n : Nat) : Object → Except Error Value := snapshotBy (interpolateWithin d n 0)

theorem snapshotWithin_approximates {m n : Nat} (h : m ≤ n) (o : Object) :
    Approximates (snapshotWithin d m o) (snapshotWithin d n o) :=
  snapshotBy_approximates (interpolateWithin_approximates d h 0) o

/-- What cannot be found in the first object cannot be found in the second one, even with a greater budget. -/
structure Hides (d : Declarations) (o o' : Object) : Prop where
  namable : o'.isNamable = true → o.isNamable = true
  missing {m n : Nat} : m ≤ n → n ≤ budget → ∀ path ≠ [], Missing (findFrom d (snapshotWithin d m) path o) →
    Missing (findFrom d (snapshotWithin d n) path o')

theorem isNamable_inScopeAll (o : Object) (scopes : List Scope) : (o.inScopeAll scopes).isNamable = o.isNamable := by
  have halike : o.Alike (o.inScopeAll scopes) := ⟨rfl, rfl⟩
  exact halike.isNamable

theorem Hides.inScopeAll (h : o.Hides d o') (scopes scopes' : List Scope) :
    (o.inScopeAll scopes).Hides d (o'.inScopeAll scopes') where
  namable := by
    rw [isNamable_inScopeAll, isNamable_inScopeAll]
    exact h.namable
  missing hmn hn path hpath := by
    rw [missing_inScopeAll, missing_inScopeAll]
    exact h.missing hmn hn path hpath

theorem Hides.of_inScopeAll {scopes : List Scope} (h : (o.inScopeAll scopes).Hides d o') : o.Hides d o' where
  namable hnamable := by
    rw [← isNamable_inScopeAll o scopes]
    exact h.namable hnamable
  missing hmn hn path hpath hmissing := h.missing hmn hn path hpath ((missing_inScopeAll path o scopes).mpr hmissing)

/-- An object in which nothing can be looked up hides behind any other. -/
theorem hides_of_not_namable (h : o'.isNamable = false) : o.Hides d o' :=
  ⟨fun h' => by simp [h] at h', fun _ _ _ hpath _ => missing_of_not_namable h hpath⟩

/-- One step leads to the same place, or nowhere as before. -/
structure StepHides (d : Declarations) (x y : Except Error Object) : Prop where
  missing : Missing x → Missing y
  found {p : Object} : x = .ok p → ∃ p', y = .ok p' ∧ p.Hides d p'

theorem stepHides_error {e e' : Error} (h : e'.isLookup = true) : StepHides d (.error e) (.error e') :=
  ⟨fun _ => missing_error.mpr h, by rintro _ ⟨⟩⟩

theorem stepHides_ok (h : p.Hides d o) : StepHides d (.ok p) (.ok o) :=
  ⟨fun hm => absurd hm (not_missing_ok _), by rintro _ ⟨⟩; exact ⟨_, rfl, h⟩⟩

theorem stepHides_of_alongside {x y : Except Error Object} (h : Alongside (Hides d) x y) : StepHides d x y := by
  cases h with
  | ok h => exact stepHides_ok h
  | error => exact ⟨id, by rintro _ ⟨⟩⟩

theorem hides_of_step (ho : o.payload.isChoice = false) (ho' : o'.payload.isChoice = false)
    (hnamable : o.isNamable = true) (h : ∀ m n, m ≤ n → n ≤ budget → ∀ c,
      StepHides d (step d (snapshotWithin d m) c o) (step d (snapshotWithin d n) c o')) : o.Hides d o' where
  namable _ := hnamable
  missing {m n} hmn hn path hpath hmissing := by
    obtain ⟨c, rest, rfl⟩ := List.exists_cons_of_ne_nil hpath
    have hstep := h m n hmn hn c
    rw [findFrom_of_isChoice ho, follow_missing_iff] at hmissing
    rw [findFrom_of_isChoice ho', follow_missing_iff]
    rcases hmissing with hmissing | ⟨p, hp, hrest, hfurther⟩
    · exact .inl (hstep.missing hmissing)
    · obtain ⟨p', hp', hhides⟩ := hstep.found hp
      refine .inr ⟨p', hp', hrest, ?_⟩
      by_cases hnamable' : p'.isNamable = true
      · refine .inr (hhides.missing hmn hn rest hrest (hfurther.resolve_left ?_))
        simp [hhides.namable hnamable']
      · exact .inl (by simpa using hnamable')

/-! ## Keys -/

/-- The second key compares the way the first one does. -/
def KeepsKey (d : Declarations) (k k' : Object) : Prop :=
  k'.ty = k.ty ∧ ∀ {m n v}, m ≤ n → n ≤ budget → snapshotWithin d m k = .ok v → snapshotWithin d n k' = .ok v

theorem findPair_error {n : Nat} {key : Object} {pairs : List (Object × Object)} {e : Error}
    (h : findPair d (snapshotWithin d n) key pairs = .error e) : e.kind = .exhausted := by
  obtain ⟨_, _, -, -, _, -, he⟩ := error_of_findPair h
  exact (snapshotBy_error he).2

theorem findPair_keeps {R : Object → Object → Prop} {m n : Nat} (hmn : m ≤ n) (hn : n ≤ budget) (key : Object)
    {pairs others : List (Object × Object)}
    (h : List.Forall₂ (fun pair pair' => pair.1.KeepsKey d pair'.1 ∧ R pair.2 pair'.2) pairs others)
    {found : Option Object} (hfound : findPair d (snapshotWithin d m) key pairs = .ok found) :
    ∃ found', findPair d (snapshotWithin d n) key others = .ok found' ∧ Option.Rel R found found' := by
  induction h with
  | nil =>
      cases hfound
      exact ⟨none, rfl, .none⟩
  | @cons pair pair' _ _ hpair _ ih =>
      obtain ⟨k, v⟩ := pair
      obtain ⟨k', v'⟩ := pair'
      obtain ⟨⟨hty, hkeeps⟩, hv⟩ := hpair
      simp only [findPair] at hfound ⊢
      rw [hty]
      split at hfound
      · rename_i hsame
        obtain ⟨a, ha, hfound⟩ := Except.bind_ok hfound
        obtain ⟨b, hb, hfound⟩ := Except.bind_ok hfound
        have hb' := (hb ▸ snapshotWithin_approximates hmn key).eq_of_ok
        rw [if_pos hsame, hkeeps hmn hn ha, hb']
        simp only [bind, Except.bind]
        split at hfound
        · rename_i heq
          cases hfound
          rw [if_pos heq]
          exact ⟨some v', rfl, .some hv⟩
        · rename_i hne
          rw [if_neg hne]
          exact ih hfound
      · rename_i hsame
        rw [if_neg hsame]
        exact ih hfound

theorem Closed.keeps (h : o.Closed d) {n : Nat} (hn : n < budget) {scopes : List Scope} {r : Object} {refs : List Ref}
    (hr : interpolateIn d (interpolateWithin d n) 0 scopes o = .ok (r, refs)) :
    o.KeepsKey d r ∧ refs = [] ∧ r.Inert := by
  obtain ⟨closed, hclosed⟩ := h
  have hinert : closed.Inert := interpolateWithin_inert (hclosed [])
  have hrun : interpolateWithin d (n + 1) 0 (o.inScopeAll scopes) = .ok (r, refs) := by
    rw [interpolateWithin, interpolateIn_inScopeAll, List.append_nil, hr]
  have hsame : interpolateWithin d budget 0 (o.inScopeAll scopes) = .ok (r, refs) :=
    (hrun ▸ interpolateWithin_approximates d hn 0 (o.inScopeAll scopes)).eq_of_ok
  obtain ⟨rfl, rfl⟩ : r = closed ∧ refs = [] := by
    have heq := hsame.symm.trans (hclosed scopes)
    simpa using heq
  refine ⟨⟨interpolateIn_ty hr, fun {m n v} hmn hn hv => ?_⟩, rfl, hinert⟩
  cases n with
  | zero =>
      obtain rfl : m = 0 := by omega
      cases hv
  | succ n =>
      have hopen : snapshotWithin d budget o = .ok r.toValue := by
        have hbare := hclosed []
        rw [inScopeAll_nil] at hbare
        rw [snapshotWithin, snapshotBy, show interpolateWithin d budget 0 o = _ from hbare]
      have hvalue : v = r.toValue := by
        have heq := (hv ▸ snapshotWithin_approximates (Nat.le_trans hmn hn) o).eq_of_ok
        exact Except.ok.inj (heq.symm.trans hopen)
      rw [snapshotWithin, snapshotBy, interpolateWithin, hinert.interpolateIn, hvalue]

/-- A closed key is what it is compared by, in all scopes. -/
theorem Closed.stays (h : o.Closed d) : o.Stays d := by
  obtain ⟨closed, hclosed⟩ := h
  intro scopes r refs hr
  obtain ⟨rfl, rfl⟩ : r = closed ∧ refs = [] := by
    have heq := hr.symm.trans (hclosed scopes)
    simpa using heq
  have hbare := hclosed []
  rw [inScopeAll_nil] at hbare
  have hagain : r.interpolate d = .ok (r, []) := by
    rw [interpolate_eq, (interpolateWithin_inert hr).interpolateIn]
  rw [snapshotBy, snapshotBy, hagain, hbare]

theorem exists_visits_of_holds (h : o.Holds p) (scopes : List Scope) :
    ∃ scopes', (o.inScopeAll scopes).Visits d (p.inScopeAll scopes') := by
  induction h generalizing scopes with
  | self => exact ⟨scopes, .self⟩
  | @part o q p hq _ ih =>
      obtain ⟨scopes', hvisits⟩ := ih (o.inScopeAll scopes).innerScopes
      exact ⟨scopes', .part hq hvisits⟩

/-- Where nothing is a choice and all keys are closed, every place stays where it is. -/
theorem Fixed.of_closed (ho : o.Choiceless) (hkeys : o.KeysClosed d) : o.Fixed d where
  choiceless := ho
  keys := by
    intro p hp key value pairs _ hpairs _ _ _ k v hm
    obtain ⟨scopes, hvisits⟩ := exists_visits_of_holds (d := d) hp []
    rw [inScopeAll_nil] at hvisits
    exact (hkeys _ hvisits pairs hpairs k v hm).stays

/-! ## Kinds of objects -/

section

variable {t t' : Ty} {own own' provided provided' : List Scope}

theorem hides_list {elements others : List Object} (h : List.Forall₂ (Hides d) elements others) :
    Hides d ⟨t, .list elements, own, provided⟩ ⟨t, .list others, own', provided'⟩ :=
  hides_of_step rfl rfl (by simp only [isNamable]) fun _ _ _ _ c =>
    stepHides_of_alongside (step_list_alongside rfl h (fun _ _ hfound => hfound.inScopeAll _ _) c)

theorem hides_map {pairs others : List (Object × Object)}
    (h : List.Forall₂ (fun pair pair' => pair.1.KeepsKey d pair'.1 ∧ pair.2.Hides d pair'.2) pairs others) :
    Hides d ⟨t, .map pairs, own, provided⟩ ⟨t, .map others, own', provided'⟩ := by
  refine hides_of_step rfl rfl (by simp only [isNamable]) fun m n hmn hn c => ?_
  cases c with
  | dereference name => exact stepHides_error rfl
  | index token =>
      simp only [step]
      cases t with
      | map keyType valueType =>
          dsimp only
          cases keyType.construct d (.ofText token) with
          | error e => exact stepHides_error rfl
          | ok key =>
              dsimp only
              cases hfound : findPair d (snapshotWithin d m) key pairs with
              | error e =>
                  -- Comparing keys fails only where the budget runs out, which is no failed lookup.
                  refine ⟨fun hmissing => ?_, by rintro _ ⟨⟩⟩
                  have hlookup : e.isLookup = true := missing_error.mp hmissing
                  rw [Error.isLookup, findPair_error hfound] at hlookup
                  cases hlookup
              | ok found =>
                  obtain ⟨found', hfound', hrel⟩ := findPair_keeps hmn hn key h hfound
                  rw [hfound']
                  cases hrel with
                  | none => exact stepHides_error rfl
                  | some hv => exact stepHides_ok (hv.inScopeAll _ _)
      | _ => exact stepHides_error rfl

theorem hides_struct {fields others : List (String × Option Object)}
    (h : List.Forall₂ (fun field field' => field.1 = field'.1 ∧ Option.Rel (Hides d) field.2 field'.2) fields others) :
    Hides d ⟨t, .struct fields, own, provided⟩ ⟨t, .struct others, own', provided'⟩ :=
  hides_of_step rfl rfl (by simp only [isNamable]) fun _ _ _ _ c =>
    stepHides_of_alongside (step_struct_alongside rfl h (fun _ _ _ _ hfound => hfound.inScopeAll _ _) c)

theorem hides_typed {inner other : Object} (h : inner.Hides d other) :
    Hides d ⟨t, .typed inner, own, provided⟩ ⟨t', .typed other, own', provided'⟩ where
  namable := by
    simp only [isNamable]
    exact h.namable
  missing hmn hn path hpath := by
    rw [findFrom_typed, findFrom_typed]
    exact h.missing hmn hn path hpath

theorem missing_of_offers {snapshot : Object → Except Error Value} {path : List Component} {draft : Draft}
    {alternative : Ty} (h : ∀ o, alternative.Offers d draft o → Missing (findFrom d snapshot path o))
    (hnamable : alternative.isNamable = true) {candidate : Object}
    (hcandidate : alternative.constructDraft d draft = .ok candidate) :
    Missing (findFrom d snapshot path candidate) := by
  obtain ⟨ho, hkind⟩ := Ty.constructDraft_payload hcandidate
  cases alternative with
  | list | map | struct => exact h candidate (.taken hnamable rfl hcandidate)
  | choice name alternatives =>
      rw [ho, show candidate.payload = _ from hkind, ofPayload, findFrom_untyped]
      exact fun t ht o hoffer => h o (.alternative ht hoffer)
  | _ => cases hnamable

/-- A choice hides what it does not settle for. -/
theorem hides_settled {draft : Draft} {alternative : Ty} (hm : alternative ∈ t.alternatives) {candidate inner : Object}
    (hcandidate : alternative.constructDraft d draft = .ok candidate) (h : candidate.Hides d inner) :
    Hides d ⟨t, .untyped draft, own, provided⟩ ⟨t', .typed inner, own', provided'⟩ := by
  by_cases hnamable : inner.isNamable = true
  · have halternative : alternative.isNamable = true := by
      rw [← Ty.isNamable_of_constructDraft hcandidate]
      exact h.namable hnamable
    constructor
    · simp only [isNamable]
      exact fun _ => Ty.isNamable_of_alternative hm halternative
    · intro m n hmn hn path hpath hmissing
      rw [findFrom_untyped] at hmissing
      rw [findFrom_typed]
      exact h.missing hmn hn path hpath (missing_of_offers (hmissing alternative hm) halternative hcandidate)
  · exact hides_of_not_namable (by simp only [isNamable]; simpa using hnamable)

/-- Nothing is found in a choice that holds a scalar. -/
theorem hides_scalar {draft : Draft} {s : Scalar} :
    Hides d ⟨t, .untyped draft, own, provided⟩ ⟨t, .untyped (.scalar s), own', provided'⟩ where
  namable := by simp only [isNamable, imp_self]
  missing _ _ path _ _ := by
    rw [findFrom_untyped]
    exact fun _ _ o ho => absurd ho (Ty.not_offers_scalar _)

end

/-! ## What an object comes to -/

theorem interpolateIn_hides_of {n : Nat} (heval : ∀ (o inner : Object) (refs : List Ref), o.KeysClosed d →
      interpolateWithin d n 0 o = .ok (inner, refs) → o.Hides d inner) (hn : n < budget) {outer : List Scope}
    {r : Object} {refs : List Ref} (hkeys : (o.inScopeAll outer).KeysClosed d)
    (h : interpolateIn d (interpolateWithin d n) 0 outer o = .ok (r, refs)) : o.Hides d r := by
  induction o using parts_induction generalizing outer r refs with
  | _ o ih =>
    have hpart : ∀ p ∈ o.payload.parts, ∀ r,
        p.ComesTo d (interpolateWithin d n) 0 (o.inScopeAll outer).innerScopes refs r → p.Hides d r := by
      rintro p hp r ⟨left, hleft, -⟩
      exact ih p hp (hkeys.part hp) hleft
    obtain ⟨t, payload, own, provided⟩ := o
    cases payload with
    | scalar s =>
        obtain rfl := interpolateIn_scalar h
        exact hides_of_not_namable (by simp only [ofPayload, isNamable])
    | template text =>
        rcases interpolateIn_template h with ⟨_, _, -, rfl⟩ | ⟨_, rfl, -⟩ <;>
          exact hides_of_not_namable (by simp only [ofPayload, isNamable])
    | list elements =>
        obtain ⟨others, rfl, hothers⟩ := interpolateIn_list h
        exact hides_list (((List.forall₂_and_left _ _).mpr ⟨hpart, hothers⟩).imp fun _ r hr => hr.1 r hr.2)
    | map pairs =>
        obtain ⟨others, rfl, hothers⟩ := interpolateIn_map h
        have hpairs : ∀ pair ∈ pairs, pair.1.Closed d ∧ pair.2 ∈ (Payload.map pairs).parts := fun pair hm =>
          ⟨hkeys _ .self pairs rfl pair.1 pair.2 hm, Payload.mem_parts_map.mpr ⟨_, _, hm, .inr rfl⟩⟩
        refine hides_map (((List.forall₂_and_left _ _).mpr ⟨hpairs, hothers⟩).imp fun pair pair' hpair => ?_)
        obtain ⟨⟨hclosed, hv⟩, ⟨left, hk, -⟩, hvalue⟩ := hpair
        exact ⟨(hclosed.keeps hn hk).1, hpart _ hv _ hvalue⟩
    | struct fields =>
        obtain ⟨others, rfl, hothers⟩ := interpolateIn_struct h
        have hvalues : ∀ field ∈ fields, ∀ o, field.2 = some o → o ∈ (Payload.struct fields).parts :=
          fun field hm o ho => Payload.mem_parts_struct.mpr ⟨field.1, ho ▸ hm⟩
        refine hides_struct (((List.forall₂_and_left _ _).mpr ⟨hvalues, hothers⟩).imp fun field field' hfield => ?_)
        obtain ⟨hmem, hname, hvalue⟩ := hfield
        refine ⟨hname, ?_⟩
        generalize field.2 = value, field'.2 = value' at hmem hvalue
        cases hvalue with
        | none => exact .none
        | some hvalue => exact .some (hpart _ (hmem _ rfl) _ hvalue)
    | typed inner =>
        obtain ⟨other, rfl, hother⟩ := interpolateIn_typed h
        exact hides_typed (hpart inner (List.mem_singleton.mpr rfl) _ hother)
    | untyped draft =>
        obtain ⟨left, h, -⟩ := interpolateIn_ok h
        obtain ⟨alternative, hm, candidate, inner, hcandidate, hinner, rfl | ⟨text, -, -, rfl⟩⟩ := settleChoice_ok h
        · exact hides_settled hm hcandidate (heval _ _ _ (hkeys.candidate rfl hm hcandidate) hinner).of_inScopeAll
        · exact hides_scalar

/-- What interpolation makes of an object hides behind it. -/
theorem interpolateIn_hides {n : Nat} (hn : n < budget) {outer : List Scope} {r : Object} {refs : List Ref}
    (hkeys : (o.inScopeAll outer).KeysClosed d)
    (h : interpolateIn d (interpolateWithin d n) 0 outer o = .ok (r, refs)) : o.Hides d r := by
  induction n generalizing o outer r refs with
  | zero => exact interpolateIn_hides_of (fun _ _ _ _ h => by cases h) hn hkeys h
  | succ n ih =>
      refine interpolateIn_hides_of (fun candidate inner refs hkeys h => ?_) hn hkeys h
      exact ih (Nat.lt_of_succ_lt hn) (by rwa [inScopeAll_nil]) h

theorem interpolateFields_hides {n : Nat} (hn : n < budget) {t : Ty} {fields others : List (String × Option Object)}
    {scopes provided : List Scope} {refs : List Ref} (hkeys : KeysClosed d ⟨t, .struct fields, scopes, provided⟩)
    (h : interpolateFields d (interpolateWithin d n) 0 (structScopes fields scopes) fields = .ok (others, refs)) :
    List.Forall₂ (fun field field' => field.1 = field'.1 ∧ Option.Rel (Hides d) field.2 field'.2) fields others := by
  have hpart : ∀ field ∈ fields, ∀ o, field.2 = some o → o ∈ (Payload.struct fields).parts :=
    fun field hm o ho => Payload.mem_parts_struct.mpr ⟨field.1, ho ▸ hm⟩
  refine ((List.forall₂_and_left _ _).mpr ⟨hpart, interpolateFields_ok h⟩).imp ?_
  rintro ⟨name, value⟩ ⟨name', value'⟩ ⟨hpart, hname, hvalue⟩
  refine ⟨hname, ?_⟩
  cases hvalue with
  | none => exact .none
  | some hvalue =>
      obtain ⟨_, hleft, -⟩ := hvalue
      exact .some (interpolateIn_hides hn (hkeys.part (hpart _ rfl)) hleft)

/-- What a struct comes to is a struct whose fields hide behind those of the first one. The parts of other objects see
the scopes that the objects see. -/
theorem interpolateIn_innerScopes {n : Nat} (hn : n < budget) {o r : Object} {outer : List Scope} {refs : List Ref}
    (hkeys : (o.inScopeAll outer).KeysClosed d)
    (h : interpolateIn d (interpolateWithin d n) 0 outer o = .ok (r, refs)) : r.scopes = [] ∧
    ((∃ fields others, o.payload = .struct fields ∧ r.payload = .struct others ∧ List.Forall₂ (fun field field' =>
        field.1 = field'.1 ∧ Option.Rel (Hides d) field.2 field'.2) fields others) ∨
      (∀ scopes, (o.inScopeAll scopes).innerScopes = o.scopes ++ scopes) ∧
        ∀ scopes, (r.inScopeAll scopes).innerScopes = scopes) := by
  obtain ⟨t, payload, own, provided⟩ := o
  cases payload with
  | scalar s =>
      obtain rfl := interpolateIn_scalar h
      exact ⟨rfl, .inr ⟨fun _ => rfl, fun _ => rfl⟩⟩
  | template text =>
      rcases interpolateIn_template h with ⟨_, _, -, rfl⟩ | ⟨_, rfl, -⟩ <;>
        exact ⟨rfl, .inr ⟨fun _ => rfl, fun _ => rfl⟩⟩
  | list elements =>
      obtain ⟨_, rfl, -⟩ := interpolateIn_list h
      exact ⟨rfl, .inr ⟨fun _ => rfl, fun _ => rfl⟩⟩
  | map pairs =>
      obtain ⟨_, rfl, -⟩ := interpolateIn_map h
      exact ⟨rfl, .inr ⟨fun _ => rfl, fun _ => rfl⟩⟩
  | struct fields =>
      obtain ⟨left, h, -⟩ := interpolateIn_ok h
      obtain ⟨⟨others, left'⟩, hothers, heq⟩ := Except.bind_ok h
      cases heq
      exact ⟨rfl, .inl ⟨fields, others, rfl, rfl, interpolateFields_hides hn hkeys hothers⟩⟩
  | typed inner =>
      obtain ⟨_, rfl, -⟩ := interpolateIn_typed h
      exact ⟨rfl, .inr ⟨fun _ => rfl, fun _ => rfl⟩⟩
  | untyped draft =>
      obtain ⟨left, h, -⟩ := interpolateIn_ok h
      obtain ⟨_, -, _, _, -, -, rfl | ⟨_, -, -, rfl⟩⟩ := settleChoice_ok h <;>
        exact ⟨rfl, .inr ⟨fun _ => rfl, fun _ => rfl⟩⟩

end Object

end TypedTemplate
