import TypedTemplate.Proofs.Choice.Again
import TypedTemplate.Proofs.Scope.Unknown
import TypedTemplate.Proofs.Template.Stable

/-!
# Interpolating once more

What is left of an object's texts stays when the object is interpolated again, without the scopes that it had before.
Nothing that was unknown can be found in the scopes that are left, those of the structs inside. Two things may stand
in the way: an escaped placeholder that has lost its mark beside one that is left, and a key of a map that comes to
something else than before, so that what it belongs to is found only now.
-/

namespace TypedTemplate

namespace Object

variable {d : Declarations}

/-- The text does not settle in the scopes with an escaped placeholder beside an open one. -/
def SettlesUnmixed (d : Declarations) (scopes : List Scope) (text : String) : Prop :=
  ∀ settled, Template.settle (TypedTemplate.lookup d scopes) Template.maxPasses text = .ok settled →
    ¬ Template.Mixed settled

/-- No text that is resolved for the sake of the object settles with an escaped placeholder beside an open one. -/
def Unmixed (d : Declarations) (o : Object) : Prop :=
  ∀ p, o.Visits d p → ∀ text, p.payload = .template text → SettlesUnmixed d p.scopes text

/-- Interpolating the object hides nothing that comes to light when it is interpolated again. -/
structure Steady (d : Declarations) (o : Object) : Prop where
  texts : o.Unmixed d
  keys : o.KeysClosed d

theorem steady_iff {o : Object} : o.Steady d ↔
    (∀ text, o.payload = .template text → SettlesUnmixed d o.scopes text) ∧
    (∀ pairs, o.payload = .map pairs → ∀ k v, (k, v) ∈ pairs → k.Closed d) ∧
    (∀ p ∈ o.payload.parts, (p.inScopeAll o.innerScopes).Steady d) ∧
    ∀ draft, o.payload = .untyped draft → ∀ t ∈ o.ty.alternatives, ∀ c, t.constructDraft d draft = .ok c →
      (c.inScopeAll o.scopes).Steady d := by
  constructor
  · rintro ⟨htexts, hkeys⟩
    refine ⟨htexts o .self, hkeys o .self, fun p hp => ⟨fun q hq => htexts q (.part hp hq), hkeys.part hp⟩, ?_⟩
    exact fun draft ho t ht c hc => ⟨fun q hq => htexts q (.candidate ho ht hc hq), hkeys.candidate ho ht hc⟩
  · rintro ⟨htext, hkey, hparts, hcandidates⟩
    constructor
    · intro p hp
      cases hp with
      | self => exact htext
      | part hq hp => exact (hparts _ hq).texts p hp
      | candidate ho ht hc hp => exact (hcandidates _ ho _ ht _ hc).texts p hp
    · intro p hp
      cases hp with
      | self => exact hkey
      | part hq hp => exact (hparts _ hq).keys p hp
      | candidate ho ht hc hp => exact (hcandidates _ ho _ ht _ hc).keys p hp

theorem Steady.part {o p : Object} (h : o.Steady d) (hp : p ∈ o.payload.parts) :
    (p.inScopeAll o.innerScopes).Steady d := (steady_iff.mp h).2.2.1 p hp

theorem Steady.candidate {o c : Object} (h : o.Steady d) {t : Ty} {draft : Draft} (ho : o.payload = .untyped draft)
    (ht : t ∈ o.ty.alternatives) (hc : t.constructDraft d draft = .ok c) : (c.inScopeAll o.scopes).Steady d :=
  (steady_iff.mp h).2.2.2 draft ho t ht c hc

/-! ## Payloads -/

section

variable {m n : Nat} {c outer : List Scope}

theorem resolveAt_again (hmn : m ≤ n) (hn : n ≤ budget) (hc : ScopesHide d outer c) {text joined : String}
    (hmixed : SettlesUnmixed d outer text) {left : List Ref} (h : resolveAt d m outer text = .ok (joined, left))
    (hleft : left ≠ []) :
    (∃ fs, Fragment.split false joined = .ok fs) ∧ resolveAt d n c joined = .ok (joined, left) := by
  refine Template.resolve_again (fun settled hsettled => ?_) h hleft fun r hr => ?_
  · have happrox := Template.settle_approximates
      (lookupBy_approximates d (interpolateWithin_approximates d (Nat.le_trans hmn hn)) 0 outer) Template.maxPasses text
    exact hmixed settled (hsettled ▸ happrox).eq_of_ok
  · exact hc.lookupBy_eq_none hmn hn (Template.lookup_of_resolve h r hr)

theorem resolveTemplate_again (hmn : m ≤ n) (hn : n ≤ budget) (hc : ScopesHide d outer c) {t : Ty} {text : String}
    (hmixed : SettlesUnmixed d outer text) {r : Object} {left : List Ref}
    (h : resolveTemplate d (interpolateWithin d m) 0 outer t text = .ok (r, left)) :
    r.scopes = [] ∧ interpolatePayload d (interpolateWithin d n) 0 c r.ty r.payload = .ok (r, left) := by
  obtain ⟨⟨joined, unbound⟩, hresolve, h⟩ := Except.bind_ok h
  dsimp only at h
  split at h
  · obtain ⟨s, -, h⟩ := Except.bind_ok h
    cases h
    exact ⟨rfl, rfl⟩
  · rename_i hunbound
    cases h
    have hne : left ≠ [] := by simpa using hunbound
    have hagain := (resolveAt_again hmn hn hc hmixed hresolve hne).2
    rw [resolveAt] at hagain
    simp [ofPayload, interpolatePayload, resolveTemplate, hagain, hne, bind, Except.bind, pure, Except.pure]

/-- A choice that has been left with a text is left with it again. -/
theorem settleChoice_text_again (hmn : m ≤ n) (hn : n ≤ budget) (hc : ScopesHide d outer c) {draft : Draft} {t : Ty}
    {ts : List Ty} {text : String} {refs : List Ref} (hsteady : ∀ alternative ∈ ts, ∀ o,
      alternative.constructDraft d draft = .ok o → (o.inScopeAll outer).Unmixed d)
    (h : settleChoice d (interpolateWithin d m 0) outer t draft ts =
      .ok (.ofPayload t (.untyped (.scalar (.string text))), refs)) :
    settleChoice d (interpolateWithin d n 0) c t (.scalar (.string text)) ts =
      .ok (.ofPayload t (.untyped (.scalar (.string text))), refs) := by
  obtain ⟨k, first, left, hk, rfl, hfirst, ⟨alternative, hm, hcandidate⟩, hleft, hne⟩ := settleChoice_text h
  have hunmixed : SettlesUnmixed d outer first := by
    intro settled hsettled
    refine hsteady alternative hm _ hcandidate _ .self first rfl settled ?_
    simpa [inScopeAll, ofPayload] using hsettled
  have happrox : ∀ m, Approximates (resolveAt d m outer first) (.ok (text, left)) := by
    intro m
    rcases Nat.le_total m k with hmk | hkm
    · exact hleft ▸ resolveAt_approximates d hmk outer first
    · have happrox := resolveAt_approximates d hkm outer first
      rw [hleft] at happrox
      rw [happrox.eq_of_ok]
      exact .refl _
  have hresolve : ∀ m n, m ≤ n → n ≤ budget → Again (resolveAt d m outer first) (resolveAt d n c text) := by
    intro m n hmn hn
    rcases happrox m with ⟨e, he, hk⟩ | hok
    · exact .of_error he (Error.IsLimit.not_isCoercion (.inr hk))
    · exact .of_ok hok (resolveAt_again hmn hn hc hunmixed hok hne).2
  have hreadable : Readable text := ⟨(Template.open_of_resolve hleft hne).hasPlaceholder,
    (resolveAt_again (Nat.le_refl k) (by omega) hc hunmixed hleft hne).1⟩
  exact (settleChoice_again (offer_again hfirst hreadable hresolve hmn hn) t ts).1 _ h

end

/-! ## Objects -/

section

variable {m n : Nat} {c : List Scope}

theorem interpolateIn_again_of (hmn : m ≤ n) (hn : n < budget)
    (heval : ∀ (o r : Object) (refs : List Ref) (c : List Scope), o.Steady d → ScopesHide d o.scopes c →
      interpolateWithin d m 0 o = .ok (r, refs) → interpolateIn d (interpolateWithin d n) 0 c r = .ok (r, refs))
    {o r : Object} {outer : List Scope} {refs : List Ref} (ho : (o.inScopeAll outer).Steady d)
    (hc : ScopesHide d (o.scopes ++ outer) c)
    (h : interpolateIn d (interpolateWithin d m) 0 outer o = .ok (r, refs)) :
    interpolateIn d (interpolateWithin d n) 0 c r = .ok (r, refs) := by
  induction o using parts_induction generalizing outer r refs c with
  | _ o ih =>
    have hm : m < budget := Nat.lt_of_le_of_lt hmn hn
    -- A payload that is no container comes to itself again; the references are counted once in the end.
    have hpayload : ∀ {resolved left}, interpolatePayload d (interpolateWithin d m) 0 (o.scopes ++ outer) o.ty
        o.payload = .ok (resolved, left) → (resolved.scopes = [] ∧
        interpolatePayload d (interpolateWithin d n) 0 c resolved.ty resolved.payload = .ok (resolved, left)) →
        interpolateIn d (interpolateWithin d n) 0 c r = .ok (r, refs) := by
      rintro resolved left hfirst ⟨hscopes, hagain⟩
      rw [interpolateIn_eq, hfirst] at h
      cases h
      rw [interpolateIn_eq, hscopes, List.nil_append, hagain]
      rfl
    cases hkind : o.payload with
    | template text =>
        rw [interpolateIn_eq, hkind] at h
        obtain ⟨⟨resolved, left⟩, hfirst, -⟩ := Except.bind_ok h
        refine hpayload (by rw [hkind, hfirst]) ?_
        exact resolveTemplate_again hmn (Nat.le_of_lt hn) hc (ho.texts _ .self text hkind) hfirst
    | untyped draft =>
        rw [interpolateIn_eq, hkind] at h
        obtain ⟨⟨resolved, left⟩, hfirst, -⟩ := Except.bind_ok h
        refine hpayload (by rw [hkind, hfirst]) ?_
        have hsteady : ∀ alternative ∈ o.ty.alternatives, ∀ candidate,
            alternative.constructDraft d draft = .ok candidate → (candidate.inScopeAll (o.scopes ++ outer)).Steady d :=
          fun _ hm _ h => ho.candidate hkind hm h
        obtain ⟨alternative, hm, candidate, inner, hcandidate, hinner, rfl | ⟨text, -, -, rfl⟩⟩ :=
          settleChoice_ok hfirst
        · refine ⟨rfl, ?_⟩
          have hsteady := hsteady alternative hm candidate hcandidate
          rw [ofPayload, interpolatePayload, heval _ _ _ c hsteady (hc.append_left candidate.scopes) hinner]
          rfl
        · refine ⟨rfl, ?_⟩
          exact settleChoice_text_again hmn (Nat.le_of_lt hn) hc
            (fun alternative hm o h => (hsteady alternative hm o h).texts) hfirst
    | scalar | list | map | struct | typed =>
        have hinner := hc.innerScopes hm ho.keys h
        refine (interpolateIn_again_parts (by simp [hkind]) (by simp [hkind]) h fun p hp r' left hleft => ?_).1 _ h
        exact .of_ok hleft (ih p hp (ho.part hp) (hinner.append_left p.scopes) hleft)

theorem interpolateIn_again (hmn : m ≤ n) (hn : n < budget) {o r : Object} {outer : List Scope} {refs : List Ref}
    (ho : (o.inScopeAll outer).Steady d) (hc : ScopesHide d (o.scopes ++ outer) c)
    (h : interpolateIn d (interpolateWithin d m) 0 outer o = .ok (r, refs)) :
    interpolateIn d (interpolateWithin d n) 0 c r = .ok (r, refs) := by
  induction m generalizing n o r outer refs c with
  | zero => exact interpolateIn_again_of hmn hn (fun _ _ _ _ _ _ h => by cases h) ho hc h
  | succ m ih =>
      refine interpolateIn_again_of hmn hn (fun o r refs c ho hc h => ?_) ho hc h
      exact ih (Nat.le_of_succ_le hmn) hn (by rwa [inScopeAll_nil]) (by rwa [List.append_nil]) h

end

/-- Interpolating what an object has come to changes nothing. -/
theorem interpolate_again {o r : Object} {refs : List Ref} (ho : o.Steady d) (h : o.interpolate d = .ok (r, refs)) :
    r.interpolate d = .ok (r, refs) := by
  rw [interpolate_eq] at h ⊢
  exact interpolateIn_again (Nat.le_refl _) (by decide) (by rwa [inScopeAll_nil]) ScopesHide.nil h

/-! ## A letter -/

theorem steady_scalar {t : Ty} {s : Scalar} {own provided : List Scope} :
    Steady d ⟨t, .scalar s, own, provided⟩ :=
  steady_iff.mpr ⟨by rintro _ ⟨⟩, by rintro _ ⟨⟩, by rintro _ ⟨⟩, by rintro _ ⟨⟩⟩

theorem steady_template {t : Ty} {text settled : String} {own provided : List Scope}
    (hsettled : Template.settle (TypedTemplate.lookup d own) Template.maxPasses text = .ok settled)
    (hmarks : (Piece.scan settled.toList).all fun
      | .braced body => (Piece.escaped? body).isNone
      | .char _ => true) : Steady d ⟨t, .template text, own, provided⟩ := by
  refine steady_iff.mpr ⟨?_, by rintro _ ⟨⟩, by rintro _ ⟨⟩, by rintro _ ⟨⟩⟩
  rintro _ ⟨⟩ settled' hsettled' ⟨-, body, hbody, hescaped⟩
  cases hsettled.symm.trans hsettled'
  exact hescaped (by simpa using List.all_eq_true.mp hmarks _ hbody)

/-- A letter with a name in it, and the age of someone, as a number or in words. -/
def letter : Declarations where
  next := 1
  finished := [(0, [("name", ⟨.string, true, none⟩), ("text", ⟨.string, true, none⟩),
    ("age", ⟨.choice "Age" [.integer, .string], true, none⟩)])]

def letterText (text : String) : Object := .ofPayload .string (.template text)

def letterAge (text : String) : Object :=
  .ofPayload (.choice "Age" [.integer, .string]) (.untyped (.scalar (.string text)))

/-- Both alternatives take an age with placeholders as a template. -/
theorem letterAge_candidate {text : String} (h : Readable text) {t : Ty} (ht : t ∈ (letterAge text).ty.alternatives)
    {c : Object} (hc : t.constructDraft letter (.scalar (.string text)) = .ok c) :
    c = .ofPayload t (.template text) := by
  have hscalar : t.isScalar = true := by
    obtain rfl | ht := List.mem_cons.mp ht
    · rfl
    · rw [List.mem_singleton.mp ht]
      rfl
  rw [constructDraft_readable h hscalar] at hc
  exact (Except.ok.inj hc).symm

def letterObject (text age : String) (scopes : List Scope) : Object :=
  ⟨.struct 0 "Letter", .struct [("name", some (.ofPayload .string (.scalar (.string "Al")))),
    ("text", some (letterText text)), ("age", some (letterAge age))], scopes, []⟩

/-- A placeholder that has been escaped beside one that is left is resolved the second time. -/
theorem interpolate_again_escaped :
    (letterText "\x7b\x7b&a\x7d\x7d \x7b\x7bb\x7d\x7d").interpolate letter =
      .ok (letterText "\x7b\x7ba\x7d\x7d \x7b\x7bb\x7d\x7d", [.ofName "b"]) ∧
    (letterText "\x7b\x7ba\x7d\x7d \x7b\x7bb\x7d\x7d").interpolate letter =
      .ok (letterText "\x7b\x7ba\x7d\x7d \x7b\x7bb\x7d\x7d", [.ofName "a", .ofName "b"]) :=
  ⟨by cbv, by cbv⟩

def letterOpen : Object := letterObject "Dear \x7b\x7bname\x7d\x7d, \x7b\x7bhow\x7d\x7d" "\x7b\x7byears\x7d\x7d"
  [.environment ⟨[(.ofName "years", .text "\x7b\x7bsince\x7d\x7d")]⟩]

def letterLeft : Object := letterObject "Dear Al, \x7b\x7bhow\x7d\x7d" "\x7b\x7bsince\x7d\x7d" []

/-- What is left of a letter stays, in a text and in a choice that has not settled. -/
theorem interpolate_again_letter :
    letterOpen.interpolate letter = .ok (letterLeft, [.ofName "how", .ofName "since"]) ∧
    letterLeft.interpolate letter = .ok (letterLeft, [.ofName "how", .ofName "since"]) := by
  have hsteady : letterOpen.Steady letter := by
    refine steady_iff.mpr ⟨by rintro _ ⟨⟩, by rintro _ ⟨⟩, fun p hp => ?_, by rintro _ ⟨⟩⟩
    obtain ⟨name, hm⟩ := Payload.mem_parts_struct.mp hp
    simp only [List.mem_cons, Prod.mk.injEq, Option.some.injEq, List.not_mem_nil, or_false] at hm
    obtain ⟨-, rfl⟩ | ⟨-, rfl⟩ | ⟨-, rfl⟩ := hm
    · exact steady_scalar
    · exact steady_template (by cbv) (by cbv)
    · refine steady_iff.mpr ⟨by rintro _ ⟨⟩, by rintro _ ⟨⟩, by rintro _ ⟨⟩, ?_⟩
      rintro draft ⟨⟩ t ht c hc
      obtain rfl := letterAge_candidate ⟨by cbv, _, by cbv⟩ ht hc
      exact steady_template (by cbv) (by cbv)
  have h : letterOpen.interpolate letter = .ok (letterLeft, [.ofName "how", .ofName "since"]) := by cbv
  exact ⟨h, interpolate_again hsteady h⟩

end Object

end TypedTemplate
