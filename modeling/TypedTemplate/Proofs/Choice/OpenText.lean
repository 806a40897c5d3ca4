import TypedTemplate.Object.Check
import TypedTemplate.Proofs.Object.Budget
import TypedTemplate.Proofs.Object.Parts
import TypedTemplate.Proofs.Template.Settled

/-!
# Open texts in choices

A choice may be left with a text whose references are not bound. Checking it tries the alternatives for the first one
that passes, and interpolating it for the first one that can be interpolated. All alternatives that take the text
resolve it against the same scopes, so that the two agree.
-/

namespace TypedTemplate

/-- A scalar that cannot be converted is refused with its text and the name of the type. -/
theorem Ty.coerce_error {t : Ty} {s : Scalar} {e : Error} (h : t.coerce s = .error e) :
    ∃ cause, e = { Error.typeCoercion s.toString t.name with cause := cause } := by
  cases t <;> simp only [coerce] at h
  case enum name values =>
    split at h
    · split at h
      · cases h
      · cases h
        exact ⟨_, rfl⟩
    · cases h
      exact ⟨_, rfl⟩
  case string | integer | float | boolean =>
    split at h
    · cases h
    · cases h
      exact ⟨_, rfl⟩
  all_goals
    cases h
    exact ⟨_, rfl⟩

variable (d : Declarations)

namespace Object

def resolveAt (n : Nat) (scopes : List Scope) (text : String) : Except Error (String × List Ref) :=
  Template.resolve (lookupBy d (interpolateWithin d n) 0 scopes) text

theorem resolveAt_approximates {m n : Nat} (h : m ≤ n) (scopes : List Scope) (text : String) :
    Approximates (resolveAt d m scopes text) (resolveAt d n scopes text) :=
  Template.resolve_approximates (lookupBy_approximates d (interpolateWithin_approximates d h) 0 scopes) text

/-- An alternative takes an open text as a template, or as the text of a choice again. -/
theorem constructDraft_open {t : Ty} {text : String} (hopen : Template.Open text) {o : Object}
    (h : t.constructDraft d (.scalar (.string text)) = .ok o) :
    t.isScalar = true ∧ o = .ofPayload t (.template text) ∨
      ∃ name alternatives, t = .choice name alternatives ∧ o = .ofPayload t (.untyped (.scalar (.string text))) := by
  cases t <;> simp only [Ty.constructDraft, reduceCtorEq, Except.ok.injEq] at h
  case choice name alternatives => exact .inr ⟨name, alternatives, rfl, h.symm⟩
  all_goals
    left
    simp only [Ty.constructScalar, hopen.hasPlaceholder, ↓reduceIte] at h
    obtain ⟨fs, -, h⟩ := Except.bind_ok h
    cases h
    exact ⟨rfl, rfl⟩

theorem providedAll_nil (o : Object) : o.providedAll [] = o := by
  obtain ⟨ty, payload, scopes, provided⟩ := o
  simp [providedAll]

/-! ## One alternative after the other -/

/-- Either nothing is left and the check passes, or the value does not fit and the check fails, or neither comes to an
end within the budget. -/
def Agree (i : Interpolated) (c : Checked) : Prop :=
  (∃ r, i = .ok (r, []) ∧ c = .ok .pass) ∨
    (∃ e value target message, i = .error e ∧ e.kind = .typeCoercion value target ∧ c = .ok (.fail message)) ∨
    Exhausted i ∧ Exhausted c

/-- References are left or there is an error, and the check does not pass. -/
def Unfinished (i : Interpolated) (c : Checked) : Prop := (∀ r, i ≠ .ok (r, [])) ∧ c ≠ .ok .pass

section

variable {d} {eval : Object → Interpolated} {sub : Object → Checked} {scopes : List Scope} {draft : Draft}

theorem alternatives_agree (h : ∀ t o, Ty.constructDraft d t draft = .ok o →
    Agree (eval (o.inScopeAll scopes)) (sub (o.inScopeAll scopes))) (t : Ty) (ts : List Ty) :
    Agree (settleChoice d eval scopes t draft ts)
      (checkAlternatives d sub (fun o => (o.inScopeAll scopes).providedAll []) t draft ts) := by
  induction ts with
  | nil => exact .inr (.inl ⟨_, _, _, _, rfl, rfl, rfl⟩)
  | cons alternative rest ih =>
      cases hcandidate : alternative.constructDraft d draft with
      | error e =>
          simp only [settleChoice, checkAlternatives, hcandidate]
          exact ih
      | ok candidate =>
          simp only [settleChoice, checkAlternatives, hcandidate]
          rw [providedAll_nil]
          rcases h alternative candidate hcandidate with ⟨r, hi, hc⟩ | ⟨e, v, n, m, hi, hk, hc⟩ | ⟨⟨e, hi, hk⟩, e', hc, hk'⟩
          · rw [hi, hc]
            refine .inl ⟨.ofPayload t (.typed r), ?_, rfl⟩
            dsimp only
            split
            · contradiction
            · rfl
          · rw [hi, hc]
            simp only [hk]
            exact ih
          · rw [hi, hc]
            simp only [hk]
            exact .inr (.inr ⟨⟨e, rfl, hk⟩, e', rfl, hk'⟩)

theorem alternatives_unfinished (h : ∀ t o, Ty.constructDraft d t draft = .ok o →
    Unfinished (eval (o.inScopeAll scopes)) (sub (o.inScopeAll scopes))) (t : Ty) (ts : List Ty) :
    Unfinished (settleChoice d eval scopes t draft ts)
      (checkAlternatives d sub (fun o => (o.inScopeAll scopes).providedAll []) t draft ts) := by
  induction ts with
  | nil => simp [Unfinished, settleChoice, checkAlternatives]
  | cons alternative rest ih =>
      cases hcandidate : alternative.constructDraft d draft with
      | error e =>
          simp only [settleChoice, checkAlternatives, hcandidate]
          exact ih
      | ok candidate =>
          obtain ⟨hi, hc⟩ := h alternative candidate hcandidate
          simp only [settleChoice, checkAlternatives, hcandidate]
          rw [providedAll_nil]
          constructor
          · intro r hr
            split at hr
            · rename_i resolved left hresolved
              split at hr
              · cases hr
              · cases hr
                exact hi _ hresolved
            · split at hr
              · exact ih.1 r hr
              · cases hr
          · intro hpass
            obtain ⟨c, hsub, hpass⟩ := Except.bind_ok hpass
            cases c with
            | pass => exact hc hsub
            | fail message => exact ih.2 hpass

end

/-! ## Alternatives that take an open text -/

section

variable {d} {scopes : List Scope} {text : String}

theorem interpolateWithin_template (n : Nat) (t : Ty) (scopes : List Scope) (text : String) :
    interpolateWithin d (n + 1) 0 ((ofPayload t (.template text)).inScopeAll scopes) =
      (resolveTemplate d (interpolateWithin d n) 0 scopes t text).map fun (o, refs) => (o, distinct refs) := by
  simp only [inScopeAll, ofPayload, List.nil_append, interpolateWithin, interpolateIn, List.append_nil,
    interpolatePayload]
  cases resolveTemplate d (interpolateWithin d n) 0 scopes t text <;> rfl

theorem checkWithin_template (n : Nat) (t : Ty) (scopes : List Scope) (text : String) :
    checkWithin d (n + 1) ((ofPayload t (.template text)).inScopeAll scopes) = checkScalar d []
      ((resolveTemplate d (interpolateWithin d n) 0 scopes t text).map fun (o, refs) => (o, distinct refs)) := by
  simp only [inScopeAll, ofPayload, List.nil_append, checkWithin, checkIn, List.append_nil, checkPayload,
    interpolatePayload]

theorem interpolateWithin_untyped (n : Nat) (t : Ty) (scopes : List Scope) (draft : Draft) :
    interpolateWithin d (n + 1) 0 ((ofPayload t (.untyped draft)).inScopeAll scopes) =
      (settleChoice d (interpolateWithin d n 0) scopes t draft t.alternatives).map
        fun (o, refs) => (o, distinct refs) := by
  simp only [inScopeAll, ofPayload, List.nil_append, interpolateWithin, interpolateIn, List.append_nil,
    interpolatePayload]
  cases settleChoice d (interpolateWithin d n 0) scopes t draft t.alternatives <;> rfl

theorem checkWithin_untyped (n : Nat) (t : Ty) (scopes : List Scope) (draft : Draft) :
    checkWithin d (n + 1) ((ofPayload t (.untyped draft)).inScopeAll scopes) =
      checkAlternatives d (checkWithin d n) (fun o => (o.inScopeAll scopes).providedAll []) t draft t.alternatives := by
  simp only [inScopeAll, ofPayload, List.nil_append, checkWithin, checkIn, List.append_nil, checkPayload]

theorem Agree.map {i : Interpolated} {c : Checked} (h : Agree i c) :
    Agree (i.map fun (o, refs) => (o, distinct refs)) c := by
  rcases h with ⟨r, rfl, hc⟩ | ⟨e, v, n, m, rfl, hk, hc⟩ | ⟨⟨e, rfl, hk⟩, hc⟩
  · exact .inl ⟨r, rfl, hc⟩
  · exact .inr (.inl ⟨e, v, n, m, rfl, hk, hc⟩)
  · exact .inr (.inr ⟨⟨e, rfl, hk⟩, hc⟩)

theorem Unfinished.map {i : Interpolated} {c : Checked} (h : Unfinished i c) :
    Unfinished (i.map fun (o, refs) => (o, distinct refs)) c := by
  refine ⟨fun r hr => ?_, h.2⟩
  cases i with
  | error e => cases hr
  | ok result =>
      obtain ⟨o, refs⟩ := result
      simp only [Except.map, Except.ok.injEq, Prod.mk.injEq, distinct_eq_nil] at hr
      exact h.1 o (by rw [hr.2])

theorem checkScalar_agree {i : Interpolated} (h : Exhausted i ∨ (∃ r, i = .ok (r, [])) ∨
    ∃ e value target, i = .error e ∧ e.kind = .typeCoercion value target) : Agree i (checkScalar d [] i) := by
  rcases h with ⟨e, rfl, hk⟩ | ⟨r, rfl⟩ | ⟨e, value, target, rfl, hk⟩
  · exact .inr (.inr ⟨⟨e, rfl, hk⟩, e, by simp [checkScalar, hk], hk⟩)
  · exact .inl ⟨r, rfl, rfl⟩
  · exact .inr (.inl ⟨e, value, target, s!"Unable to interpolate: {e.summary}", rfl, hk, by simp [checkScalar, hk]⟩)

theorem checkScalar_unfinished {i : Interpolated} (h : ∀ r, i ≠ .ok (r, [])) : Unfinished i (checkScalar d [] i) := by
  refine ⟨h, ?_⟩
  cases i with
  | error e =>
      simp only [checkScalar]
      split <;> simp
  | ok result =>
      obtain ⟨o, refs⟩ := result
      cases refs with
      | nil => exact absurd rfl (h o)
      | cons r rest => simp [checkScalar]

/-- Where the scopes leave nothing of the text, interpolation and check of an alternative agree. -/
theorem offer_agree (hopen : Template.Open text) {joined : String}
    (hjoined : ∀ n, Approximates (resolveAt d n scopes text) (.ok (joined, []))) (n : Nat) (t : Ty) (o : Object)
    (ho : t.constructDraft d (.scalar (.string text)) = .ok o) :
    Agree (interpolateWithin d n 0 (o.inScopeAll scopes)) (checkWithin d n (o.inScopeAll scopes)) := by
  induction n generalizing t o with
  | zero => exact .inr (.inr ⟨⟨_, rfl, rfl⟩, _, rfl, rfl⟩)
  | succ n ih =>
      rcases constructDraft_open d hopen ho with ⟨ht, rfl⟩ | ⟨name, alternatives, rfl, rfl⟩
      · rw [interpolateWithin_template, checkWithin_template]
        apply checkScalar_agree
        rcases hjoined n with ⟨e, he, hk⟩ | heq
        · refine .inl ⟨e, ?_, hk⟩
          rw [resolveTemplate, ← resolveAt, he]
          rfl
        · right
          rw [resolveTemplate, ← resolveAt, heq]
          cases hs : t.coerce (.string joined) with
          | ok s => exact .inl ⟨.ofPayload t (.scalar s), by simp [hs, bind, Except.bind, pure, Except.pure]; rfl⟩
          | error e =>
              obtain ⟨cause, rfl⟩ := Ty.coerce_error hs
              exact .inr ⟨_, _, _, by simp [hs, bind, Except.bind]; rfl, rfl⟩
      · rw [interpolateWithin_untyped, checkWithin_untyped]
        exact (alternatives_agree ih _ _).map

/-- Where the scopes leave something of the text, no alternative comes to an end. -/
theorem offer_unfinished (hopen : Template.Open text) (hleft : ∀ n joined, resolveAt d n scopes text ≠ .ok (joined, []))
    (n : Nat) (t : Ty) (o : Object) (ho : t.constructDraft d (.scalar (.string text)) = .ok o) :
    Unfinished (interpolateWithin d n 0 (o.inScopeAll scopes)) (checkWithin d n (o.inScopeAll scopes)) := by
  induction n generalizing t o with
  | zero => simp [Unfinished, interpolateWithin, checkWithin]
  | succ n ih =>
      rcases constructDraft_open d hopen ho with ⟨ht, rfl⟩ | ⟨name, alternatives, rfl, rfl⟩
      · rw [interpolateWithin_template, checkWithin_template]
        apply checkScalar_unfinished
        intro r hr
        rw [resolveTemplate, ← resolveAt] at hr
        cases hres : resolveAt d n scopes text with
        | error e =>
            rw [hres] at hr
            cases hr
        | ok result =>
            obtain ⟨joined, unbound⟩ := result
            cases unbound with
            | nil => exact hleft n joined hres
            | cons r' rest =>
                rw [hres] at hr
                simp [Except.map, bind, Except.bind, pure, Except.pure, distinct_eq_nil] at hr
      · rw [interpolateWithin_untyped, checkWithin_untyped]
        exact (alternatives_unfinished ih _ _).map

/-- Checking a choice that holds an open text passes exactly if interpolating it leaves nothing. -/
theorem checkAlternatives_open (hopen : Template.Open text) (n : Nat) (t : Ty) (ts : List Ty) :
    checkAlternatives d (checkWithin d n) (fun o => (o.inScopeAll scopes).providedAll []) t (.scalar (.string text)) ts
      = .ok .pass ↔
    ∃ r, settleChoice d (interpolateWithin d n 0) scopes t (.scalar (.string text)) ts = .ok (r, []) := by
  by_cases h : ∃ m joined, resolveAt d m scopes text = .ok (joined, [])
  · obtain ⟨m, joined, hm⟩ := h
    have hjoined : ∀ n, Approximates (resolveAt d n scopes text) (.ok (joined, [])) := by
      intro n
      rcases Nat.le_total n m with hn | hn
      · exact hm ▸ resolveAt_approximates d hn scopes text
      · have happrox := resolveAt_approximates d hn scopes text
        rw [hm] at happrox
        rw [happrox.eq_of_ok]
        exact .refl _
    rcases alternatives_agree (offer_agree hopen hjoined n) t ts with
      ⟨r, hi, hc⟩ | ⟨e, v, n, m, hi, hk, hc⟩ | ⟨⟨e, hi, hk⟩, e', hc, hk'⟩ <;> simp [hi, hc]
  · simp only [not_exists] at h
    obtain ⟨hi, hc⟩ := alternatives_unfinished (offer_unfinished hopen h n) t ts
    simp [hi, hc]

end

end Object

end TypedTemplate
