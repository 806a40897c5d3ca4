import TypedTemplate.Proofs.Choice.OpenText
import TypedTemplate.Proofs.Object.Compare
import TypedTemplate.Proofs.Object.Missing

/-!
# Choices once more

Whether a choice settles again as it did before is a matter of its alternatives: each must come to the same, or fail in
a way that the choice passes over, as it did before. Where the choice holds a text, they do so if the text is resolved
to the same.
-/

namespace TypedTemplate

namespace Object

variable {d : Declarations}

/-! ## Alternatives -/

section

variable {eval eval' : Object → Interpolated} {c c' : List Scope} {draft draft' : Draft}

section

variable {t alternative : Ty} {rest : List Ty} {o : Object} {e : Error}

theorem settleChoice_refused (h : alternative.constructDraft d draft = .error e) :
    settleChoice d eval c t draft (alternative :: rest) = settleChoice d eval c t draft rest := by
  simp only [settleChoice, h]

theorem settleChoice_passed (ho : alternative.constructDraft d draft = .ok o)
    (h : eval (o.inScopeAll c) = .error e) (hk : e.IsCoercion) :
    settleChoice d eval c t draft (alternative :: rest) = settleChoice d eval c t draft rest := by
  obtain ⟨value, target, hk⟩ := hk
  simp only [settleChoice, ho, h, hk]

theorem settleChoice_failed (ho : alternative.constructDraft d draft = .ok o)
    (h : eval (o.inScopeAll c) = .error e) (hk : ¬ e.IsCoercion) :
    settleChoice d eval c t draft (alternative :: rest) = .error e := by
  simp only [settleChoice, ho, h]
  split
  · rename_i value target hkind
    exact absurd ⟨value, target, hkind⟩ hk
  · rfl

end

/-- Where each alternative takes both drafts and repeats what it makes of the first one, so does the choice. -/
theorem settleChoice_again (h : ∀ alternative : Ty,
      ((∃ e, alternative.constructDraft d draft = .error e) ∧ ∃ e, alternative.constructDraft d draft' = .error e) ∨
      ∃ o o', alternative.constructDraft d draft = .ok o ∧ alternative.constructDraft d draft' = .ok o' ∧
        Again (eval (o.inScopeAll c)) (eval' (o'.inScopeAll c'))) (t : Ty) (ts : List Ty) :
    Again (settleChoice d eval c t draft ts) (settleChoice d eval' c' t draft' ts) := by
  induction ts with
  | nil => exact .of_coercion rfl rfl ⟨_, _, rfl⟩
  | cons alternative rest ih =>
      rcases h alternative with ⟨⟨e, he⟩, e', he'⟩ | ⟨o, o', ho, ho', hagain⟩
      · rw [settleChoice_refused he, settleChoice_refused he']
        exact ih
      · cases hx : eval (o.inScopeAll c) with
        | ok v => simp only [settleChoice, ho, ho', hx, hagain.1 v hx, Again.refl]
        | error e =>
            by_cases hk : e.IsCoercion
            · obtain ⟨e', he', hk'⟩ := hagain.2 e hx hk
              rw [settleChoice_passed ho hx hk, settleChoice_passed ho' he' hk']
              exact ih
            · exact .of_error (settleChoice_failed ho hx hk) hk

/-- A choice fails because no alternative fits, or with the error of an alternative. -/
theorem settleChoice_error {t : Ty} {ts : List Ty} {e : Error} (h : settleChoice d eval c t draft ts = .error e) :
    e.IsCoercion ∨ ∃ alternative ∈ ts, ∃ o, alternative.constructDraft d draft = .ok o ∧
      eval (o.inScopeAll c) = .error e := by
  induction ts with
  | nil =>
      cases h
      exact .inl ⟨_, _, rfl⟩
  | cons alternative rest ih =>
      have hrest : settleChoice d eval c t draft rest = .error e → e.IsCoercion ∨ ∃ alternative' ∈ alternative :: rest,
          ∃ o, alternative'.constructDraft d draft = .ok o ∧ eval (o.inScopeAll c) = .error e :=
        fun h => (ih h).imp_right fun ⟨t, ht, o, ho⟩ => ⟨t, List.mem_cons_of_mem _ ht, o, ho⟩
      cases ho : alternative.constructDraft d draft with
      | error e' => exact hrest ((settleChoice_refused ho).symm.trans h)
      | ok o =>
          cases hx : eval (o.inScopeAll c) with
          | ok v =>
              simp only [settleChoice, ho, hx] at h
              split at h <;> cases h
          | error e' =>
              by_cases hk : e'.IsCoercion
              · exact hrest ((settleChoice_passed ho hx hk).symm.trans h)
              · cases (settleChoice_failed ho hx hk).symm.trans h
                exact .inr ⟨alternative, by simp, o, ho, hx⟩

/-- A choice only fails with a coercion error if all alternatives that take the draft do. -/
theorem settleChoice_coercion {t : Ty} {ts : List Ty} {e : Error} (h : settleChoice d eval c t draft ts = .error e)
    (hk : e.IsCoercion) : ∀ alternative ∈ ts, ∀ o, alternative.constructDraft d draft = .ok o →
      ∃ e', eval (o.inScopeAll c) = .error e' ∧ e'.IsCoercion := by
  induction ts with
  | nil => rintro _ ⟨⟩
  | cons alternative rest ih =>
      rw [List.forall_mem_cons]
      cases ho : alternative.constructDraft d draft with
      | error e' => exact ⟨by rintro _ ⟨⟩, ih ((settleChoice_refused ho).symm.trans h)⟩
      | ok o =>
          cases hx : eval (o.inScopeAll c) with
          | ok v =>
              simp only [settleChoice, ho, hx] at h
              split at h <;> cases h
          | error e' =>
              by_cases hk' : e'.IsCoercion
              · refine ⟨?_, ih ((settleChoice_passed ho hx hk').symm.trans h)⟩
                rintro _ ⟨⟩
                exact ⟨e', hx, hk'⟩
              · cases (settleChoice_failed ho hx hk').symm.trans h
                exact absurd hk hk'

/-- A choice that settles without a reference left settles in the same way again, if each alternative that it has passed
over fails again, and the one that it has settled for is repeated. -/
theorem settleChoice_closed {t : Ty} {ts : List Ty} {inner : Object}
    (hpassed : ∀ alternative ∈ ts, ∀ o, alternative.constructDraft d draft = .ok o → ∀ e,
      eval (o.inScopeAll c) = .error e → e.IsCoercion → ∃ e', eval' (o.inScopeAll c') = .error e')
    (hsettled : ∀ alternative ∈ ts, ∀ o, alternative.constructDraft d draft = .ok o →
      eval (o.inScopeAll c) = .ok (inner, []) → Again (eval' (o.inScopeAll c')) (.ok (inner, [])))
    (h : settleChoice d eval c t draft ts = .ok (.ofPayload t (.typed inner), [])) :
    Again (settleChoice d eval' c' t draft ts) (.ok (.ofPayload t (.typed inner), [])) := by
  induction ts with
  | nil => cases h
  | cons alternative rest ih =>
      have hrest := ih (fun t ht => hpassed t (List.mem_cons_of_mem _ ht))
        fun t ht => hsettled t (List.mem_cons_of_mem _ ht)
      cases ho : alternative.constructDraft d draft with
      | error e =>
          rw [settleChoice_refused ho] at h ⊢
          exact hrest h
      | ok o =>
          cases hx : eval (o.inScopeAll c) with
          | error e =>
              by_cases hk : e.IsCoercion
              · rw [settleChoice_passed ho hx hk] at h
                obtain ⟨e', he'⟩ := hpassed alternative (by simp) o ho e hx hk
                by_cases hk' : e'.IsCoercion
                · rw [settleChoice_passed ho he' hk']
                  exact hrest h
                · exact .of_error (settleChoice_failed ho he' hk') hk'
              · cases (settleChoice_failed ho hx hk).symm.trans h
          | ok v =>
              obtain ⟨inner', left⟩ := v
              simp only [settleChoice, ho, hx] at h
              have hv : inner' = inner ∧ left = [] := by
                split at h <;> cases h
                exact ⟨rfl, rfl⟩
              obtain ⟨rfl, rfl⟩ := hv
              have hagain := hsettled alternative (by simp) o ho hx
              cases hx' : eval' (o.inScopeAll c') with
              | ok v =>
                  cases hagain.1 v hx'
                  simp only [settleChoice, ho, hx']
                  split
                  · rename_i heq
                    cases heq
                  · exact .refl _
              | error e =>
                  by_cases hk : e.IsCoercion
                  · obtain ⟨_, ⟨⟩, -⟩ := hagain.2 e hx' hk
                  · exact .of_error (settleChoice_failed ho hx' hk) hk

end

/-! ## Texts -/

/-- A text with placeholders that can be read. -/
def Readable (text : String) : Prop := hasPlaceholder text = true ∧ ∃ fs, Fragment.split false text = .ok fs

theorem constructDraft_readable {text : String} (h : Readable text) {t : Ty} (ht : t.isScalar = true) :
    t.constructDraft d (.scalar (.string text)) = .ok (.ofPayload t (.template text)) := by
  obtain ⟨hplaceholder, fs, hfs⟩ := h
  cases t with
  | list | map | struct | choice => cases ht
  | _ => simp [Ty.constructDraft, Ty.constructScalar, hplaceholder, hfs, bind, Except.bind, pure, Except.pure]

section

variable {c c' : List Scope} {first text : String}

/-- Where the second text is resolved to what the first one is, an alternative makes the same of it. -/
theorem offer_again (hfirst : Readable first) (htext : Readable text)
    (hresolve : ∀ m n, m ≤ n → n ≤ budget → Again (resolveAt d m c first) (resolveAt d n c' text)) {m n : Nat}
    (hmn : m ≤ n) (hn : n ≤ budget) (t : Ty) :
    ((∃ e, t.constructDraft d (.scalar (.string first)) = .error e) ∧
      ∃ e, t.constructDraft d (.scalar (.string text)) = .error e) ∨
    ∃ o o', t.constructDraft d (.scalar (.string first)) = .ok o ∧
      t.constructDraft d (.scalar (.string text)) = .ok o' ∧
      Again (interpolateWithin d m 0 (o.inScopeAll c)) (interpolateWithin d n 0 (o'.inScopeAll c')) := by
  induction m generalizing n t with
  | zero =>
      have hnever : ∀ o y, Again (interpolateWithin d 0 0 o) y := fun o y => .of_error rfl (by rintro ⟨_, _, ⟨⟩⟩)
      cases t with
      | list | map | struct => exact .inl ⟨⟨_, rfl⟩, _, rfl⟩
      | choice => exact .inr ⟨_, _, rfl, rfl, hnever _ _⟩
      | _ => exact .inr ⟨_, _, constructDraft_readable hfirst rfl, constructDraft_readable htext rfl, hnever _ _⟩
  | succ m ih =>
      obtain ⟨n, rfl⟩ : ∃ k, n = k + 1 := ⟨n - 1, by omega⟩
      have hm : m ≤ n := Nat.le_of_succ_le_succ hmn
      have htemplate : ∀ t : Ty, Again (interpolateWithin d (m + 1) 0 ((ofPayload t (.template first)).inScopeAll c))
          (interpolateWithin d (n + 1) 0 ((ofPayload t (.template text)).inScopeAll c')) := by
        intro t
        rw [interpolateWithin_template, interpolateWithin_template]
        exact ((hresolve m n hm (Nat.le_of_succ_le hn)).bind fun _ => .refl _).map _
      cases t with
      | list | map | struct => exact .inl ⟨⟨_, rfl⟩, _, rfl⟩
      | choice name alternatives =>
          refine .inr ⟨_, _, rfl, rfl, ?_⟩
          rw [interpolateWithin_untyped, interpolateWithin_untyped]
          exact (settleChoice_again (fun alternative => ih hm (Nat.le_of_succ_le hn) alternative) _ _).map _
      | _ =>
          exact .inr ⟨_, _, constructDraft_readable hfirst rfl, constructDraft_readable htext rfl, htemplate _⟩

theorem readable_of_constructScalar {t : Ty} {s : Scalar} {o : Object} (h : t.constructScalar s = .ok o) :
    (∃ s', o = .ofPayload t (.scalar s')) ∨
      ∃ first, s = .string first ∧ Readable first ∧ o = .ofPayload t (.template first) := by
  rcases Ty.constructScalar_ok h with ⟨s', -, rfl⟩ | ⟨first, rfl⟩
  · exact .inl ⟨s', rfl⟩
  · right
    cases s with
    | string text =>
        simp only [Ty.constructScalar] at h
        split at h
        · rename_i hplaceholder
          obtain ⟨fs, hfs, h⟩ := Except.bind_ok h
          cases h
          exact ⟨first, rfl, ⟨hplaceholder, fs, hfs⟩, rfl⟩
        · obtain ⟨_, _, h⟩ := Except.bind_ok h
          cases h
    | _ =>
        obtain ⟨_, _, h⟩ := Except.bind_ok h
        cases h

theorem template_of_interpolateIn {eval : Nat → Object → Interpolated} {depth : Nat} {o r : Object} {refs : List Ref}
    (h : interpolateIn d eval depth c o = .ok (r, refs)) (hr : r.payload = .template text) :
    ∃ first, o.payload = .template first := by
  obtain ⟨t, payload, own, provided⟩ := o
  cases payload with
  | template first => exact ⟨first, rfl⟩
  | scalar s =>
      obtain rfl := interpolateIn_scalar h
      cases hr
  | list elements =>
      obtain ⟨_, rfl, -⟩ := interpolateIn_list h
      cases hr
  | map pairs =>
      obtain ⟨_, rfl, -⟩ := interpolateIn_map h
      cases hr
  | struct fields =>
      obtain ⟨_, rfl, -⟩ := interpolateIn_struct h
      cases hr
  | typed inner =>
      obtain ⟨_, rfl, -⟩ := interpolateIn_typed h
      cases hr
  | untyped draft =>
      obtain ⟨left, h, -⟩ := interpolateIn_ok h
      obtain ⟨_, -, _, _, -, -, rfl | ⟨_, -, -, rfl⟩⟩ := settleChoice_ok h <;> cases hr

/-- A text is only left of a text with placeholders. -/
theorem readable_of_template {n : Nat} {draft : Draft} {t : Ty} {o inner : Object} {refs : List Ref}
    (ho : t.constructDraft d draft = .ok o) (h : interpolateWithin d (n + 1) 0 (o.inScopeAll c) = .ok (inner, refs))
    (hinner : inner.payload = .template text) : ∃ first, draft = .scalar (.string first) ∧ Readable first ∧
      o = .ofPayload t (.template first) ∧ ∃ left, resolveAt d n c first = .ok (text, left) ∧ left ≠ [] := by
  rw [interpolateWithin, interpolateIn_inScopeAll, List.append_nil] at h
  obtain ⟨-, hkind⟩ := Ty.constructDraft_payload ho
  obtain ⟨shown, hshown⟩ := template_of_interpolateIn h hinner
  cases t with
  | list | map | struct =>
      obtain ⟨_, hpayload⟩ := hkind
      rw [hpayload] at hshown
      cases hshown
  | choice =>
      rw [show o.payload = _ from hkind] at hshown
      cases hshown
  | _ =>
      obtain ⟨s, rfl, hs⟩ := hkind
      rcases readable_of_constructScalar hs with ⟨s', rfl⟩ | ⟨first, rfl, hfirst, rfl⟩
      · obtain rfl := interpolateIn_scalar h
        cases hinner
      · refine ⟨first, rfl, hfirst, rfl, ?_⟩
        rw [interpolateIn_eq] at h
        obtain ⟨⟨resolved, left⟩, hresolved, h⟩ := Except.bind_ok h
        cases h
        simp only [ofPayload, interpolatePayload, List.nil_append] at hresolved
        obtain ⟨⟨joined, unbound⟩, hjoined, hresolved⟩ := Except.bind_ok hresolved
        dsimp only at hresolved
        split at hresolved
        · obtain ⟨_, -, hresolved⟩ := Except.bind_ok hresolved
          cases hresolved
          cases hinner
        · rename_i hleft
          cases hresolved
          cases hinner
          exact ⟨_, hjoined, by simpa using hleft⟩

/-- A choice is only left with a text if it holds one, which one of its alternatives takes as a template. -/
theorem settleChoice_text {m : Nat} {t : Ty} {draft : Draft} {ts : List Ty} {refs : List Ref}
    (h : settleChoice d (interpolateWithin d m 0) c t draft ts =
      .ok (.ofPayload t (.untyped (.scalar (.string text))), refs)) :
    ∃ n first left, n < m ∧ draft = .scalar (.string first) ∧ Readable first ∧
      (∃ alternative ∈ ts, alternative.constructDraft d draft = .ok (.ofPayload alternative (.template first))) ∧
      resolveAt d n c first = .ok (text, left) ∧ left ≠ [] := by
  obtain ⟨alternative, hm, candidate, inner, hcandidate, hinner, heq | ⟨text', htext', -, heq⟩⟩ := settleChoice_ok h
  · cases heq
  cases heq
  cases m with
  | zero => cases hinner
  | succ n =>
      obtain ⟨first, rfl, hfirst, rfl, left, hleft, hne⟩ := readable_of_template hcandidate hinner htext'
      exact ⟨n, first, left, Nat.lt_succ_self n, rfl, hfirst, ⟨alternative, hm, hcandidate⟩, hleft, hne⟩

end

end Object

end TypedTemplate
