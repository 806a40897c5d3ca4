import TypedTemplate.Object.Interpolate
import TypedTemplate.Proofs.Entries
import TypedTemplate.Proofs.Outcome

/-!
# Interpolation part by part

What interpolation makes of an object keeps its kind, and each of its parts is what interpolation makes of the part in
the same place.
-/

namespace TypedTemplate

namespace Object

/-! ## References that are left -/

theorem mem_distinct {refs : List Ref} {r : Ref} : r ∈ distinct refs ↔ r ∈ refs := by
  have hgrows : ∀ refs seen : List Ref,
      r ∈ refs.foldl (fun seen r => if r ∈ seen then seen else seen ++ [r]) seen ↔ r ∈ seen ∨ r ∈ refs := by
    intro refs
    induction refs with
    | nil => simp
    | cons r' rest ih =>
        intro seen
        rw [List.foldl_cons, ih, List.mem_cons]
        split
        · rename_i hseen
          constructor
          · exact Or.imp_right .inr
          · rintro (h | rfl | h)
            · exact .inl h
            · exact .inl hseen
            · exact .inr h
        · rw [List.mem_append, List.mem_singleton, or_assoc]
  simpa [distinct] using hgrows refs []

theorem distinct_eq_nil {refs : List Ref} : distinct refs = [] ↔ refs = [] := by
  simp only [List.eq_nil_iff_forall_not_mem, mem_distinct]

/-! ## The parts -/

variable {d : Declarations} {eval : Nat → Object → Interpolated} {depth : Nat} {scopes : List Scope} {refs : List Ref}

theorem interpolateIn_eq {outer : List Scope} (o : Object) :
    interpolateIn d eval depth outer o = interpolatePayload d eval depth (o.scopes ++ outer) o.ty o.payload >>=
      fun result => pure (result.1, distinct result.2) := by
  obtain ⟨t, payload, scopes, own⟩ := o
  rw [interpolateIn]

/-- Interpolation makes the second object of the first one, and leaves none but the references. -/
def ComesTo (d : Declarations) (eval : Nat → Object → Interpolated) (depth : Nat) (scopes : List Scope)
    (refs : List Ref) (o resolved : Object) : Prop :=
  ∃ left, interpolateIn d eval depth scopes o = .ok (resolved, left) ∧ left ⊆ refs

theorem ComesTo.mono {refs' : List Ref} {o resolved : Object} (h : o.ComesTo d eval depth scopes refs resolved)
    (hrefs : refs ⊆ refs') : o.ComesTo d eval depth scopes refs' resolved := by
  obtain ⟨left, hleft, hsubset⟩ := h
  exact ⟨left, hleft, List.Subset.trans hsubset hrefs⟩

theorem ComesTo.eq_ok {o resolved : Object} (h : o.ComesTo d eval depth scopes [] resolved) :
    interpolateIn d eval depth scopes o = .ok (resolved, []) := by
  obtain ⟨left, hleft, hsubset⟩ := h
  rwa [List.subset_nil.mp hsubset] at hleft

theorem interpolateElements_ok {elements resolved : List Object}
    (h : interpolateElements d eval depth scopes elements = .ok (resolved, refs)) :
    List.Forall₂ (ComesTo d eval depth scopes refs) elements resolved := by
  induction elements generalizing resolved refs with
  | nil =>
      cases h
      exact .nil
  | cons o rest ih =>
      obtain ⟨⟨first, left⟩, hfirst, h⟩ := Except.bind_ok h
      obtain ⟨⟨others, otherLeft⟩, hothers, h⟩ := Except.bind_ok h
      cases h
      have hrest := (ih hothers).imp fun _ _ hr => hr.mono (List.subset_append_right left otherLeft)
      exact .cons ⟨left, hfirst, List.subset_append_left _ _⟩ hrest

theorem interpolatePairs_ok {pairs resolved : List (Object × Object)}
    (h : interpolatePairs d eval depth scopes pairs = .ok (resolved, refs)) :
    List.Forall₂ (fun pair pair' => ComesTo d eval depth scopes refs pair.1 pair'.1 ∧
      ComesTo d eval depth scopes refs pair.2 pair'.2) pairs resolved := by
  induction pairs generalizing resolved refs with
  | nil =>
      cases h
      exact .nil
  | cons pair rest ih =>
      obtain ⟨k, v⟩ := pair
      obtain ⟨⟨key, keyLeft⟩, hkey, h⟩ := Except.bind_ok h
      obtain ⟨⟨value, valueLeft⟩, hvalue, h⟩ := Except.bind_ok h
      obtain ⟨⟨others, otherLeft⟩, hothers, h⟩ := Except.bind_ok h
      cases h
      have hrest := (ih hothers).imp fun _ _ hr =>
        hr.imp (·.mono (List.subset_append_right (keyLeft ++ valueLeft) otherLeft))
          (·.mono (List.subset_append_right (keyLeft ++ valueLeft) otherLeft))
      exact .cons ⟨⟨keyLeft, hkey, by simp⟩, ⟨valueLeft, hvalue, by simp⟩⟩ hrest

theorem interpolateFields_ok {fields resolved : List (String × Option Object)}
    (h : interpolateFields d eval depth scopes fields = .ok (resolved, refs)) :
    List.Forall₂ (fun field field' => field.1 = field'.1 ∧
      Option.Rel (ComesTo d eval depth scopes refs) field.2 field'.2) fields resolved := by
  induction fields generalizing resolved refs with
  | nil =>
      cases h
      exact .nil
  | cons field rest ih =>
      obtain ⟨name, value⟩ := field
      cases value with
      | none =>
          obtain ⟨⟨others, otherLeft⟩, hothers, h⟩ := Except.bind_ok h
          cases h
          exact .cons ⟨rfl, .none⟩ (ih hothers)
      | some o =>
          obtain ⟨⟨first, left⟩, hfirst, h⟩ := Except.bind_ok h
          obtain ⟨⟨others, otherLeft⟩, hothers, h⟩ := Except.bind_ok h
          cases h
          have hrest := (ih hothers).imp fun _ _ hr =>
            hr.imp_right (Entries.rel_imp fun _ _ hr => hr.mono (List.subset_append_right left otherLeft))
          exact .cons ⟨rfl, .some ⟨left, hfirst, List.subset_append_left _ _⟩⟩ hrest

theorem inScopeAll_nil (o : Object) : o.inScopeAll [] = o := by
  obtain ⟨ty, payload, scopes, provided⟩ := o
  simp [inScopeAll]

theorem bindAll_of_scopes {o : Object} (h : o.scopes = []) (scopes : List Scope) :
    o.bindAll scopes = o.inScopeAll scopes.reverse := by simp [bindAll, inScopeAll, h]

theorem interpolateIn_inScopeAll {outer : List Scope} (o : Object) (scopes : List Scope) :
    interpolateIn d eval depth outer (o.inScopeAll scopes) = interpolateIn d eval depth (scopes ++ outer) o := by
  rw [interpolateIn_eq, interpolateIn_eq, inScopeAll, List.append_assoc]

/-! ## The payload -/

section

variable {outer own provided : List Scope} {t : Ty} {resolved : Object}

theorem interpolateIn_ok {o : Object} (h : interpolateIn d eval depth outer o = .ok (resolved, refs)) :
    ∃ left, interpolatePayload d eval depth (o.scopes ++ outer) o.ty o.payload = .ok (resolved, left) ∧ left ⊆ refs := by
  rw [interpolateIn_eq] at h
  obtain ⟨⟨r, left⟩, hleft, h⟩ := Except.bind_ok h
  cases h
  exact ⟨left, hleft, fun r hr => mem_distinct.mpr hr⟩

theorem interpolateIn_scalar {s : Scalar}
    (h : interpolateIn d eval depth outer ⟨t, .scalar s, own, provided⟩ = .ok (resolved, refs)) :
    resolved = .ofPayload t (.scalar s) := by
  cases h
  rfl

theorem interpolateIn_template {text : String}
    (h : interpolateIn d eval depth outer ⟨t, .template text, own, provided⟩ = .ok (resolved, refs)) :
    (∃ joined s, t.coerce (.string joined) = .ok s ∧ resolved = .ofPayload t (.scalar s)) ∨
      ∃ joined, resolved = .ofPayload t (.template joined) ∧ refs ≠ [] := by
  obtain ⟨left, h, hsubset⟩ := interpolateIn_ok h
  simp only [interpolatePayload] at h
  obtain ⟨⟨joined, unbound⟩, -, h⟩ := Except.bind_ok h
  dsimp only at h
  split at h
  · obtain ⟨s, hs, h⟩ := Except.bind_ok h
    cases h
    exact .inl ⟨joined, s, hs, rfl⟩
  · rename_i hunbound
    cases h
    refine .inr ⟨joined, rfl, ?_⟩
    rintro rfl
    exact hunbound (by simpa using List.subset_nil.mp hsubset)

theorem interpolateIn_list {elements : List Object}
    (h : interpolateIn d eval depth outer ⟨t, .list elements, own, provided⟩ = .ok (resolved, refs)) :
    ∃ others, resolved = .ofPayload t (.list others) ∧
      List.Forall₂ (ComesTo d eval depth (own ++ outer) refs) elements others := by
  obtain ⟨left, h, hsubset⟩ := interpolateIn_ok h
  obtain ⟨⟨others, otherLeft⟩, hothers, h⟩ := Except.bind_ok h
  cases h
  exact ⟨others, rfl, (interpolateElements_ok hothers).imp fun _ _ hr => hr.mono hsubset⟩

theorem interpolateIn_map {pairs : List (Object × Object)}
    (h : interpolateIn d eval depth outer ⟨t, .map pairs, own, provided⟩ = .ok (resolved, refs)) :
    ∃ others, resolved = .ofPayload t (.map others) ∧
      List.Forall₂ (fun pair pair' => ComesTo d eval depth (own ++ outer) refs pair.1 pair'.1 ∧
        ComesTo d eval depth (own ++ outer) refs pair.2 pair'.2) pairs others := by
  obtain ⟨left, h, hsubset⟩ := interpolateIn_ok h
  obtain ⟨⟨others, otherLeft⟩, hothers, h⟩ := Except.bind_ok h
  cases h
  exact ⟨others, rfl, (interpolatePairs_ok hothers).imp fun _ _ hr => hr.imp (·.mono hsubset) (·.mono hsubset)⟩

theorem interpolateIn_struct {fields : List (String × Option Object)}
    (h : interpolateIn d eval depth outer ⟨t, .struct fields, own, provided⟩ = .ok (resolved, refs)) :
    ∃ others, resolved = .ofPayload t (.struct others) ∧
      List.Forall₂ (fun field field' => field.1 = field'.1 ∧
        Option.Rel (ComesTo d eval depth (structScopes fields (own ++ outer)) refs) field.2 field'.2) fields others := by
  obtain ⟨left, h, hsubset⟩ := interpolateIn_ok h
  obtain ⟨⟨others, otherLeft⟩, hothers, h⟩ := Except.bind_ok h
  cases h
  refine ⟨others, rfl, (interpolateFields_ok hothers).imp fun _ _ hr => hr.imp_right ?_⟩
  exact Entries.rel_imp fun _ _ hr => hr.mono hsubset

theorem interpolateIn_typed {inner : Object}
    (h : interpolateIn d eval depth outer ⟨t, .typed inner, own, provided⟩ = .ok (resolved, refs)) :
    ∃ other, resolved = .ofPayload t (.typed other) ∧ ComesTo d eval depth (own ++ outer) refs inner other := by
  obtain ⟨left, h, hsubset⟩ := interpolateIn_ok h
  obtain ⟨⟨other, otherLeft⟩, hother, h⟩ := Except.bind_ok h
  cases h
  exact ⟨other, rfl, left, hother, hsubset⟩

/-- A choice settles for what one of its alternatives comes to, or for the text that is left of it. -/
theorem settleChoice_ok {eval : Object → Interpolated} {scopes : List Scope} {draft : Draft} {ts : List Ty}
    (h : settleChoice d eval scopes t draft ts = .ok (resolved, refs)) :
    ∃ alternative ∈ ts, ∃ candidate inner, alternative.constructDraft d draft = .ok candidate ∧
      eval (candidate.inScopeAll scopes) = .ok (inner, refs) ∧
      (resolved = .ofPayload t (.typed inner) ∨
        ∃ text, inner.payload = .template text ∧ refs ≠ [] ∧
          resolved = .ofPayload t (.untyped (.scalar (.string text)))) := by
  induction ts with
  | nil => cases h
  | cons alternative rest ih =>
      simp only [settleChoice] at h
      split at h
      · obtain ⟨alternative', hm, hsettled⟩ := ih h
        exact ⟨alternative', List.mem_cons_of_mem _ hm, hsettled⟩
      · rename_i candidate hcandidate
        split at h
        · rename_i inner left hinner
          refine ⟨alternative, by simp, candidate, inner, hcandidate, ?_⟩
          split at h
          · rename_i text r left' htext
            cases h
            exact ⟨hinner, .inr ⟨text, htext, by simp, rfl⟩⟩
          · cases h
            exact ⟨hinner, .inl rfl⟩
        · split at h
          · obtain ⟨alternative', hm, hsettled⟩ := ih h
            exact ⟨alternative', List.mem_cons_of_mem _ hm, hsettled⟩
          · cases h

theorem interpolateIn_ty {o : Object} (h : interpolateIn d eval depth outer o = .ok (resolved, refs)) :
    resolved.ty = o.ty := by
  obtain ⟨t, payload, own, provided⟩ := o
  cases payload with
  | scalar s =>
      obtain rfl := interpolateIn_scalar h
      rfl
  | template text =>
      rcases interpolateIn_template h with ⟨_, _, -, rfl⟩ | ⟨_, rfl, -⟩ <;> rfl
  | list elements =>
      obtain ⟨_, rfl, -⟩ := interpolateIn_list h
      rfl
  | map pairs =>
      obtain ⟨_, rfl, -⟩ := interpolateIn_map h
      rfl
  | struct fields =>
      obtain ⟨_, rfl, -⟩ := interpolateIn_struct h
      rfl
  | typed inner =>
      obtain ⟨_, rfl, -⟩ := interpolateIn_typed h
      rfl
  | untyped draft =>
      obtain ⟨left, h, -⟩ := interpolateIn_ok h
      obtain ⟨_, -, _, inner, -, -, rfl | ⟨text, -, -, rfl⟩⟩ := settleChoice_ok h <;> rfl

end

/-! ## Rendering -/

theorem render_scalar (d : Declarations) {o : Object} {s : Scalar} (h : o.payload = .scalar s) :
    o.render d = .ok s.toString := by
  obtain ⟨ty, payload, scopes, provided⟩ := o
  cases h
  rfl

end Object

end TypedTemplate
