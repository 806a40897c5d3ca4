import Mathlib.Data.List.Forall2
import TypedTemplate.Proofs.Object.Parts
import TypedTemplate.Proofs.Object.Shaped

/-!
# Two interpolations side by side

Interpolation takes the parts of an object one after the other. Whatever is true of two outcomes part by part, and is
kept when steps are put one behind the other, is true of the two objects.
-/

namespace TypedTemplate

/-- The relation between outcomes is kept by steps one behind the other. -/
structure Comparison (Q : ∀ α : Type, Except Error α → Except Error α → Prop) : Prop where
  ok {α : Type} (a : α) : Q α (.ok a) (.ok a)
  bind {α β : Type} {x y : Except Error α} {f g : α → Except Error β} :
    Q α x y → (∀ a, Q β (f a) (g a)) → Q β (x >>= f) (y >>= g)

theorem comparison_eq : Comparison fun _ x y => x = y where
  ok _ := rfl
  bind := by
    rintro _ _ x _ f g rfl h
    exact congrArg (x >>= ·) (funext h)

theorem comparison_again : Comparison fun _ => Again where
  ok _ := .refl _
  bind h hfg := h.bind hfg

namespace Object

variable {Q : ∀ α : Type, Except Error α → Except Error α → Prop} {d : Declarations}
variable {eval eval' : Nat → Object → Interpolated} {depth depth' : Nat} {c c' : List Scope}

theorem interpolateElements_compare (hQ : Comparison Q) {os os' : List Object}
    (h : List.Forall₂ (fun o o' => Q _ (interpolateIn d eval depth c o) (interpolateIn d eval' depth' c' o')) os os') :
    Q _ (interpolateElements d eval depth c os) (interpolateElements d eval' depth' c' os') := by
  induction h with
  | nil => exact hQ.ok _
  | cons ho _ ih =>
      rw [interpolateElements, interpolateElements]
      exact hQ.bind ho fun _ => hQ.bind ih fun _ => hQ.ok _

theorem interpolatePairs_compare (hQ : Comparison Q) {ps ps' : List (Object × Object)}
    (h : List.Forall₂ (fun p p' => Q _ (interpolateIn d eval depth c p.1) (interpolateIn d eval' depth' c' p'.1) ∧
      Q _ (interpolateIn d eval depth c p.2) (interpolateIn d eval' depth' c' p'.2)) ps ps') :
    Q _ (interpolatePairs d eval depth c ps) (interpolatePairs d eval' depth' c' ps') := by
  induction h with
  | nil => exact hQ.ok _
  | cons hp _ ih =>
      rw [interpolatePairs, interpolatePairs]
      exact hQ.bind hp.1 fun _ => hQ.bind hp.2 fun _ => hQ.bind ih fun _ => hQ.ok _

theorem interpolateFields_compare (hQ : Comparison Q) {fs fs' : List (String × Option Object)}
    (h : List.Forall₂ (fun f f' => f.1 = f'.1 ∧ Option.Rel (fun o o' =>
      Q _ (interpolateIn d eval depth c o) (interpolateIn d eval' depth' c' o')) f.2 f'.2) fs fs') :
    Q _ (interpolateFields d eval depth c fs) (interpolateFields d eval' depth' c' fs') := by
  induction h with
  | nil => exact hQ.ok _
  | @cons f f' _ _ hf _ ih =>
      obtain ⟨name, value⟩ := f
      obtain ⟨name', value'⟩ := f'
      obtain ⟨rfl, hvalue⟩ := hf
      cases hvalue with
      | none =>
          rw [interpolateFields, interpolateFields]
          exact hQ.bind ih fun _ => hQ.ok _
      | some ho =>
          rw [interpolateFields, interpolateFields]
          exact hQ.bind ho fun _ => hQ.bind ih fun _ => hQ.ok _

/-! ## Failures of parts -/

theorem interpolateElements_error {os : List Object} {e : Error}
    (h : interpolateElements d eval depth c os = .error e) : ∃ o ∈ os, interpolateIn d eval depth c o = .error e := by
  induction os with
  | nil => cases h
  | cons o rest ih =>
      obtain ho | ⟨_, -, h⟩ := Except.bind_error h
      · exact ⟨o, by simp, ho⟩
      · obtain hrest | ⟨_, -, h⟩ := Except.bind_error h
        · obtain ⟨p, hp, he⟩ := ih hrest
          exact ⟨p, List.mem_cons_of_mem _ hp, he⟩
        · cases h

theorem interpolatePairs_error {pairs : List (Object × Object)} {e : Error}
    (h : interpolatePairs d eval depth c pairs = .error e) :
    ∃ p ∈ (Payload.map pairs).parts, interpolateIn d eval depth c p = .error e := by
  induction pairs with
  | nil => cases h
  | cons pair rest ih =>
      obtain ⟨k, v⟩ := pair
      obtain hk | ⟨_, -, h⟩ := Except.bind_error h
      · exact ⟨k, Payload.mem_parts_map.mpr ⟨k, v, by simp, .inl rfl⟩, hk⟩
      obtain hv | ⟨_, -, h⟩ := Except.bind_error h
      · exact ⟨v, Payload.mem_parts_map.mpr ⟨k, v, by simp, .inr rfl⟩, hv⟩
      obtain hrest | ⟨_, -, h⟩ := Except.bind_error h
      · obtain ⟨p, hp, he⟩ := ih hrest
        obtain ⟨k', v', hm, hp⟩ := Payload.mem_parts_map.mp hp
        exact ⟨p, Payload.mem_parts_map.mpr ⟨k', v', List.mem_cons_of_mem _ hm, hp⟩, he⟩
      · cases h

theorem interpolateFields_error {fields : List (String × Option Object)} {e : Error}
    (h : interpolateFields d eval depth c fields = .error e) :
    ∃ p ∈ (Payload.struct fields).parts, interpolateIn d eval depth c p = .error e := by
  induction fields with
  | nil => cases h
  | cons field rest ih =>
      have hrest : interpolateFields d eval depth c rest = .error e →
          ∃ p ∈ (Payload.struct (field :: rest)).parts, interpolateIn d eval depth c p = .error e := by
        intro h
        obtain ⟨p, hp, he⟩ := ih h
        obtain ⟨name, hm⟩ := Payload.mem_parts_struct.mp hp
        exact ⟨p, Payload.mem_parts_struct.mpr ⟨name, List.mem_cons_of_mem _ hm⟩, he⟩
      obtain ⟨name, value⟩ := field
      cases value with
      | none =>
          obtain h | ⟨_, -, h⟩ := Except.bind_error h
          · exact hrest h
          · cases h
      | some o =>
          obtain ho | ⟨_, -, h⟩ := Except.bind_error h
          · exact ⟨o, Payload.mem_parts_struct.mpr ⟨name, by simp⟩, ho⟩
          obtain h | ⟨_, -, h⟩ := Except.bind_error h
          · exact hrest h
          · cases h

/-! ## All parts -/

section

variable {o : Object}

theorem interpolateIn_error_parts (htemplate : ∀ text, o.payload ≠ .template text)
    (huntyped : ∀ draft, o.payload ≠ .untyped draft) {e : Error} (h : interpolateIn d eval depth c o = .error e) :
    ∃ p ∈ o.payload.parts, interpolateIn d eval depth (o.inScopeAll c).innerScopes p = .error e := by
  rw [interpolateIn_eq] at h
  obtain h | ⟨_, -, h⟩ := Except.bind_error h
  · obtain ⟨t, payload, own, provided⟩ := o
    cases payload with
    | scalar s => cases h
    | template text => exact absurd rfl (htemplate text)
    | untyped draft => exact absurd rfl (huntyped draft)
    | list elements =>
        obtain h | ⟨_, -, h⟩ := Except.bind_error h
        · exact interpolateElements_error h
        · cases h
    | map pairs =>
        obtain h | ⟨_, -, h⟩ := Except.bind_error h
        · exact interpolatePairs_error h
        · cases h
    | struct fields =>
        obtain h | ⟨_, -, h⟩ := Except.bind_error h
        · exact interpolateFields_error h
        · cases h
    | typed inner =>
        obtain h | ⟨_, -, h⟩ := Except.bind_error h
        · exact ⟨inner, List.mem_singleton.mpr rfl, h⟩
        · cases h
  · cases h

theorem interpolateIn_ok_parts {r : Object} {refs : List Ref} (h : interpolateIn d eval depth c o = .ok (r, refs)) :
    ∀ p ∈ o.payload.parts, ∃ a, interpolateIn d eval depth (o.inScopeAll c).innerScopes p = .ok a := by
  intro p hp
  obtain ⟨t, payload, own, provided⟩ := o
  cases payload with
  | scalar | template | untyped => cases hp
  | list elements =>
      obtain ⟨_, -, hothers⟩ := interpolateIn_list h
      obtain ⟨_, _, left, hleft, -⟩ := Entries.exists_of_forall₂ hothers hp
      exact ⟨_, hleft⟩
  | map pairs =>
      obtain ⟨_, -, hothers⟩ := interpolateIn_map h
      obtain ⟨k, v, hm, hp⟩ := Payload.mem_parts_map.mp hp
      obtain ⟨_, _, ⟨_, hk, -⟩, _, hv, -⟩ := Entries.exists_of_forall₂ hothers hm
      rcases hp with rfl | rfl
      · exact ⟨_, hk⟩
      · exact ⟨_, hv⟩
  | struct fields =>
      obtain ⟨_, -, hothers⟩ := interpolateIn_struct h
      obtain ⟨name, hm⟩ := Payload.mem_parts_struct.mp hp
      obtain ⟨⟨_, _⟩, _, -, hvalue⟩ := Entries.exists_of_forall₂ hothers hm
      cases hvalue with
      | some hvalue =>
          obtain ⟨_, hleft, -⟩ := hvalue
          exact ⟨_, hleft⟩
  | typed inner =>
      obtain ⟨_, -, _, hleft, -⟩ := interpolateIn_typed h
      rw [List.mem_singleton.mp hp]
      exact ⟨_, hleft⟩

end

/-- Where each part repeats what a first interpolation has made of it, so does the whole object. -/
theorem interpolateIn_again_parts {first : Nat → Object → Interpolated} {outer : List Scope} {o r : Object}
    {refs : List Ref} (htemplate : ∀ text, o.payload ≠ .template text) (huntyped : ∀ draft, o.payload ≠ .untyped draft)
    (h : interpolateIn d first depth outer o = .ok (r, refs))
    (hparts : ∀ p ∈ o.payload.parts, ∀ r' left,
      interpolateIn d first depth (o.inScopeAll outer).innerScopes p = .ok (r', left) →
      Again (interpolateIn d eval depth (o.inScopeAll c).innerScopes p)
        (interpolateIn d eval' depth' (r.inScopeAll c').innerScopes r')) :
    Again (interpolateIn d eval depth c o) (interpolateIn d eval' depth' c' r) := by
  rw [interpolateIn_eq, interpolateIn_eq]
  refine Again.bind ?_ fun _ => .refl _
  obtain ⟨t, payload, own, provided⟩ := o
  cases payload with
  | scalar s =>
      obtain rfl := interpolateIn_scalar h
      exact .refl _
  | template text => exact absurd rfl (htemplate text)
  | untyped draft => exact absurd rfl (huntyped draft)
  | list elements =>
      obtain ⟨others, rfl, hothers⟩ := interpolateIn_list h
      have hagain := Entries.forall₂_imp_of_mem hothers fun p hp r hr => hparts p hp r hr.choose hr.choose_spec.1
      exact (interpolateElements_compare comparison_again hagain).bind fun _ => .refl _
  | map pairs =>
      obtain ⟨others, rfl, hothers⟩ := interpolateIn_map h
      have hagain := Payload.pairs_imp hothers fun p hp r hr => hparts p hp r hr.choose hr.choose_spec.1
      exact (interpolatePairs_compare comparison_again hagain).bind fun _ => .refl _
  | struct fields =>
      obtain ⟨others, rfl, hothers⟩ := interpolateIn_struct h
      have hagain := Payload.fields_imp hothers fun p hp r hr => hparts p hp r hr.choose hr.choose_spec.1
      exact (interpolateFields_compare comparison_again hagain).bind fun _ => .refl _
  | typed inner =>
      obtain ⟨other, rfl, left, hleft, -⟩ := interpolateIn_typed h
      exact (hparts inner (List.mem_singleton.mpr rfl) _ _ hleft).bind fun _ => .refl _

end Object

end TypedTemplate
