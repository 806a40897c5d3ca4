import TypedTemplate.Object.Interpolate
import TypedTemplate.Proofs.Entries

/-!
# Lookup in environments of texts

An environment that binds nothing but texts knows a reference only if it is bound itself. A lookup through several
scopes ends at the first of them that knows the reference.
-/

namespace TypedTemplate

namespace Environment

def TextOnly (e : Environment) : Prop := ∀ entry ∈ e.table, ∃ s, entry.2 = .text s

def text? (e : Environment) (r : Ref) : Option String :=
  match e.get? r with
  | some (.text s) => some s
  | _ => none

variable {e : Environment} {r : Ref}

theorem TextOnly.get? (h : e.TextOnly) : e.get? r = (e.text? r).map .text := by
  unfold text?
  cases hg : e.get? r with
  | none => rfl
  | some b =>
      obtain ⟨s, hs⟩ := h _ (Entries.mem_of_find? hg)
      cases hs
      rfl

theorem mem_of_text? {s : String} (h : e.text? r = some s) : (r, .text s) ∈ e.table := by
  unfold text? at h
  split at h
  · rename_i hg
    cases h
    exact Entries.mem_of_find? hg
  · cases h

theorem TextOnly.candidates (h : e.TextOnly) : e.candidates r = [] := by
  unfold Environment.candidates
  dsimp only
  rw [List.filterMap_eq_nil_iff.mpr]
  · simp
  · rintro ⟨key, b⟩ hb
    obtain ⟨s, rfl⟩ := h _ hb
    rfl

variable (d : Declarations) (snapshot : Object → Except Error Value)

theorem TextOnly.findBy (h : e.TextOnly) : e.findBy d snapshot r =
    match e.text? r with
    | some s => .ok (.text s)
    | none => .error (Error.notFound r.address "Environment") := by
  unfold Environment.findBy
  rw [h.get?, h.candidates]
  cases e.text? r <;> rfl

theorem findBy_of_no_prefix (h : ∀ entry ∈ e.table, ¬ entry.1.components <+: r.components) :
    e.findBy d snapshot r = .error (Error.notFound r.address "Environment") := by
  have hget : e.get? r = none := by
    cases hg : e.get? r with
    | none => rfl
    | some b => exact absurd (List.prefix_refl _) (h _ (Entries.mem_of_find? hg))
  have hcand : e.candidates r = [] := by
    unfold Environment.candidates
    dsimp only
    rw [List.filterMap_eq_nil_iff.mpr]
    · simp
    · rintro ⟨key, b⟩ hb
      cases b with
      | text s => rfl
      | object o => simp [Ref.subscope, h _ hb]
  unfold Environment.findBy
  rw [hget, hcand]
  rfl

end Environment

variable (d : Declarations) (eval : Nat → Object → Interpolated)

/-- Looking the reference up in the scope fails. -/
def Scope.Misses (snapshot : Object → Except Error Value) (r : Ref) (s : Scope) : Prop :=
  ∃ e, s.findBy d snapshot r = .error e ∧ e.isLookup = true

theorem lookupBy_cons_ok {s : Scope} {r : Ref} {b : Binding} {depth : Nat} {rest : List Scope}
    (h : s.findBy d (Object.snapshotBy (eval depth)) r = .ok b) :
    lookupBy d eval depth (s :: rest) r = (b.renderBy eval depth).map some := by
  rw [lookupBy, h]

theorem lookupBy_cons_missing {s : Scope} {r : Ref} {e : Error} {depth : Nat} {rest : List Scope}
    (h : s.findBy d (Object.snapshotBy (eval depth)) r = .error e) (he : e.isLookup = true) :
    lookupBy d eval depth (s :: rest) r = lookupBy d eval depth rest r := by
  rw [lookupBy, h]
  simp only [he, ↓reduceIte]

/-- Scopes that miss a reference are passed over. -/
theorem lookupBy_append_missing {inner : List Scope} {r : Ref} {depth : Nat}
    (h : ∀ s ∈ inner, s.Misses d (Object.snapshotBy (eval depth)) r) (outer : List Scope) :
    lookupBy d eval depth (inner ++ outer) r = lookupBy d eval depth outer r := by
  induction inner with
  | nil => rfl
  | cons s rest ih =>
      obtain ⟨e, hs, he⟩ := h s (by simp)
      rw [List.cons_append, lookupBy_cons_missing d eval hs he, ih fun s hs => h s (by simp [hs])]

theorem Binding.renderBy_text {depth : Nat} (h : depth < maxDepth) (s : String) :
    (Binding.text s).renderBy eval depth = .ok s := by
  unfold Binding.renderBy
  rw [if_neg (by omega)]

theorem lookupBy_textOnly {e : Environment} (he : e.TextOnly) {depth : Nat} (h : depth < maxDepth) :
    lookupBy d eval depth [.environment e] = fun r => .ok (e.text? r) := by
  funext r
  have hf := he.findBy (r := r) d (Object.snapshotBy (eval depth))
  cases ht : e.text? r with
  | some s =>
      rw [ht] at hf
      rw [lookupBy_cons_ok (s := .environment e) d eval hf, Binding.renderBy_text eval h]
      rfl
  | none =>
      rw [ht] at hf
      rw [lookupBy_cons_missing (s := .environment e) d eval hf rfl]
      rfl

end TypedTemplate
