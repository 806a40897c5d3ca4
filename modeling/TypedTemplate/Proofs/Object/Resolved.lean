import TypedTemplate.Proofs.Object.Built
import TypedTemplate.Proofs.Object.Parts
import TypedTemplate.Proofs.Template.Settled
import TypedTemplate.Object.Interpolate

/-!
# What interpolation comes to

Interpolating a well-formed object gives one without scopes. Where references are left in it, they stand in texts
with live placeholders, and a choice settles for an alternative or for such a text.
-/

namespace TypedTemplate

variable {d : Declarations}

/-- Each of the field names comes once and is declared by the type. -/
structure Ty.Declares (d : Declarations) (t : Ty) (names : List String) : Prop where
  nodup : names.Nodup
  known : ∀ name ∈ names, (Entries.find? name (t.fields d)).isSome

/-- All structs in the object, and in what it holds of inputs, have fields that their types declare. -/
inductive Object.WellFormed (d : Declarations) : Object → Prop
  | scalar {ty s scopes provided} : WellFormed d ⟨ty, .scalar s, scopes, provided⟩
  | template {ty text scopes provided} : WellFormed d ⟨ty, .template text, scopes, provided⟩
  | list {ty elements scopes provided} : (∀ o ∈ elements, WellFormed d o) →
      WellFormed d ⟨ty, .list elements, scopes, provided⟩
  | map {ty pairs scopes provided} : (∀ k v, (k, v) ∈ pairs → WellFormed d k) →
      (∀ k v, (k, v) ∈ pairs → WellFormed d v) → WellFormed d ⟨ty, .map pairs, scopes, provided⟩
  | struct {ty fields scopes provided} : ty.Declares d (fields.map Prod.fst) →
      (∀ name o, (name, some o) ∈ fields → WellFormed d o) → WellFormed d ⟨ty, .struct fields, scopes, provided⟩
  | typed {ty inner scopes provided} : WellFormed d inner → WellFormed d ⟨ty, .typed inner, scopes, provided⟩
  | untyped {ty draft scopes provided} : (∀ o ∈ draft.objects, WellFormed d o) →
      WellFormed d ⟨ty, .untyped draft, scopes, provided⟩

/-- The object has no scopes, and no text in it that is left to resolve is without references. -/
inductive Object.Resolved (d : Declarations) : Object → Prop
  | scalar {t s} : Resolved d (.ofPayload t (.scalar s))
  | template {t text} : Template.Open text → Resolved d (.ofPayload t (.template text))
  | list {t elements} : (∀ o ∈ elements, Resolved d o) → Resolved d (.ofPayload t (.list elements))
  | map {t pairs} : (∀ k v, (k, v) ∈ pairs → Resolved d k) → (∀ k v, (k, v) ∈ pairs → Resolved d v) →
      Resolved d (.ofPayload t (.map pairs))
  | struct {t fields} : t.Declares d (fields.map Prod.fst) → (∀ name o, (name, some o) ∈ fields → Resolved d o) →
      Resolved d (.ofPayload t (.struct fields))
  | typed {t inner} : Resolved d inner → Resolved d (.ofPayload t (.typed inner))
  | text {t text} : Template.Open text → Resolved d (.ofPayload t (.untyped (.scalar (.string text))))

namespace Object

theorem WellFormed.inScopeAll {o : Object} (h : o.WellFormed d) (scopes : List Scope) :
    (o.inScopeAll scopes).WellFormed d := by
  cases h with
  | scalar => exact .scalar
  | template => exact .template
  | list h => exact .list h
  | map hk hv => exact .map hk hv
  | struct hdeclares h => exact .struct hdeclares h
  | typed h => exact .typed h
  | untyped h => exact .untyped h

/-- What is built from well-formed objects is well formed. -/
theorem Built.wellFormed {t : Ty} {o : Object} (h : o.Built d (WellFormed d) t) : o.WellFormed d := by
  induction h with
  | scalar _ => exact .scalar
  | template _ => exact .template
  | list _ ih => exact .list ih
  | map _ _ ihk ihv => exact .map ihk ihv
  | @struct id name fields hnodup hknown _ ih =>
      refine .struct ⟨hnodup, fun name hname => ?_⟩ fun name o hm => ?_
      · obtain ⟨entry, he, rfl⟩ := List.mem_map.mp hname
        exact hknown entry he
      · obtain ⟨f, hf⟩ := Option.isSome_iff_exists.mp (hknown _ hm)
        exact ih name o f hm hf
  | draft h => exact .untyped h
  | same h _ => exact h
  | settled h _ => exact .typed h

variable (d) in
theorem resolveTemplate_resolved {eval : Nat → Object → Interpolated} {depth : Nat} {scopes : List Scope} {t : Ty}
    {text : String} {r : Object} {refs : List Ref} (h : resolveTemplate d eval depth scopes t text = .ok (r, refs)) :
    r.Resolved d := by
  obtain ⟨⟨joined, unbound⟩, hresolve, h⟩ := Except.bind_ok h
  dsimp only at h
  split at h
  · obtain ⟨s, -, h⟩ := Except.bind_ok h
    cases h
    exact .scalar
  · rename_i hunbound
    cases h
    exact .template (Template.open_of_resolve hresolve (by simpa using hunbound))

/-- A choice settles for what one of its alternatives comes to, or for a text with references. -/
theorem settleChoice_resolved (hd : d.Built (WellFormed d)) {eval : Object → Interpolated}
    (heval : ∀ o r refs, o.WellFormed d → eval o = .ok (r, refs) → r.Resolved d) {scopes : List Scope} {t : Ty}
    {draft : Draft} (hdraft : ∀ o ∈ draft.objects, o.WellFormed d) {ts : List Ty} {r : Object} {refs : List Ref}
    (h : settleChoice d eval scopes t draft ts = .ok (r, refs)) :
    (∃ inner, r = .ofPayload t (.typed inner) ∧ inner.Resolved d) ∨
      ∃ text, r = .ofPayload t (.untyped (.scalar (.string text))) ∧ Template.Open text := by
  induction ts with
  | nil => cases h
  | cons alternative rest ih =>
      simp only [settleChoice] at h
      split at h
      · exact ih h
      · rename_i candidate hcandidate
        have hwf := (Ty.constructDraft_built hd alternative draft hdraft hcandidate).wellFormed.inScopeAll scopes
        split at h
        · rename_i resolved left hresolved
          have hr := heval _ _ _ hwf hresolved
          split at h
          · rename_i text _ _ htext
            cases h
            right
            cases hr <;> cases htext
            exact ⟨text, rfl, ‹_›⟩
          · cases h
            exact .inl ⟨resolved, rfl, hr⟩
        · split at h
          · exact ih h
          · cases h

/-- Interpolating a well-formed object resolves it. -/
theorem interpolateIn_resolved (hd : d.Built (WellFormed d)) {eval : Nat → Object → Interpolated} {depth : Nat}
    (heval : ∀ o r refs, o.WellFormed d → eval depth o = .ok (r, refs) → r.Resolved d) {o : Object} (ho : o.WellFormed d)
    {outer : List Scope} {r : Object} {refs : List Ref} (h : interpolateIn d eval depth outer o = .ok (r, refs)) :
    r.Resolved d := by
  induction ho generalizing outer r refs with
  | scalar =>
      obtain rfl := interpolateIn_scalar h
      exact .scalar
  | template =>
      obtain ⟨left, h, -⟩ := interpolateIn_ok h
      exact resolveTemplate_resolved d h
  | list _ ih =>
      obtain ⟨others, rfl, hothers⟩ := interpolateIn_list h
      refine .list fun r hr => ?_
      obtain ⟨o, ho, left, hleft, -⟩ := Entries.exists_of_forall₂_right hothers hr
      exact ih o ho hleft
  | map _ _ ihk ihv =>
      obtain ⟨others, rfl, hothers⟩ := interpolateIn_map h
      have hpair : ∀ key value, (key, value) ∈ others → key.Resolved d ∧ value.Resolved d := by
        intro key value hm
        obtain ⟨⟨k, v⟩, hkv, ⟨_, hkey, -⟩, _, hvalue, -⟩ := Entries.exists_of_forall₂_right hothers hm
        exact ⟨ihk k v hkv hkey, ihv k v hkv hvalue⟩
      exact .map (fun key value hm => (hpair key value hm).1) fun key value hm => (hpair key value hm).2
  | struct hdeclares _ ih =>
      obtain ⟨others, rfl, hothers⟩ := interpolateIn_struct h
      refine .struct (Entries.map_fst_forall₂ hothers ▸ hdeclares) fun name r hr => ?_
      obtain ⟨⟨name', value⟩, ho, -, hvalue⟩ := Entries.exists_of_forall₂_right hothers hr
      cases hvalue with
      | some hvalue =>
          obtain ⟨left, hleft, -⟩ := hvalue
          exact ih name' _ ho hleft
  | typed _ ih =>
      obtain ⟨other, rfl, left, hleft, -⟩ := interpolateIn_typed h
      exact .typed (ih hleft)
  | untyped hdraft =>
      obtain ⟨left, h, -⟩ := interpolateIn_ok h
      rcases settleChoice_resolved hd heval hdraft h with ⟨inner, rfl, hinner⟩ | ⟨text, rfl, htext⟩
      · exact .typed hinner
      · exact .text htext

theorem interpolateWithin_resolved (hd : d.Built (WellFormed d)) {n depth : Nat} {o r : Object} {refs : List Ref}
    (ho : o.WellFormed d) (h : interpolateWithin d n depth o = .ok (r, refs)) : r.Resolved d := by
  induction n generalizing depth o r refs with
  | zero => cases h
  | succ n ih => exact interpolateIn_resolved hd (fun _ _ _ ho h => ih ho h) ho h

end Object

end TypedTemplate
