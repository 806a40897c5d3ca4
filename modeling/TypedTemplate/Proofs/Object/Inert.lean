import Mathlib
import TypedTemplate.Proofs.Object.Budget
import TypedTemplate.Proofs.Object.Parts
import TypedTemplate.Proofs.Object.Shaped

/-!
# Inert objects

Where interpolation leaves no references, nothing in what it comes to depends on scopes any more: there are no texts
left to resolve, and every choice has settled.
-/

namespace TypedTemplate

/-- Nothing in the object has scopes or is left to resolve. -/
inductive Object.Inert : Object → Prop
  | scalar {t s} : Inert (.ofPayload t (.scalar s))
  | list {t elements} : (∀ o ∈ elements, Inert o) → Inert (.ofPayload t (.list elements))
  | map {t pairs} : (∀ k v, (k, v) ∈ pairs → Inert k) → (∀ k v, (k, v) ∈ pairs → Inert v) →
      Inert (.ofPayload t (.map pairs))
  | struct {t fields} : (∀ name o, (name, some o) ∈ fields → Inert o) → Inert (.ofPayload t (.struct fields))
  | typed {t inner} : Inert inner → Inert (.ofPayload t (.typed inner))

namespace Object

variable {d : Declarations} {o p resolved : Object}

theorem Inert.part (h : o.Inert) (hp : p ∈ o.payload.parts) : p.Inert := by
  cases h with
  | scalar => cases hp
  | list h => exact h p hp
  | map hk hv =>
      obtain ⟨k, v, hm, rfl | rfl⟩ := Payload.mem_parts_map.mp hp
      · exact hk _ v hm
      · exact hv k _ hm
  | struct h =>
      obtain ⟨name, hm⟩ := Payload.mem_parts_struct.mp hp
      exact h name p hm
  | typed h =>
      obtain rfl := List.mem_singleton.mp hp
      exact h

theorem Inert.holds (h : o.Inert) (hp : o.Holds p) : p.Inert := by
  induction hp with
  | self => exact h
  | part hpart _ ih => exact ih (h.part hpart)

theorem Inert.scopes (h : o.Inert) : o.scopes = [] := by cases h <;> rfl

theorem Inert.provided (h : o.Inert) : o.provided = [] := by cases h <;> rfl

theorem Inert.settled (h : o.Inert) :
    (∀ text, o.payload ≠ .template text) ∧ ∀ draft, o.payload ≠ .untyped draft := by
  cases h <;> exact ⟨by rintro _ ⟨⟩, by rintro _ ⟨⟩⟩

/-! ## What comes to be inert -/

section

variable {eval : Nat → Object → Interpolated} {depth : Nat} {outer : List Scope}

/-- A choice that leaves no references settles for an alternative that leaves none. -/
theorem settleChoice_inert {eval : Object → Interpolated} (heval : ∀ o r, eval o = .ok (r, []) → r.Inert)
    {scopes : List Scope} {t : Ty} {draft : Draft} {ts : List Ty}
    (h : settleChoice d eval scopes t draft ts = .ok (resolved, [])) : resolved.Inert := by
  induction ts with
  | nil => cases h
  | cons alternative rest ih =>
      simp only [settleChoice] at h
      split at h
      · exact ih h
      · split at h
        · split at h
          · cases h
          · cases h
            exact .typed (heval _ _ ‹_›)
        · split at h
          · exact ih h
          · cases h

theorem interpolateIn_inert (heval : ∀ o r, eval depth o = .ok (r, []) → r.Inert)
    (h : interpolateIn d eval depth outer o = .ok (resolved, [])) : resolved.Inert := by
  induction o using parts_induction generalizing outer resolved with
  | _ o ih =>
    have hpart : ∀ p ∈ o.payload.parts, ∀ scopes r, p.ComesTo d eval depth scopes [] r → r.Inert :=
      fun p hp scopes r hcomes => ih p hp hcomes.eq_ok
    obtain ⟨t, payload, own, provided⟩ := o
    cases payload with
    | scalar s =>
        obtain rfl := interpolateIn_scalar h
        exact .scalar
    | template text =>
        rcases interpolateIn_template h with ⟨_, s, -, rfl⟩ | ⟨_, -, hrefs⟩
        · exact .scalar
        · exact absurd rfl hrefs
    | list elements =>
        obtain ⟨others, rfl, hothers⟩ := interpolateIn_list h
        refine .list fun r hr => ?_
        obtain ⟨o, ho, hcomes⟩ := Entries.exists_of_forall₂_right hothers hr
        exact hpart o ho _ r hcomes
    | map pairs =>
        obtain ⟨others, rfl, hothers⟩ := interpolateIn_map h
        have hpair : ∀ key value, (key, value) ∈ others → key.Inert ∧ value.Inert := by
          intro key value hm
          obtain ⟨⟨k, v⟩, hkv, hkey, hvalue⟩ := Entries.exists_of_forall₂_right hothers hm
          exact ⟨hpart k (Payload.mem_parts_map.mpr ⟨k, v, hkv, .inl rfl⟩) _ key hkey,
            hpart v (Payload.mem_parts_map.mpr ⟨k, v, hkv, .inr rfl⟩) _ value hvalue⟩
        exact .map (fun key value hm => (hpair key value hm).1) fun key value hm => (hpair key value hm).2
    | struct fields =>
        obtain ⟨others, rfl, hothers⟩ := interpolateIn_struct h
        refine .struct fun name r hr => ?_
        obtain ⟨⟨name', value⟩, ho, -, hvalue⟩ := Entries.exists_of_forall₂_right hothers hr
        cases hvalue with
        | some hcomes => exact hpart _ (Payload.mem_parts_struct.mpr ⟨name', ho⟩) _ r hcomes
    | typed inner =>
        obtain ⟨other, rfl, hcomes⟩ := interpolateIn_typed h
        exact .typed (hpart inner (List.mem_singleton.mpr rfl) _ other hcomes)
    | untyped draft =>
        obtain ⟨left, h, hsubset⟩ := interpolateIn_ok h
        obtain rfl := List.subset_nil.mp hsubset
        exact settleChoice_inert heval h

/-! ## What inert objects come to -/

theorem interpolateElements_self {scopes : List Scope} {elements : List Object}
    (h : ∀ o ∈ elements, interpolateIn d eval depth scopes o = .ok (o, [])) :
    interpolateElements d eval depth scopes elements = .ok (elements, []) := by
  induction elements with
  | nil => rfl
  | cons o rest ih =>
      rw [List.forall_mem_cons] at h
      rw [interpolateElements, h.1, ih h.2]
      rfl

theorem interpolatePairs_self {scopes : List Scope} {pairs : List (Object × Object)}
    (h : ∀ k v, (k, v) ∈ pairs → interpolateIn d eval depth scopes k = .ok (k, []) ∧
      interpolateIn d eval depth scopes v = .ok (v, [])) :
    interpolatePairs d eval depth scopes pairs = .ok (pairs, []) := by
  induction pairs with
  | nil => rfl
  | cons pair rest ih =>
      obtain ⟨k, v⟩ := pair
      obtain ⟨hk, hv⟩ := h k v (by simp)
      rw [interpolatePairs, hk, hv, ih fun k v hm => h k v (by simp [hm])]
      rfl

theorem interpolateFields_self {scopes : List Scope} {fields : List (String × Option Object)}
    (h : ∀ name o, (name, some o) ∈ fields → interpolateIn d eval depth scopes o = .ok (o, [])) :
    interpolateFields d eval depth scopes fields = .ok (fields, []) := by
  induction fields with
  | nil => rfl
  | cons field rest ih =>
      have hrest := ih fun name o hm => h name o (by simp [hm])
      obtain ⟨name, value⟩ := field
      cases value with
      | none =>
          rw [interpolateFields, hrest]
          rfl
      | some o =>
          rw [interpolateFields, h name o (by simp), hrest]
          rfl

/-- An inert object comes to itself, whatever scopes it sees. -/
theorem Inert.interpolateIn (h : o.Inert) : interpolateIn d eval depth outer o = .ok (o, []) := by
  induction h generalizing outer with
  | scalar => rfl
  | list _ ih =>
      rw [interpolateIn_eq, ofPayload, interpolatePayload, interpolateElements_self fun o ho => ih o ho]
      rfl
  | map _ _ ihk ihv =>
      rw [interpolateIn_eq, ofPayload, interpolatePayload,
        interpolatePairs_self fun k v hm => ⟨ihk k v hm, ihv k v hm⟩]
      rfl
  | struct _ ih =>
      rw [interpolateIn_eq, ofPayload, interpolatePayload, interpolateFields_self fun name o hm => ih name o hm]
      rfl
  | typed _ ih =>
      rw [interpolateIn_eq, ofPayload, interpolatePayload, ih]
      rfl

end

theorem interpolateWithin_inert {n depth : Nat} (h : interpolateWithin d n depth o = .ok (resolved, [])) :
    resolved.Inert := by
  induction n generalizing depth o resolved with
  | zero => cases h
  | succ n ih => exact interpolateIn_inert (fun _ _ h => ih h) h

theorem Inert.interpolate_bindAll (h : o.Inert) (scopes : List Scope) :
    (o.bindAll scopes).interpolate d = .ok (o, []) := by
  rw [bindAll_of_scopes h.scopes, interpolate_eq, interpolateIn_inScopeAll, h.interpolateIn]

/-- Where nothing is left to resolve, nothing has scopes either, and no scopes bound later change anything. -/
theorem interpolate_inert (h : o.interpolate d = .ok (resolved, [])) :
    (∀ p, resolved.Holds p → p.scopes = [] ∧ p.provided = [] ∧ (∀ text, p.payload ≠ .template text) ∧
      ∀ draft, p.payload ≠ .untyped draft) ∧
    ∀ scopes, (resolved.bindAll scopes).interpolate d = .ok (resolved, []) := by
  have hinert : resolved.Inert := interpolateWithin_inert h
  refine ⟨fun p hp => ?_, hinert.interpolate_bindAll⟩
  have hpart := hinert.holds hp
  exact ⟨hpart.scopes, hpart.provided, hpart.settled⟩

/-- A page with a title and with notes that are numbers or texts. -/
def page : Declarations where
  next := 1
  finished := [(0, [("title", ⟨.string, true, none⟩),
    ("notes", ⟨.map .string (.choice "Note" [.integer, .string]), true, none⟩)])]

def pageNote (key text : String) : Object × Object :=
  (.ofPayload .string (.template key),
    .ofPayload (.choice "Note" [.integer, .string]) (.untyped (.scalar (.string text))))

def pageObject : Object :=
  ⟨.struct 0 "Page", .struct [
      ("title", some (.ofPayload .string (.template "\x7b\x7b&x\x7d\x7d is \x7b\x7bx\x7d\x7d"))),
      ("notes", some (.ofPayload (.map .string (.choice "Note" [.integer, .string])) (.map [
        pageNote "n\x7b\x7bx\x7d\x7d" "\x7b\x7bx\x7d\x7d",
        pageNote "\x7b\x7btitle\x7d\x7d" "\x7b\x7b&x\x7d\x7d"])))],
    [.environment ⟨[(.ofName "x", .text "5")]⟩], []⟩

/-- The placeholder that has been escaped in a title and in a note stays, even when its reference is bound again. -/
theorem interpolate_inert_page : ∃ resolved, pageObject.interpolate page = .ok (resolved, []) ∧
    resolved.toValue = .mapping [("title", .string "\x7b\x7bx\x7d\x7d is 5"), ("notes", .mapping [
      ("n5", .scalar (.integer 5)), ("5 is 5", .string "\x7b\x7bx\x7d\x7d")])] ∧
    ∀ scopes, (resolved.bindAll scopes).interpolate page = .ok (resolved, []) := by
  obtain ⟨resolved, h, hvalue⟩ : ∃ resolved, pageObject.interpolate page = .ok (resolved, []) ∧
      resolved.toValue = .mapping [("title", .string "\x7b\x7bx\x7d\x7d is 5"), ("notes", .mapping [
        ("n5", .scalar (.integer 5)), ("5 is 5", .string "\x7b\x7bx\x7d\x7d")])] := ⟨_, by cbv, by cbv⟩
  exact ⟨resolved, h, hvalue, (interpolate_inert h).2⟩

end Object

end TypedTemplate
