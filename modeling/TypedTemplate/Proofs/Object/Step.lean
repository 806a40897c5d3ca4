import Mathlib.Data.List.Forall2
import TypedTemplate.Proofs.Entries
import TypedTemplate.Proofs.Object.Shaped
import TypedTemplate.Proofs.Outcome

/-!
# One step of a lookup

An index leads into a list or a map, and a name into a struct; what is found is seen through the scopes of its place.
Where two objects of one kind hold related parts in the same places, a step leads to related parts in both, or fails in
both with one error. Maps have to find their pairs alike.
-/

namespace TypedTemplate.Object

variable {d : Declarations} {snapshot snapshot' : Object → Except Error Value}
variable {t t' : Ty} {own own' provided provided' : List Scope}

/-! ## What a step finds -/

section

variable {c : Component} {found : Object}

theorem mem_of_findPair {key value : Object} {pairs : List (Object × Object)}
    (h : findPair d snapshot key pairs = .ok (some value)) : ∃ k, (k, value) ∈ pairs := by
  induction pairs with
  | nil => cases h
  | cons pair rest ih =>
      obtain ⟨k, v⟩ := pair
      have hrest : findPair d snapshot key rest = .ok (some value) → ∃ k', (k', value) ∈ (k, v) :: rest := by
        intro h
        obtain ⟨k', hm⟩ := ih h
        exact ⟨k', List.mem_cons_of_mem _ hm⟩
      rw [findPair] at h
      split at h
      · obtain ⟨a, -, h⟩ := Except.bind_ok h
        obtain ⟨b, -, h⟩ := Except.bind_ok h
        split at h
        · cases h
          exact ⟨k, by simp⟩
        · exact hrest h
      · exact hrest h

theorem step_list_ok {elements : List Object} (h : step d snapshot c ⟨t, .list elements, own, provided⟩ = .ok found) :
    ∃ token i p, c = .index token ∧ Decimal.position? token.toList = some i ∧ elements[i]? = some p ∧
      found = p.inScopeAll own := by
  cases c with
  | dereference name => cases h
  | index token =>
      simp only [step] at h
      split at h
      · cases h
      · rename_i i hi
        split at h
        · cases h
        · rename_i p hp
          cases h
          exact ⟨token, i, p, rfl, hi, hp, rfl⟩

theorem step_map_ok {k v : Ty} {pairs : List (Object × Object)}
    (h : step d snapshot c ⟨.map k v, .map pairs, own, provided⟩ = .ok found) :
    ∃ token key p, c = .index token ∧ k.construct d (.ofText token) = .ok key ∧
      findPair d snapshot key pairs = .ok (some p) ∧ found = p.inScopeAll own := by
  cases c with
  | dereference name => cases h
  | index token =>
      simp only [step] at h
      split at h
      · cases h
      · rename_i key hkey
        obtain ⟨result, hresult, h⟩ := Except.bind_ok h
        cases result with
        | none => cases h
        | some p =>
            cases h
            exact ⟨token, key, p, rfl, hkey, hresult, rfl⟩

theorem step_struct_ok {fields : List (String × Option Object)}
    (h : step d snapshot c ⟨t, .struct fields, own, provided⟩ = .ok found) :
    ∃ name p, c = .dereference name ∧ Entries.find? name fields = some (some p) ∧
      found = p.inScopeAll (structScopes fields own) := by
  cases c with
  | index token => cases h
  | dereference name =>
      simp only [step] at h
      split at h
      · rename_i p hp
        cases h
        exact ⟨name, p, rfl, hp, rfl⟩
      · cases h

/-- A step leads to a part of the object, seen in the scopes of the parts. -/
theorem mem_parts_of_step {o : Object} (h : step d snapshot c o = .ok found) :
    ∃ p ∈ o.payload.parts, found = p.inScopeAll o.innerScopes := by
  obtain ⟨t, payload, own, provided⟩ := o
  cases payload with
  | scalar | template | typed | untyped => cases c <;> cases h
  | list elements =>
      obtain ⟨_, _, p, -, -, hp, rfl⟩ := step_list_ok h
      exact ⟨p, List.mem_of_getElem? hp, rfl⟩
  | map pairs =>
      cases t with
      | map keyType valueType =>
          obtain ⟨_, _, p, -, -, hp, rfl⟩ := step_map_ok h
          obtain ⟨k, hm⟩ := mem_of_findPair hp
          exact ⟨p, Payload.mem_parts_map.mpr ⟨k, p, hm, .inr rfl⟩, rfl⟩
      | _ => cases c <;> cases h
  | struct fields =>
      obtain ⟨name, p, -, hp, rfl⟩ := step_struct_ok h
      exact ⟨p, Payload.mem_parts_struct.mpr ⟨name, Entries.mem_of_find? hp⟩, rfl⟩

end

/-! ## Two steps side by side -/

section

variable {R Q : Object → Object → Prop}

theorem step_list_alongside {os ps : List Object} (hname : t.name = t'.name) (h : List.Forall₂ R os ps)
    (hfound : ∀ o p, R o p → Q (o.inScopeAll own) (p.inScopeAll own')) (c : Component) :
    Alongside Q (step d snapshot c ⟨t, .list os, own, provided⟩)
      (step d snapshot' c ⟨t', .list ps, own', provided'⟩) := by
  cases c with
  | dereference name =>
      simp only [step, typeName, hname]
      exact .error
  | index token =>
      simp only [step, typeName, hname]
      cases Decimal.position? token.toList with
      | none => exact .error
      | some i =>
          have hplace := Entries.getElem?_forall₂ h i
          dsimp only
          generalize os[i]? = found, ps[i]? = found' at hplace ⊢
          cases hplace with
          | none => exact .error
          | some hop => exact .ok (hfound _ _ hop)

theorem step_map_alongside {k k' v v' : Ty} {os ps : List (Object × Object)}
    (hname : (Ty.map k v).name = (Ty.map k' v').name)
    (hkey : ∀ token, Together (fun key key' => Alongside (Option.Rel R) (findPair d snapshot key os)
      (findPair d snapshot' key' ps)) (k.construct d (.ofText token)) (k'.construct d (.ofText token)))
    (hfound : ∀ o p, R o p → Q (o.inScopeAll own) (p.inScopeAll own')) (c : Component) :
    Alongside Q (step d snapshot c ⟨.map k v, .map os, own, provided⟩)
      (step d snapshot' c ⟨.map k' v', .map ps, own', provided'⟩) := by
  cases c with
  | dereference name =>
      simp only [step, typeName, hname]
      exact .error
  | index token =>
      have hkey := hkey token
      simp only [step, typeName, hname]
      generalize k.construct d (.ofText token) = x, k'.construct d (.ofText token) = y at hkey ⊢
      cases hkey with
      | error => exact .error
      | ok hpairs =>
          refine hpairs.bind fun found found' hplace => ?_
          cases hplace with
          | none => exact .error
          | some hop => exact .ok (hfound _ _ hop)

theorem step_struct_alongside {fs gs : List (String × Option Object)} (hname : t.name = t'.name)
    (h : List.Forall₂ (fun f g => f.1 = g.1 ∧ Option.Rel R f.2 g.2) fs gs)
    (hfound : ∀ name o p, Entries.find? name fs = some (some o) → R o p →
      Q (o.inScopeAll (structScopes fs own)) (p.inScopeAll (structScopes gs own'))) (c : Component) :
    Alongside Q (step d snapshot c ⟨t, .struct fs, own, provided⟩)
      (step d snapshot' c ⟨t', .struct gs, own', provided'⟩) := by
  cases c with
  | index token =>
      simp only [step, typeName, hname]
      exact .error
  | dereference name =>
      have hplace := Entries.find?_forall₂ h name
      have hfound := hfound name
      simp only [step, typeName, hname]
      generalize Entries.find? name fs = found, Entries.find? name gs = found' at hplace hfound ⊢
      cases hplace with
      | none => exact .error
      | some hvalue =>
          cases hvalue with
          | none => exact .error
          | some hop => exact .ok (hfound _ _ rfl hop)

end

end TypedTemplate.Object
