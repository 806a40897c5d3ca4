import TypedTemplate.Environment
import TypedTemplate.Object.Find
import TypedTemplate.Proofs.Entries
import TypedTemplate.Proofs.Outcome

/-!
# Environments of documents

Reading a document from front to back meets a key before what stands under it, and each leaf under all the keys that lead
to it. Making an environment of the document ends at the first of these that cannot be taken in, be it a key or a leaf.
If there is none, every reference is bound to the text of the last leaf whose keys come to it, at whatever depth the leaf
stands.
-/

namespace TypedTemplate

/-! ## Documents -/

/-- The references of several keys, one behind the other, in one. -/
def Ref.ofKeys (keys : List String) : Except Error Ref := do
  return ⟨(← keys.mapM Ref.parse).flatMap Ref.components⟩

theorem Ref.ofKeys_append {keys : List String} {r inner : Ref} {k : String} (h : ofKeys keys = .ok r)
    (hk : parse k = .ok inner) : ofKeys (keys ++ [k]) = .ok (r.concat inner) := by
  obtain ⟨rs, hrs, h⟩ := Except.bind_ok h
  cases h
  simp [ofKeys, hrs, hk, concat, bind, Except.bind, pure, Except.pure]

namespace Value

/-- The text of a leaf; none for null and for a sequence. -/
def text? : Value → Option String
  | scalar .null => none
  | scalar s => some s.toString
  | _ => none

theorem text?_eq_none_iff {v : Value} : v.text? = none ↔ ¬ ∃ s, v = scalar s ∧ s ≠ .null := by
  cases v with
  | scalar s => cases s <;> simp [text?]
  | sequence elements => simp [text?]
  | mapping entries => simp [text?]

/-- What is met in a document: a key, or a leaf, which is any value but a mapping, under the keys that lead to it. -/
inductive Visit where
  | key (k : String)
  | leaf (keys : List String) (v : Value)

mutual

/-- What is met in a value that stands under some keys, in the order of the document. -/
def visits (keys : List String) : Value → List Visit
  | scalar s => [.leaf keys (scalar s)]
  | sequence elements => [.leaf keys (sequence elements)]
  | mapping entries => entryVisits keys entries

def entryVisits (keys : List String) : List (String × Value) → List Visit
  | [] => []
  | (k, v) :: rest => .key k :: (visits (keys ++ [k]) v ++ entryVisits keys rest)

end

namespace Visit

/-- The error at a key that cannot be read as a reference, or at a leaf that has no text. -/
def error? : Visit → Option Error
  | key k => failure? (Ref.parse k)
  | leaf keys v =>
    match v.text? with
    | some _ => none
    | none =>
      match Ref.ofKeys keys with
      | .ok r => some (Environment.unbindable r v)
      -- Never the first error: the key has been met before the leaf.
      | .error e => some e

/-- The reference that the keys of a leaf come to, and the text of the leaf. -/
def binding? : Visit → Option (Ref × Binding)
  | key _ => none
  | leaf keys v => do return (← (Ref.ofKeys keys).toOption, .text (← v.text?))

theorem error?_key_eq_none_iff {k : String} : (key k).error? = none ↔ ∃ r, Ref.parse k = .ok r := failure?_eq_none

theorem error?_leaf_eq_none_iff {keys : List String} {v : Value} :
    (leaf keys v).error? = none ↔ ∃ s, v = .scalar s ∧ s ≠ .null := by
  rw [← not_iff_not, ← text?_eq_none_iff, error?]
  cases v.text? with
  | some s => simp
  | none => cases Ref.ofKeys keys <;> simp

theorem forall_error?_eq_none_iff {visits : List Visit} : (∀ visit ∈ visits, visit.error? = none) ↔
    (∀ k, key k ∈ visits → ∃ r, Ref.parse k = .ok r) ∧
      ∀ keys v, leaf keys v ∈ visits → ∃ s, v = .scalar s ∧ s ≠ .null := by
  constructor
  · intro h
    exact ⟨fun k hk => error?_key_eq_none_iff.mp (h _ hk), fun keys v hv => error?_leaf_eq_none_iff.mp (h _ hv)⟩
  · rintro ⟨hkeys, hleaves⟩ visit hvisit
    cases visit with
    | key k => exact error?_key_eq_none_iff.mpr (hkeys k hvisit)
    | leaf keys v => exact error?_leaf_eq_none_iff.mpr (hleaves keys v hvisit)

end Visit

end Value

/-! ## Binding -/

namespace Environment

open Value

/-- Takes in what is met in a document, unless there is an error at some of it. -/
def bindVisits (e : Environment) (visits : List Visit) : Except Error Environment :=
  match visits.findSome? Visit.error? with
  | some err => .error err
  | none => .ok ⟨Entries.insertAll e.table (visits.filterMap Visit.binding?)⟩

theorem bindVisits_nil (e : Environment) : e.bindVisits [] = .ok e := by
  cases e
  rfl

theorem bindVisits_append (e : Environment) (first second : List Visit) :
    e.bindVisits (first ++ second) = e.bindVisits first >>= fun e => e.bindVisits second := by
  simp only [bindVisits, List.findSome?_append, List.filterMap_append]
  cases first.findSome? Visit.error? with
  | some err => rfl
  | none => simp [bind, Except.bind, Entries.insertAll, List.foldl_append]

theorem bindVisits_key (e : Environment) (k : String) :
    e.bindVisits [.key k] = (Ref.parse k).map fun _ => e := by
  obtain ⟨table⟩ := e
  simp only [bindVisits, List.findSome?_cons, List.findSome?_nil, Visit.error?]
  cases Ref.parse k <;> rfl

theorem bindVisits_leaf {keys : List String} {r : Ref} (h : Ref.ofKeys keys = .ok r) (e : Environment) (v : Value) :
    e.bindVisits [.leaf keys v] =
      match v.text? with
      | some s => .ok (e.insert r (.text s))
      | none => .error (unbindable r v) := by
  simp only [bindVisits, List.findSome?_cons, List.findSome?_nil, Visit.error?, h]
  cases htext : v.text? with
  | none => rfl
  | some s => simp [Visit.binding?, h, htext, Except.toOption, Entries.insertAll, insert]

mutual

/-- Binding a value takes in what is met in it, from front to back. -/
theorem bindValue_eq {keys : List String} {r : Ref} (h : Ref.ofKeys keys = .ok r) (e : Environment) :
    (v : Value) → e.bindValue r v = e.bindVisits (v.visits keys)
  | .scalar s => by
      rw [visits, bindVisits_leaf h]
      cases s <;> rfl
  | .sequence elements => by
      rw [visits, bindVisits_leaf h]
      rfl
  | .mapping entries => by
      rw [visits, bindValue, bindEntries_eq h e entries]

theorem bindEntries_eq {keys : List String} {r : Ref} (h : Ref.ofKeys keys = .ok r) (e : Environment) :
    (entries : List (String × Value)) → e.bindEntries r entries = e.bindVisits (entryVisits keys entries)
  | [] => by rw [entryVisits, bindVisits_nil, bindEntries]
  | (k, v) :: rest => by
      rw [entryVisits, bindEntries, ← List.singleton_append, bindVisits_append, bindVisits_key]
      cases hk : Ref.parse k with
      | error err => rfl
      | ok inner =>
          have hv := bindValue_eq (Ref.ofKeys_append h hk) e v
          simp only [bind, Except.bind, Except.map, hv, bindVisits_append]
          cases e.bindVisits (v.visits (keys ++ [k])) with
          | error err => rfl
          | ok e' => exact bindEntries_eq h e' rest

end

theorem bindVisits_eq_error_iff {e : Environment} {visits : List Visit} {err : Error} :
    e.bindVisits visits = .error err ↔ visits.findSome? Visit.error? = some err := by
  rw [bindVisits]
  cases visits.findSome? Visit.error? <;> simp

theorem exists_bindVisits_iff {e : Environment} {visits : List Visit} :
    (∃ e', e.bindVisits visits = .ok e') ↔ ∀ visit ∈ visits, visit.error? = none := by
  rw [← List.findSome?_eq_none_iff, bindVisits]
  cases visits.findSome? Visit.error? <;> simp

theorem get?_of_bindVisits {visits : List Visit} {e : Environment} (h : empty.bindVisits visits = .ok e) (r : Ref) :
    e.get? r = ((visits.filterMap Visit.binding?).reverse.find? (·.1 = r)).map Prod.snd := by
  rw [bindVisits] at h
  split at h
  · cases h
  · cases h
    simp [get?, Entries.find?_insertAll_reverse, empty, Entries.find?]

/-- A document can be flattened exactly if all its keys can be read and all its leaves are scalars other than null. If
not, the error is the one at the first of those that fail, in the order in which they are met. If it can, a reference is
bound to the text of the last leaf whose keys come to it, and to nothing if there is none. -/
theorem ofValue_mapping (entries : List (String × Value)) :
    let visits := entryVisits [] entries
    ((∃ e, ofValue (.mapping entries) = .ok e) ↔
      (∀ k, .key k ∈ visits → ∃ r, Ref.parse k = .ok r) ∧
        ∀ keys v, .leaf keys v ∈ visits → ∃ s, v = .scalar s ∧ s ≠ .null) ∧
    (∀ err, ofValue (.mapping entries) = .error err ↔ visits.findSome? Visit.error? = some err) ∧
    ∀ e, ofValue (.mapping entries) = .ok e →
      ∀ r, e.get? r = ((visits.filterMap Visit.binding?).reverse.find? (·.1 = r)).map Prod.snd := by
  intro visits
  have hbind : ofValue (.mapping entries) = empty.bindVisits visits := bindEntries_eq rfl empty entries
  rw [hbind]
  refine ⟨?_, fun err => bindVisits_eq_error_iff, fun e he => get?_of_bindVisits he⟩
  rw [exists_bindVisits_iff, Visit.forall_error?_eq_none_iff]

/-- A key may be an address of several components, and bind again what stands deeper in the document. -/
example :
    let document := Value.mapping [("a", .mapping [("b", .bool true), ("b.c", .string "x")]), ("a.b", .string "y")]
    (ofValue document).map (fun e => (e.get? (.ofName "a"), e.get? ⟨[.dereference "a", .dereference "b"]⟩)) =
      .ok (none, some (.text "y")) := by cbv

end Environment

end TypedTemplate
