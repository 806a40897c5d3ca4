import TypedTemplate.Proofs.Object.Reload
import TypedTemplate.Proofs.Object.Update

/-!
# Where construction fails

A value that has the shape of its type can only fail to become an object at one of its scalars. Construction ends at the
first of them that is refused. Every list and struct around it puts its own place into the error, over what stood there,
so that of the whole place only the outermost step is left.
-/

namespace TypedTemplate

variable {d : Declarations}

/-- The value has the shape of the type, which has no maps and no choices. Whether the scalars can be converted is left
open, and in a struct any field may be missing. -/
inductive Value.Fits (d : Declarations) : Ty → Value → Prop
  | scalar {t s} : t.isScalar = true → Fits d t (.scalar s)
  | list {element vs} : (∀ v ∈ vs, Fits d element v) → Fits d (.list element) (.sequence vs)
  | struct {id name entries} : (∀ entry ∈ entries, (Entries.find? entry.1 (d.fields id)).isSome) →
      (∀ k v f, (k, v) ∈ entries → Entries.find? k (d.fields id) = some f → Fits d f.ty v) →
      Fits d (.struct id name) (.mapping entries)

theorem Value.Fits.field {id : StructId} {name k : String} {f : Field} {v : Value}
    (hf : Entries.find? k (d.fields id) = some f) (hv : v.Fits d f.ty) :
    (Value.mapping [(k, v)]).Fits d (.struct id name) := by
  refine .struct (by simp [hf]) fun k' v' f' hm hf' => ?_
  cases List.mem_singleton.mp hm
  obtain rfl := Option.some.inj (hf.symm.trans hf')
  exact hv

/-- The first value holds the second at the place. -/
inductive Value.At : Value → Ref → Value → Prop
  | root {v} : At v ⟨[]⟩ v
  | element {vs v place x} {i : Nat} : vs[i]? = some v → At v place x →
      At (.sequence vs) ⟨.index i.repr :: place.components⟩ x
  | entry {entries k v place x} : (k, v) ∈ entries → At v place x →
      At (.mapping entries) ⟨.dereference k :: place.components⟩ x

/-! ## Leaves -/

/-- A scalar inside a value, with the place where it stands and the type that it is to have. -/
structure Leaf where
  place : Ref
  ty : Ty
  scalar : Scalar

namespace Leaf

def under (c : Component) (leaf : Leaf) : Leaf := { leaf with place := ⟨c :: leaf.place.components⟩ }

/-- Why the scalar is refused, if it is. -/
def error? (leaf : Leaf) : Option Error := failure? (leaf.ty.constructScalar leaf.scalar)

end Leaf

mutual

/-- The scalars of a value, in the order in which construction comes to them. -/
def Ty.leaves (d : Declarations) (t : Ty) : Value → List Leaf
  | .scalar s => [⟨⟨[]⟩, t, s⟩]
  | .sequence elements =>
    match t with
    | .list element => elementLeaves d element 0 elements
    | _ => []
  | .mapping entries => entryLeaves d (t.fields d) entries

def elementLeaves (d : Declarations) (element : Ty) (i : Nat) : List Value → List Leaf
  | [] => []
  | v :: rest => (element.leaves d v).map (.under (.index (toString i))) ++ elementLeaves d element (i + 1) rest

def entryLeaves (d : Declarations) (declared : List (String × Field)) : List (String × Value) → List Leaf
  | [] => []
  | (k, v) :: rest =>
    (match Entries.find? k declared with
    | some f => (f.ty.leaves d v).map (.under (.dereference k))
    | none => []) ++ entryLeaves d declared rest

end

namespace Ty

theorem mem_elementLeaves {element : Ty} {i : Nat} {vs : List Value} {leaf : Leaf}
    (h : leaf ∈ elementLeaves d element i vs) :
    ∃ j v, vs[j]? = some v ∧ ∃ inner ∈ element.leaves d v, leaf = inner.under (.index (toString (i + j))) := by
  induction vs generalizing i with
  | nil => cases h
  | cons v rest ih =>
      rcases List.mem_append.mp h with hm | hm
      · obtain ⟨inner, hinner, rfl⟩ := List.mem_map.mp hm
        exact ⟨0, v, rfl, inner, hinner, rfl⟩
      · obtain ⟨j, w, hw, inner, hinner, rfl⟩ := ih hm
        exact ⟨j + 1, w, hw, inner, hinner, by rw [Nat.add_right_comm, Nat.add_assoc]⟩

theorem mem_entryLeaves {declared : List (String × Field)} {entries : List (String × Value)} {leaf : Leaf}
    (h : leaf ∈ entryLeaves d declared entries) : ∃ k v f, (k, v) ∈ entries ∧ Entries.find? k declared = some f ∧
      ∃ inner ∈ f.ty.leaves d v, leaf = inner.under (.dereference k) := by
  induction entries with
  | nil => cases h
  | cons entry rest ih =>
      obtain ⟨k, v⟩ := entry
      rcases List.mem_append.mp h with hm | hm
      · split at hm
        · rename_i f hf
          obtain ⟨inner, hinner, rfl⟩ := List.mem_map.mp hm
          exact ⟨k, v, f, by simp, hf, inner, hinner, rfl⟩
        · cases hm
      · obtain ⟨k', w, f, hw, hf, inner, hinner, rfl⟩ := ih hm
        exact ⟨k', w, f, List.mem_cons_of_mem _ hw, hf, inner, hinner, rfl⟩

/-- Every leaf stands at its place, and it stands at the root only if it is the whole value. -/
theorem at_of_mem_leaves {t : Ty} {v : Value} (hv : v.Fits d t) {leaf : Leaf} (h : leaf ∈ t.leaves d v) :
    v.At leaf.place (.scalar leaf.scalar) ∧ (leaf.place.isEmpty ↔ ∃ s, v = .scalar s) := by
  induction hv generalizing leaf with
  | scalar _ =>
      obtain rfl := List.mem_singleton.mp h
      exact ⟨.root, iff_of_true rfl ⟨_, rfl⟩⟩
  | list _ ih =>
      obtain ⟨j, v, hv, inner, hinner, rfl⟩ := mem_elementLeaves h
      refine ⟨?_, iff_of_false (by simp [Leaf.under, Ref.isEmpty]) (by simp)⟩
      rw [Nat.zero_add]
      exact .element hv (ih v (List.mem_of_getElem? hv) hinner).1
  | struct _ _ ih =>
      obtain ⟨k, v, f, hv, hf, inner, hinner, rfl⟩ := mem_entryLeaves h
      refine ⟨?_, iff_of_false (by simp [Leaf.under, Ref.isEmpty]) (by simp)⟩
      exact .entry hv (ih k v f hv hf hinner).1

end Ty

/-! ## Places in errors -/

/-- The first step of a reference. -/
def Ref.outermost (r : Ref) : Ref := ⟨r.components.take 1⟩

/-- The error as one that concerns the place; the value as a whole is no place worth naming. -/
def Error.locate (e : Error) (place : Ref) : Error :=
  { e with path := if place.isEmpty then none else some place.address }

theorem Error.locate_nil {e : Error} (h : e.path = none) : e.locate ⟨[]⟩ = e := by
  cases e
  cases h
  rfl

theorem Error.path_locate_outermost {e : Error} {place : Ref} :
    (e.locate place.outermost).path = none ↔ place.isEmpty := by
  obtain ⟨components⟩ := place
  cases components <;> simp [locate, Ref.outermost, Ref.isEmpty]

theorem Component.length_toString_pos (c : Component) : 0 < c.toString.length := by
  cases c <;> simp only [toString, String.length_append]
  · exact Nat.add_pos_left (by decide) _
  · exact Nat.add_pos_right _ (by decide)

theorem Ref.address_cons (c : Component) (rest : List Component) :
    (Ref.mk (c :: rest)).address = (Ref.mk [c]).address ++ String.join (rest.map Component.toString) := by
  cases c <;> simp [address]

/-- Only a reference of one step at most has the address of its outermost step. -/
theorem Error.locate_outermost_eq_iff {e : Error} {place : Ref} :
    e.locate place.outermost = e.locate place ↔ place.length ≤ 1 := by
  obtain ⟨components⟩ := place
  match components with
  | [] => simp [Ref.outermost, Ref.length]
  | [c] => simp [Ref.outermost, Ref.length]
  | c :: c' :: rest =>
      refine iff_of_false (fun h => ?_) (by simp [Ref.length])
      have haddress : (Ref.mk [c]).address = (Ref.mk (c :: c' :: rest)).address := by
        simpa [Error.locate, Ref.outermost, Ref.isEmpty] using h
      rw [Ref.address_cons c (c' :: rest)] at haddress
      have hlength := congrArg String.length haddress
      have hpos := c'.length_toString_pos
      simp only [List.map_cons, String.join_cons, String.length_append] at hlength
      omega

namespace Leaf

/-- The error in which construction ends if this is the first scalar that is refused. -/
def fault? (leaf : Leaf) : Option Error := leaf.error?.map fun e => e.locate leaf.place.outermost

/-- What stands around a leaf names its own place in the error, and no other. -/
theorem fault?_under (c : Component) (leaf : Leaf) :
    (leaf.under c).fault? = leaf.fault?.map (·.withPath (Ref.mk [c]).address) := by
  simp only [fault?, Option.map_map]
  rfl

theorem findSome?_under (c : Component) (leaves : List Leaf) :
    (leaves.map (under c)).findSome? fault? =
      (leaves.findSome? fault?).map (·.withPath (Ref.mk [c]).address) := by
  rw [List.findSome?_map, List.map_findSome?]
  exact congrArg (leaves.findSome? ·) (funext (fault?_under c))

end Leaf

/-! ## Construction -/

namespace Ty

theorem failure?_constructElements {element : Ty} {vs : List Value}
    (h : ∀ v ∈ vs, failure? (element.construct d v.toInput) = (element.leaves d v).findSome? Leaf.fault?) (i : Nat) :
    failure? (constructElements d element i (elementInputs vs)) =
      (elementLeaves d element i vs).findSome? Leaf.fault? := by
  induction vs generalizing i with
  | nil => rfl
  | cons v rest ih =>
      have hrest := ih (fun v hv => h v (List.mem_cons_of_mem _ hv)) (i + 1)
      have hv : failure? (atPath s!"[{i}]" (element.construct d v.toInput)) =
          ((element.leaves d v).map (.under (.index (toString i)))).findSome? Leaf.fault? := by
        rw [Leaf.findSome?_under, ← h v (by simp), failure?_atPath]
        rfl
      rw [elementInputs, constructElements, elementLeaves, List.findSome?_append, ← hrest, ← hv]
      cases atPath s!"[{i}]" (element.construct d v.toInput) with
      | error e => rfl
      | ok o => cases constructElements d element (i + 1) (elementInputs rest) <;> rfl

theorem failure?_assignment {t : Ty} {declared : List (String × Field)} {k : String} {f : Field}
    (hf : Entries.find? k declared = some f) (v : Value) :
    failure? (assignment d t declared (.ofText k, v.toInput)) = failure? (atPath k (f.ty.construct d v.toInput)) := by
  simp only [assignment, Input.ofText, fieldName, bind, Except.bind, hf]
  split
  · exact absurd ‹_› (toInput_ne_empty v)
  · cases atPath k (f.ty.construct d v.toInput) <;> rfl

theorem offence?_entryInputs {t : Ty} {declared : List (String × Field)} {entries : List (String × Value)}
    (hdeclared : ∀ entry ∈ entries, (Entries.find? entry.1 declared).isSome)
    (h : ∀ k v f, (k, v) ∈ entries → Entries.find? k declared = some f →
      failure? (f.ty.construct d v.toInput) = (f.ty.leaves d v).findSome? Leaf.fault?) :
    offence? d t declared (entryInputs entries) = (entryLeaves d declared entries).findSome? Leaf.fault? := by
  induction entries with
  | nil => rfl
  | cons entry rest ih =>
      obtain ⟨k, v⟩ := entry
      obtain ⟨f, hf⟩ := Option.isSome_iff_exists.mp (hdeclared (k, v) (by simp))
      have hrest := ih (fun entry hm => hdeclared entry (List.mem_cons_of_mem _ hm))
        fun k v f hm => h k v f (List.mem_cons_of_mem _ hm)
      have hv : failure? (assignment d t declared (.ofText k, v.toInput)) =
          ((f.ty.leaves d v).map (.under (.dereference k))).findSome? Leaf.fault? := by
        rw [Leaf.findSome?_under, ← h k v f (by simp) hf, failure?_assignment hf, failure?_atPath]
        simp [Ref.address]
      rw [entryInputs, offence?, List.findSome?_cons, entryLeaves, hf, List.findSome?_append, ← hv, ← hrest,
        Input.ofText]
      cases failure? (assignment d t declared (.draft (.scalar (.string k)), v.toInput)) <;> rfl

/-- Construction ends in the fault of the first leaf that has one, and succeeds if none has. -/
theorem failure?_construct {t : Ty} {v : Value} (hv : v.Fits d t) :
    failure? (t.construct d v.toInput) = (t.leaves d v).findSome? Leaf.fault? := by
  induction hv with
  | @scalar t s ht =>
      have hconstruct : t.construct d (Value.scalar s).toInput = t.constructScalar s := by
        cases t <;> first | rfl | cases ht
      rw [hconstruct, leaves, List.findSome?_singleton, Leaf.fault?, Leaf.error?]
      cases he : t.constructScalar s with
      | error e =>
          -- Nothing stands around the scalar, and conversion names no place itself.
          have hpath : e.path = none := by
            rcases constructScalar_error he with ⟨cause, rfl⟩ | ⟨-, address, cause, rfl⟩ <;> rfl
          exact congrArg some (Error.locate_nil hpath).symm
      | ok o => rfl
  | @list element vs _ ih =>
      have helements := failure?_constructElements ih 0
      rw [Value.toInput, construct, constructDraft, leaves, ← helements]
      cases constructElements d element 0 (elementInputs vs) <;> rfl
  | @struct id name entries hdeclared _ ih =>
      rw [Value.toInput, Object.construct_struct, assign_eq, offence?_entryInputs hdeclared ih, leaves, fields]
      cases (entryLeaves d (d.fields id) entries).findSome? Leaf.fault? <;> rfl

/-- Construction fails with the error of the first scalar that is refused, which for a text without placeholders and any
other scalar says that it cannot be converted. The error has a place unless the value is that scalar itself. The place
is that of the scalar only where this stands no deeper than in the outermost list or struct. -/
theorem construct_located_iff {t : Ty} {v : Value} (hv : v.Fits d t) {leaf : Leaf}
    (hleaf : (t.leaves d v).find? (·.error?.isSome) = some leaf) :
    v.At leaf.place (.scalar leaf.scalar) ∧ ∃ e, leaf.error? = some e ∧
      ((Value.scalar leaf.scalar).holdsPlaceholder = false →
        ∃ cause, e = { Error.typeCoercion leaf.scalar.toString leaf.ty.name with cause := cause }) ∧
      t.construct d v.toInput = .error (e.locate leaf.place.outermost) ∧
      ((e.locate leaf.place.outermost).path = none ↔ ∃ s, v = .scalar s) ∧
      (t.construct d v.toInput = .error (e.locate leaf.place) ↔ leaf.place.length ≤ 1) := by
  obtain ⟨hrefused, before, after, heq, hbefore⟩ := List.find?_eq_some_iff_append.mp hleaf
  obtain ⟨e, he⟩ := Option.isSome_iff_exists.mp hrefused
  have hfirst : (t.leaves d v).findSome? Leaf.fault? = some (e.locate leaf.place.outermost) := by
    refine List.findSome?_eq_some_iff.mpr ⟨before, leaf, after, heq, by rw [Leaf.fault?, he]; rfl, fun other hm => ?_⟩
    have hnone : other.error? = none := by simpa using hbefore other hm
    rw [Leaf.fault?, hnone]
    rfl
  have hconstruct : t.construct d v.toInput = .error (e.locate leaf.place.outermost) :=
    failure?_eq_some.mp ((failure?_construct hv).trans hfirst)
  obtain ⟨hat, hroot⟩ := at_of_mem_leaves hv (List.mem_of_find?_eq_some hleaf)
  refine ⟨hat, e, he, fun hplain => ?_, hconstruct, ?_, ?_⟩
  · refine (constructScalar_error (failure?_eq_some.mp he)).resolve_right fun hplaceholder => ?_
    rw [hplain] at hplaceholder
    cases hplaceholder.1
  · rw [← hroot, Error.path_locate_outermost]
  · rw [hconstruct, Except.error.injEq, Error.locate_outermost_eq_iff]

private def task : Declarations :=
  ⟨1, [(0, [("hours", ⟨.integer, false, none⟩), ("parts", ⟨.list (.struct 0 "Task"), false, none⟩)])]⟩

private def taskValue : Value :=
  .mapping [("parts", .sequence [
    .mapping [("hours", .scalar (.integer 2))],
    .mapping [("parts", .sequence [.mapping [("hours", .scalar (.string "x"))]])]])]

private def taskLeaf : Leaf :=
  ⟨⟨[.dereference "parts", .index "1", .dereference "parts", .index "0", .dereference "hours"]⟩, .integer, .string "x"⟩

/-- In a part of a part the hours are refused, and the error names the outer list of parts. -/
theorem construct_located_task :
    taskValue.Fits task (.struct 0 "Task") ∧
    ((Ty.struct 0 "Task").leaves task taskValue).find? (·.error?.isSome) = some taskLeaf ∧
    ∃ e, taskLeaf.error? = some e ∧ e.kind = .typeCoercion "x" "Integer" ∧
      (Ty.struct 0 "Task").construct task taskValue.toInput = .error (e.locate ⟨[.dereference "parts"]⟩) ∧
      ¬ (Ty.struct 0 "Task").construct task taskValue.toInput = .error (e.locate taskLeaf.place) := by
  have hfits : taskValue.Fits task (.struct 0 "Task") :=
    .field rfl (.list (by
      simp only [List.forall_mem_cons]
      exact ⟨.field rfl (.scalar rfl), .field rfl (.list (by simpa using .field rfl (.scalar rfl))), by simp⟩))
  have hleaf : ((Ty.struct 0 "Task").leaves task taskValue).find? (·.error?.isSome) = some taskLeaf := by cbv
  obtain ⟨-, e, he, hcoercion, hconstruct, -, hiff⟩ := construct_located_iff hfits hleaf
  obtain ⟨cause, rfl⟩ := hcoercion (by cbv)
  exact ⟨hfits, hleaf, _, he, rfl, hconstruct, hiff.not.mpr (by decide)⟩

private def plan : Declarations :=
  ⟨2, [(0, [("port", ⟨.integer, false, none⟩)]), (1, [("jobs", ⟨.list (.struct 0 "Job"), false, none⟩)])]⟩

private def planValue : Value :=
  .mapping [("jobs", .sequence [
    .mapping [("port", .scalar (.integer 80))],
    .mapping [("port", .scalar (.integer 443))],
    .mapping [("port", .scalar (.string "x"))]])]

/-- Of the place of a port in the third job only the name of the list is left. -/
theorem construct_located_plan :
    planValue.Fits plan (.struct 1 "Plan") ∧
    ((Ty.struct 1 "Plan").leaves plan planValue).find? (·.error?.isSome) =
      some ⟨⟨[.dereference "jobs", .index "2", .dereference "port"]⟩, .integer, .string "x"⟩ ∧
    (Ref.mk [.dereference "jobs", .index "2", .dereference "port"]).address = "jobs[2].port" ∧
    (Ty.struct 1 "Plan").construct plan planValue.toInput =
      .error ((Error.typeCoercion "x" "Integer").withPath "jobs") ∧
    (Ty.struct 1 "Plan").construct plan planValue.toInput ≠
      .error ((Error.typeCoercion "x" "Integer").withPath "jobs[2].port") := by
  have hfits : planValue.Fits plan (.struct 1 "Plan") :=
    .field rfl (.list (by
      simp only [List.forall_mem_cons]
      exact ⟨.field rfl (.scalar rfl), .field rfl (.scalar rfl), .field rfl (.scalar rfl), by simp⟩))
  have hconstruct : (Ty.struct 1 "Plan").construct plan planValue.toInput =
      .error ((Error.typeCoercion "x" "Integer").withPath "jobs") := by cbv
  refine ⟨hfits, by cbv, by cbv, hconstruct, ?_⟩
  rw [hconstruct, Ne, Except.error.injEq]
  decide

end Ty

end TypedTemplate
