import TypedTemplate.Object.Struct
import TypedTemplate.Proofs.Entries
import TypedTemplate.Proofs.Outcome

/-!
# Updating structs

Making a struct assigns one pair of inputs after the other to its fields, which stand at their defaults before. An
update goes on from the fields as they are, so that it comes to the same as making the struct from the pairs of both.
-/

namespace TypedTemplate

namespace Ty

variable {d : Declarations} {t : Ty} {declared : List (String × Field)}

variable (d t declared) in
/-- What a pair of inputs assigns: the field, and its value if the input is not empty. -/
def assignment (pair : Input × Input) : Except Error (String × Option Object) := do
  let name ← t.fieldName pair.1
  match Entries.find? name declared with
  | none => throw (Error.unknownField name t.name)
  | some f =>
    match pair.2 with
    | .draft .empty => return (name, none)
    | input => return (name, some (← atPath name (f.ty.construct d input)))

variable (d t declared) in
/-- The error at the first pair that cannot be assigned. -/
def offence? (pairs : List (Input × Input)) : Option Error :=
  pairs.findSome? fun pair => failure? (assignment d t declared pair)

variable (d t declared) in
/-- What the pairs assign, in their order. -/
def assignments (pairs : List (Input × Input)) : List (String × Option Object) :=
  pairs.filterMap fun pair => (assignment d t declared pair).toOption

theorem assignment_declared {pair : Input × Input} {name : String} {value : Option Object}
    (h : assignment d t declared pair = .ok (name, value)) : name ∈ declared.map Prod.fst := by
  obtain ⟨field, -, h⟩ := Except.bind_ok h
  split at h
  · cases h
  · rename_i f hf
    have hname : name = field := by
      split at h
      · cases h
        rfl
      · obtain ⟨o, -, h⟩ := Except.bind_ok h
        cases h
        rfl
    exact hname ▸ Entries.mem_map_fst_iff.mpr ⟨f, hf⟩

theorem assignments_declared {pairs : List (Input × Input)} {entry : String × Option Object}
    (h : entry ∈ assignments d t declared pairs) : entry.1 ∈ declared.map Prod.fst := by
  obtain ⟨pair, -, hpair⟩ := List.mem_filterMap.mp h
  exact assignment_declared (Except.toOption_eq_some.mp hpair)

/-- Assigning goes pair by pair. -/
theorem assign_cons (pair : Input × Input) (rest : List (Input × Input)) (fields : List (String × Option Object)) :
    assign d t declared fields (pair :: rest) = assignment d t declared pair >>= fun entry =>
      assign d t declared (Entries.insert entry.1 entry.2 fields) rest := by
  obtain ⟨key, input⟩ := pair
  by_cases hempty : input = .draft .empty
  · subst hempty
    rw [assign, assignment]
    cases t.fieldName key with
    | error e => rfl
    | ok name =>
        simp only [bind, Except.bind]
        cases Entries.find? name declared <;> rfl
  · rw [assign.eq_3 d t declared fields key input rest hempty, assignment]
    cases t.fieldName key with
    | error e => rfl
    | ok name =>
        simp only [bind, Except.bind]
        cases Entries.find? name declared with
        | none => rfl
        | some f =>
            dsimp only
            cases atPath name (f.ty.construct d input) <;> rfl

theorem assign_eq (pairs : List (Input × Input)) (fields : List (String × Option Object)) :
    assign d t declared fields pairs = match offence? d t declared pairs with
      | some e => .error e
      | none => .ok (Entries.insertAll fields (assignments d t declared pairs)) := by
  induction pairs generalizing fields with
  | nil => rw [assign]; rfl
  | cons pair rest ih =>
      rw [assign_cons, offence?, List.findSome?_cons, assignments, List.filterMap_cons]
      cases assignment d t declared pair with
      | error e => rfl
      | ok entry => exact ih _

theorem assign_append (first second : List (Input × Input)) (fields : List (String × Option Object)) :
    assign d t declared fields (first ++ second) =
      assign d t declared fields first >>= fun fields => assign d t declared fields second := by
  simp only [assign_eq, offence?, assignments, List.findSome?_append, List.filterMap_append]
  cases first.findSome? fun pair => failure? (assignment d t declared pair) with
  | some e => rfl
  | none => simp [bind, Except.bind, Entries.insertAll, List.foldl_append]

theorem find?_defaults (fields : List (String × Field)) (name : String) :
    Entries.find? name (defaults fields) = (Entries.find? name fields).map Field.default := by
  induction fields with
  | nil => rfl
  | cons entry rest ih =>
      obtain ⟨k, f⟩ := entry
      rw [defaults, List.map_cons, ← defaults, Entries.find?, Entries.find?]
      split
      · rfl
      · exact ih

end Ty

namespace Object

open Ty

variable {d : Declarations}

theorem construct_struct (id : StructId) (name : String) (pairs : List (Input × Input)) :
    (Ty.struct id name).construct d (.draft (.pairs pairs)) =
      (assign d (.struct id name) (d.fields id) (defaults (d.fields id)) pairs).map fun fields =>
        .ofPayload (.struct id name) (.struct fields) := by
  rw [construct, constructDraft]
  cases assign d (.struct id name) (d.fields id) (defaults (d.fields id)) pairs <;> rfl

theorem update_struct (id : StructId) (name : String) (fields : List (String × Option Object))
    (pairs : List (Input × Input)) :
    (Object.ofPayload (.struct id name) (.struct fields)).update d (.draft (.pairs pairs)) =
      (assign d (.struct id name) (d.fields id) fields pairs).map fun fields =>
        .ofPayload (.struct id name) (.struct fields) := by
  simp only [update, structFields, ofPayload, bind, Except.bind]
  cases assign d (.struct id name) (d.fields id) fields pairs <;> rfl

/-- To make a struct and update it comes to the same as to make it from all the pairs. If some of them cannot be
assigned, the error is that at the first of them. Otherwise the fields stand in the order of their declaration, and each
has the value that was assigned to it last, or its default if none was. -/
theorem construct_update (id : StructId) (name : String) (first second : List (Input × Input)) :
    let t := Ty.struct id name
    let made := t.construct d (.draft (.pairs (first ++ second)))
    (t.construct d (.draft (.pairs first)) >>= fun o => o.update d (.draft (.pairs second))) = made ∧
    (∀ e, made = .error e ↔ offence? d t (d.fields id) (first ++ second) = some e) ∧
    ∀ o, made = .ok o → ∃ fields, o = .ofPayload t (.struct fields) ∧
      fields.map Prod.fst = (d.fields id).map Prod.fst ∧
      ∀ field f, Entries.find? field (d.fields id) = some f → Entries.find? field fields =
        some ((((assignments d t (d.fields id) (first ++ second)).reverse.find? (·.1 = field)).map Prod.snd).getD
          f.default) := by
  intro t made
  have hmade : made = (assign d t (d.fields id) (defaults (d.fields id)) (first ++ second)).map fun fields =>
      .ofPayload t (.struct fields) := construct_struct id name (first ++ second)
  refine ⟨?_, fun e => ?_, fun o ho => ?_⟩
  · rw [hmade, assign_append, construct_struct]
    cases assign d t (d.fields id) (defaults (d.fields id)) first with
    | error e => rfl
    | ok fields => exact update_struct id name fields second
  · rw [hmade, assign_eq]
    cases offence? d t (d.fields id) (first ++ second) <;> simp [Except.map]
  · rw [hmade, assign_eq] at ho
    split at ho
    · cases ho
    · cases ho
      refine ⟨_, rfl, ?_, fun field f hf => ?_⟩
      · have hdefaults : (defaults (d.fields id)).map Prod.fst = (d.fields id).map Prod.fst := by
          simp [defaults, Function.comp_def]
        rw [Entries.map_fst_insertAll, hdefaults]
        intro entry hentry
        rw [hdefaults]
        exact assignments_declared hentry
      · rw [Entries.find?_insertAll_reverse, find?_defaults, hf]
        cases ((assignments d t (d.fields id) (first ++ second)).reverse.find? (·.1 = field)) <;> rfl

/-- The empty input clears a field, also one that has a default. -/
example :
    let d : Declarations := ⟨1, [(0, [("name", ⟨.string, true, none⟩),
      ("size", ⟨.integer, false, some (.ofPayload .integer (.scalar (.integer 7)))⟩)])]⟩
    let pairs := fun (entries : List (String × Input)) => Input.draft (.pairs (entries.map fun e => (.ofText e.1, e.2)))
    ((Ty.struct 0 "P").construct d (pairs [("name", .ofText "Jo")]) >>= fun o =>
      o.update d (pairs [("size", .empty), ("name", .ofText "Al")])).map toString = .ok "P(name=Al)" := by cbv

end Object

end TypedTemplate
