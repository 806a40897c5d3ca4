import TypedTemplate.Object.Load
import TypedTemplate.Proofs.Choice.OpenText
import TypedTemplate.Proofs.Object.Reload
import TypedTemplate.Proofs.Template.Unbound

/-!
# Loading strictly and leniently

Pruning leaves alone what can be loaded strictly. It does not look into maps that are given as sequences of pairs,
though construction does, so that what structs in them do not declare is refused also where the document is read
leniently.
-/

namespace TypedTemplate

namespace Ty

variable {d : Declarations}

/-! ## Pruning -/

mutual

theorem prune_prune (t : Ty) : (v : Value) → t.prune d (t.prune d v) = t.prune d v
  | .scalar _ => by simp only [prune]
  | .sequence elements => by
      cases t with
      | list element => simp only [prune, pruneElements_pruneElements element elements]
      | _ => simp only [prune]
  | .mapping entries => by
      cases t with
      | map _ value => simp only [prune, pruneEntries_pruneEntries value entries]
      | struct id _ => simp only [prune, pruneFields_pruneFields (d.fields id) entries]
      | _ => simp only [prune]

theorem pruneElements_pruneElements (element : Ty) : (vs : List Value) →
    pruneElements d element (pruneElements d element vs) = pruneElements d element vs
  | [] => by simp only [pruneElements]
  | v :: rest => by simp only [pruneElements, element.prune_prune v, pruneElements_pruneElements element rest]

theorem pruneEntries_pruneEntries (value : Ty) : (entries : List (String × Value)) →
    pruneEntries d value (pruneEntries d value entries) = pruneEntries d value entries
  | [] => by simp only [pruneEntries]
  | (_, v) :: rest => by simp only [pruneEntries, value.prune_prune v, pruneEntries_pruneEntries value rest]

theorem pruneFields_pruneFields (fields : List (String × Field)) : (entries : List (String × Value)) →
    pruneFields d fields (pruneFields d fields entries) = pruneFields d fields entries
  | [] => by simp only [pruneFields]
  | (k, v) :: rest => by
      cases hf : Entries.find? k fields with
      | none => simp only [pruneFields, hf, pruneFields_pruneFields fields rest]
      | some f => simp only [pruneFields, hf, f.ty.prune_prune v, pruneFields_pruneFields fields rest]

end

/-! ## What is accepted -/

mutual

/-- There is nothing to prune in a value that an object can be made of. -/
theorem prune_of_construct (t : Ty) : (v : Value) → {o : Object} → t.construct d v.toInput = .ok o → t.prune d v = v
  | .scalar _, _, _ => by simp only [prune]
  | .sequence elements, o, h => by
      cases t with
      | list element =>
          simp only [Value.toInput, construct, constructDraft] at h
          obtain ⟨os, hos, -⟩ := Except.bind_ok h
          rw [prune, pruneElements_of_construct element elements hos]
      | _ => simp only [prune]
  | .mapping entries, o, h => by
      cases t with
      | map key value =>
          simp only [Value.toInput, construct, constructDraft] at h
          obtain ⟨ps, hps, -⟩ := Except.bind_ok h
          rw [prune, pruneEntries_of_construct key value entries hps]
      | struct id name =>
          simp only [Value.toInput, construct, constructDraft] at h
          obtain ⟨fs, hfs, -⟩ := Except.bind_ok h
          rw [prune, pruneFields_of_assign (struct id name) (d.fields id) entries hfs]
      | _ => simp only [prune]

theorem pruneElements_of_construct (element : Ty) : (vs : List Value) → {i : Nat} → {os : List Object} →
    constructElements d element i (elementInputs vs) = .ok os → pruneElements d element vs = vs
  | [], _, _, _ => by rw [pruneElements]
  | v :: rest, i, os, h => by
      rw [elementInputs, constructElements] at h
      obtain ⟨o, ho, h⟩ := Except.bind_ok h
      obtain ⟨others, hothers, -⟩ := Except.bind_ok h
      rw [pruneElements, element.prune_of_construct v (atPath_ok ho), pruneElements_of_construct element rest hothers]

theorem pruneEntries_of_construct (key value : Ty) : (entries : List (String × Value)) →
    {ps : List (Object × Object)} → constructPairs d key value (entryInputs entries) = .ok ps →
    pruneEntries d value entries = entries
  | [], _, _ => by rw [pruneEntries]
  | (k, v) :: rest, ps, h => by
      rw [entryInputs, constructPairs] at h
      obtain ⟨_, -, h⟩ := Except.bind_ok h
      obtain ⟨o, ho, h⟩ := Except.bind_ok h
      obtain ⟨others, hothers, -⟩ := Except.bind_ok h
      rw [pruneEntries, value.prune_of_construct v (atPath_ok ho), pruneEntries_of_construct key value rest hothers]

theorem pruneFields_of_assign (t : Ty) (declared : List (String × Field)) : (entries : List (String × Value)) →
    {fields result : List (String × Option Object)} → assign d t declared fields (entryInputs entries) = .ok result →
    pruneFields d declared entries = entries
  | [], _, _, _ => by rw [pruneFields]
  | (k, v) :: rest, fields, result, h => by
      rw [entryInputs, assign.eq_3 d t declared _ _ _ _ (toInput_ne_empty v)] at h
      simp only [fieldName] at h
      obtain ⟨name, hname, h⟩ := Except.bind_ok h
      cases hname
      cases hf : Entries.find? k declared with
      | none => simp [hf] at h
      | some f =>
          simp only [hf] at h
          obtain ⟨o, ho, h⟩ := Except.bind_ok h
          simp only [pruneFields, hf, f.ty.prune_of_construct v (atPath_ok ho), pruneFields_of_assign t declared rest h]

end

/-! ## Strict and lenient loading -/

theorem load_strict (t : Ty) (v : Value) : t.load d true v = t.construct d v.toInput := rfl

theorem load_lenient (t : Ty) (v : Value) : t.load d false v = t.construct d (t.prune d v).toInput := rfl

/-- Strict and lenient loading agree on documents in which all keys are declared: pruning is done at once, it leaves
what can be loaded strictly as it is, and so the same object is loaded leniently. -/
theorem load_strictness (d : Declarations) (t : Ty) :
    (∀ v, t.prune d (t.prune d v) = t.prune d v) ∧
      (∀ v o, t.construct d v.toInput = .ok o → t.prune d v = v) ∧
      ∀ text o, t.loadJson d true text = .ok o → t.loadJson d false text = .ok o := by
  refine ⟨t.prune_prune, fun v o ho => t.prune_of_construct v ho, fun text o ho => ?_⟩
  obtain ⟨v, hv, ho⟩ := Except.bind_ok ho
  rw [load_strict] at ho
  rw [loadJson, hv]
  change t.load d false v = .ok o
  rw [load_lenient, t.prune_of_construct v ho, ho]

/-- A page with pages inside it, and with notes by name, which are numbers or records. -/
def pages : Declarations where
  next := 2
  finished := [
    (1, [("text", ⟨.string, false, none⟩)]),
    (0, [("parts", ⟨.list (.struct 0 "Page"), false, none⟩),
      ("notes", ⟨.map .string (.choice "Note" [.integer, .struct 1 "Record"]), false, none⟩)])]

def pageValue : Value := .mapping [
  ("notes", .sequence [.sequence [.string "a", .mapping [("text", .scalar (.integer 1))]]]),
  ("parts", .sequence [.mapping [("notes", .mapping [("b", .mapping [("date", .scalar (.integer 2))])])]])]

def pageText : String := "\x7b\"notes\":[[\"a\",\x7b\"b\":[]\x7d]]\x7d"

/-- The date of the note is kept, as pruning does not look into choices. -/
theorem load_strictness_page :
    (∃ o, (Ty.struct 0 "Page").construct pages pageValue.toInput = .ok o ∧
      (Ty.struct 0 "Page").prune pages pageValue = pageValue) ∧
    ∃ o, (Ty.struct 0 "Page").loadJson pages true pageText = .ok o ∧
      (Ty.struct 0 "Page").loadJson pages false pageText = .ok o := by
  obtain ⟨-, hprune, hlenient⟩ := load_strictness pages (.struct 0 "Page")
  obtain ⟨o, ho⟩ : ∃ o, (Ty.struct 0 "Page").construct pages pageValue.toInput = .ok o := ⟨_, by cbv⟩
  obtain ⟨o', ho'⟩ : ∃ o, (Ty.struct 0 "Page").loadJson pages true pageText = .ok o := ⟨_, by cbv⟩
  exact ⟨⟨o, ho, hprune pageValue o ho⟩, o', ho', hlenient _ o' ho'⟩

end Ty

/-! ## Keys that are not declared -/

/-- What holds of a value as soon as it holds of its elements and entries holds of all values. -/
@[elab_as_elim]
theorem Value.member_induction {C : Value → Prop} (scalar : ∀ s, C (.scalar s))
    (sequence : ∀ elements, (∀ v ∈ elements, C v) → C (.sequence elements))
    (mapping : ∀ entries, (∀ entry ∈ entries, C entry.2) → C (.mapping entries)) : (v : Value) → C v
  | .scalar s => scalar s
  | .sequence elements => sequence elements fun v hv =>
    have := List.sizeOf_lt_of_mem hv
    member_induction scalar sequence mapping v
  | .mapping entries => mapping entries fun entry hentry =>
    have := List.sizeOf_lt_of_mem hentry
    member_induction scalar sequence mapping entry.2
termination_by v => sizeOf v
decreasing_by
  · simp only [Value.sequence.sizeOf_spec]
    omega
  · obtain ⟨k, v⟩ := entry
    simp only [Value.mapping.sizeOf_spec, Prod.mk.sizeOf_spec] at this ⊢
    omega

/-- A struct was given a key that it does not declare. -/
def Error.IsUndeclared (e : Error) : Prop := ∃ field container, e.kind = .unknownField field container

theorem Error.isUndeclared_withPath (e : Error) (path : String) : (e.withPath path).IsUndeclared ↔ e.IsUndeclared :=
  Iff.rfl

open Error (IsUndeclared)

section

variable {α : Type}

/-- Some member of the list is bad, and all before it are fine. -/
def FirstBad (fine bad : α → Prop) (as : List α) : Prop :=
  ∃ before a after, as = before ++ a :: after ∧ (∀ b ∈ before, fine b) ∧ bad a

variable {fine bad : α → Prop}

theorem not_firstBad_nil : ¬ FirstBad fine bad [] := by
  rintro ⟨before, a, after, h, -⟩
  simp at h

theorem firstBad_cons {a : α} {as : List α} :
    FirstBad fine bad (a :: as) ↔ bad a ∨ (fine a ∧ FirstBad fine bad as) := by
  constructor
  · rintro ⟨before, b, after, h, hfine, hbad⟩
    cases before with
    | nil =>
        cases h
        exact .inl hbad
    | cons c before =>
        cases h
        exact .inr ⟨hfine a (by simp), before, b, after, rfl, fun b hb => hfine b (by simp [hb]), hbad⟩
  · rintro (hbad | ⟨hfine, before, b, after, rfl, hbefore, hbad⟩)
    · exact ⟨[], a, as, rfl, by simp, hbad⟩
    · exact ⟨a :: before, b, after, rfl, List.forall_mem_cons.mpr ⟨hfine, hbefore⟩, hbad⟩

end

namespace Ty

variable {d : Declarations}

theorem not_undeclared_shapeError (t : Ty) (shown : String) : ¬ (t.shapeError shown).IsUndeclared := by
  rintro ⟨field, container, hk⟩
  cases t <;> cases hk

theorem not_undeclared_constructScalar (t : Ty) (s : Scalar) : ¬ Fails IsUndeclared (t.constructScalar s) := by
  rintro ⟨e, he, field, container, hk⟩
  rcases constructScalar_error he with ⟨cause, rfl⟩ | ⟨-, address, cause, rfl⟩ <;> cases hk

theorem not_undeclared_scalar (t : Ty) (s : Scalar) : ¬ Fails IsUndeclared (t.construct d (.draft (.scalar s))) := by
  rw [construct]
  cases t <;> simp only [constructDraft, fails_error, not_fails_ok, not_false_eq_true,
    not_undeclared_shapeError, not_undeclared_constructScalar]

/-- An object can be made of the value, once keys that are not declared have been dropped. -/
def Loads (d : Declarations) (t : Ty) (v : Value) : Prop := ∃ o, t.load d false v = .ok o

theorem undeclared_elements_iff {element : Ty} {vs : List Value} (i : Nat) :
    Fails IsUndeclared (constructElements d element i (elementInputs (pruneElements d element vs))) ↔
      FirstBad (element.Loads d) (fun v => Fails IsUndeclared (element.load d false v)) vs := by
  induction vs generalizing i with
  | nil => simp [pruneElements, elementInputs, constructElements, not_fails_ok, not_firstBad_nil]
  | cons v rest ih =>
      simp only [pruneElements, elementInputs, constructElements, fails_bind, ih,
        fails_atPath Error.isUndeclared_withPath, atPath_ok_iff, firstBad_cons, Loads, load_lenient]
      simp [pure, Except.pure, not_fails_ok]

theorem undeclared_pairs_iff {key value : Ty} {entries : List (String × Value)} :
    Fails IsUndeclared (constructPairs d key value (entryInputs (pruneEntries d value entries))) ↔
      FirstBad (fun entry => (∃ o, key.construct d (.ofText entry.1) = .ok o) ∧ value.Loads d entry.2)
        (fun entry => (∃ o, key.construct d (.ofText entry.1) = .ok o) ∧
          Fails IsUndeclared (value.load d false entry.2))
        entries := by
  induction entries with
  | nil => simp [pruneEntries, entryInputs, constructPairs, not_fails_ok, not_firstBad_nil]
  | cons entry rest ih =>
      obtain ⟨k, v⟩ := entry
      simp only [pruneEntries, entryInputs, constructPairs, fails_bind, fails_atPath Error.isUndeclared_withPath, ih,
        not_undeclared_scalar, atPath_ok_iff, firstBad_cons, Loads, load_lenient, Input.ofText]
      simp only [pure, Except.pure, not_fails_ok]
      constructor
      · rintro (⟨⟨⟩⟩ | ⟨o, hkey, hv | ⟨p, hvalue, hrest | ⟨_, -, ⟨⟩⟩⟩⟩)
        · exact .inl ⟨⟨o, hkey⟩, hv⟩
        · exact .inr ⟨⟨⟨o, hkey⟩, p, hvalue⟩, hrest⟩
      · rintro (⟨⟨o, hkey⟩, hv⟩ | ⟨⟨⟨o, hkey⟩, p, hvalue⟩, hrest⟩)
        · exact .inr ⟨o, hkey, .inl hv⟩
        · exact .inr ⟨o, hkey, .inr ⟨p, hvalue, .inl hrest⟩⟩

theorem assign_entry (t : Ty) (declared : List (String × Field)) (fields : List (String × Option Object)) (k : String)
    (v : Value) (rest : List (String × Value)) :
    assign d t declared fields (entryInputs ((k, v) :: rest)) = match Entries.find? k declared with
      | none => .error (Error.unknownField k t.name)
      | some f => atPath k (f.ty.construct d v.toInput) >>= fun o =>
        assign d t declared (Entries.insert k (some o) fields) (entryInputs rest) := by
  rw [entryInputs, assign.eq_3 d t declared _ _ _ _ (toInput_ne_empty v)]
  rfl

theorem undeclared_assign_iff {t : Ty} {declared : List (String × Field)} {fields : List (String × Option Object)}
    {entries : List (String × Value)} :
    Fails IsUndeclared (assign d t declared fields (entryInputs (pruneFields d declared entries))) ↔
      FirstBad (fun entry => ∀ f, Entries.find? entry.1 declared = some f → f.ty.Loads d entry.2)
        (fun entry => ∃ f, Entries.find? entry.1 declared = some f ∧ Fails IsUndeclared (f.ty.load d false entry.2))
        entries := by
  induction entries generalizing fields with
  | nil => simp [pruneFields, entryInputs, assign, not_fails_ok, not_firstBad_nil]
  | cons entry rest ih =>
      obtain ⟨k, v⟩ := entry
      cases hf : Entries.find? k declared with
      | none => simp [pruneFields, hf, ih, firstBad_cons]
      | some f =>
          simp only [pruneFields, hf, assign_entry, fails_bind, fails_atPath Error.isUndeclared_withPath, ih,
            atPath_ok_iff, firstBad_cons, Loads, load_lenient]
          simp

/-- Making an object of what is left of the first value after pruning goes well up to where the second value stands,
which has to be of the second type. -/
inductive Meets (d : Declarations) : Ty → Value → Ty → Value → Prop
  | here {t v} : Meets d t v t v
  | element {element before v after t w} : (∀ b ∈ before, element.Loads d b) → Meets d element v t w →
      Meets d (.list element) (.sequence (before ++ v :: after)) t w
  | value {key value before k v after t w} :
      (∀ b ∈ before, (∃ o, key.construct d (.ofText b.1) = .ok o) ∧ value.Loads d b.2) →
      (∃ o, key.construct d (.ofText k) = .ok o) → Meets d value v t w →
      Meets d (.map key value) (.mapping (before ++ (k, v) :: after)) t w
  | field {id name before k v after f t w} :
      (∀ b ∈ before, ∀ f, Entries.find? b.1 (d.fields id) = some f → f.ty.Loads d b.2) →
      Entries.find? k (d.fields id) = some f → Meets d f.ty v t w →
      Meets d (.struct id name) (.mapping (before ++ (k, v) :: after)) t w

/-- Where a map has to stand, construction comes to a sequence of pairs in which a struct has a key that is not
declared. -/
def MeetsUndeclared (d : Declarations) (t : Ty) (v : Value) : Prop :=
  ∃ key value items, t.Meets d v (.map key value) (.sequence items) ∧
    Fails IsUndeclared ((Ty.map key value).construct d (Value.sequence items).toInput)

theorem undeclared_list_iff {element : Ty} {vs : List Value} :
    Fails IsUndeclared ((list element).load d false (.sequence vs)) ↔
      FirstBad (element.Loads d) (fun v => Fails IsUndeclared (element.load d false v)) vs := by
  rw [load_lenient, prune, Value.toInput, construct, constructDraft, fails_bind, undeclared_elements_iff]
  simp [pure, Except.pure, not_fails_ok]

theorem undeclared_map_iff {key value : Ty} {entries : List (String × Value)} :
    Fails IsUndeclared ((map key value).load d false (.mapping entries)) ↔
      FirstBad (fun entry => (∃ o, key.construct d (.ofText entry.1) = .ok o) ∧ value.Loads d entry.2)
        (fun entry => (∃ o, key.construct d (.ofText entry.1) = .ok o) ∧
          Fails IsUndeclared (value.load d false entry.2))
        entries := by
  rw [load_lenient, prune, Value.toInput, construct, constructDraft, fails_bind, undeclared_pairs_iff]
  simp [pure, Except.pure, not_fails_ok]

theorem undeclared_struct_iff {id : StructId} {name : String} {entries : List (String × Value)} :
    Fails IsUndeclared ((struct id name).load d false (.mapping entries)) ↔
      FirstBad (fun entry => ∀ f, Entries.find? entry.1 (d.fields id) = some f → f.ty.Loads d entry.2)
        (fun entry => ∃ f, Entries.find? entry.1 (d.fields id) = some f ∧
          Fails IsUndeclared (f.ty.load d false entry.2))
        entries := by
  rw [load_lenient, prune, Value.toInput, construct, constructDraft, fails_bind, undeclared_assign_iff]
  simp [pure, Except.pure, not_fails_ok]

theorem Meets.undeclared {t t' : Ty} {v w : Value} (h : t.Meets d v t' w)
    (hw : Fails IsUndeclared (t'.load d false w)) : Fails IsUndeclared (t.load d false v) := by
  induction h with
  | here => exact hw
  | element hbefore _ ih => exact undeclared_list_iff.mpr ⟨_, _, _, rfl, hbefore, ih hw⟩
  | value hbefore hkey _ ih => exact undeclared_map_iff.mpr ⟨_, _, _, rfl, hbefore, hkey, ih hw⟩
  | field hbefore hf _ ih => exact undeclared_struct_iff.mpr ⟨_, _, _, rfl, hbefore, _, hf, ih hw⟩

theorem meetsUndeclared_of_load {t : Ty} {v : Value} (h : Fails IsUndeclared (t.load d false v)) :
    t.MeetsUndeclared d v := by
  induction v using Value.member_induction generalizing t with
  | scalar s =>
      simp only [load_lenient, prune, Value.toInput] at h
      exact absurd h (not_undeclared_scalar t s)
  | sequence elements ih =>
      cases t with
      | list element =>
          obtain ⟨before, v, after, rfl, hbefore, hv⟩ := undeclared_list_iff.mp h
          obtain ⟨key, value, items, hmeets, hitems⟩ := ih v (by simp) hv
          exact ⟨key, value, items, .element hbefore hmeets, hitems⟩
      | map key value => exact ⟨key, value, elements, .here, by simpa only [load_lenient, prune] using h⟩
      | _ =>
          simp [load_lenient, prune, Value.toInput, construct, constructDraft, fails_error, not_fails_ok,
            not_undeclared_shapeError] at h
  | mapping entries ih =>
      cases t with
      | map key value =>
          obtain ⟨before, ⟨k, v⟩, after, rfl, hbefore, hkey, hv⟩ := undeclared_map_iff.mp h
          obtain ⟨key', value', items, hmeets, hitems⟩ := ih (k, v) (by simp) hv
          exact ⟨key', value', items, .value hbefore hkey hmeets, hitems⟩
      | struct id name =>
          obtain ⟨before, ⟨k, v⟩, after, rfl, hbefore, f, hf, hv⟩ := undeclared_struct_iff.mp h
          obtain ⟨key, value, items, hmeets, hitems⟩ := ih (k, v) (by simp) hv
          exact ⟨key, value, items, .field hbefore hf hmeets, hitems⟩
      | _ =>
          simp [load_lenient, prune, Value.toInput, construct, constructDraft, fails_error, not_fails_ok,
            not_undeclared_shapeError] at h

theorem undeclared_load_iff {t : Ty} {v : Value} : Fails IsUndeclared (t.load d false v) ↔ t.MeetsUndeclared d v := by
  refine ⟨meetsUndeclared_of_load, ?_⟩
  rintro ⟨key, value, items, hmeets, hitems⟩
  exact hmeets.undeclared (by simpa only [load_lenient, prune] using hitems)

theorem not_undeclared_parse (text : String) : ¬ Fails IsUndeclared (Json.parse text) := by
  rintro ⟨e, he, field, container, hk⟩
  simp only [Json.parse] at he
  split at he
  · split at he <;> cases he
    cases hk
  · cases he
    cases hk

/-- A document that is read leniently is refused for a key that is not declared exactly if such a key is met in a map
that is given as a sequence of pairs. -/
theorem undeclared_lenient_iff (d : Declarations) (t : Ty) :
    (∀ v, Fails IsUndeclared (t.construct d (t.prune d v).toInput) ↔ t.MeetsUndeclared d v) ∧
      ∀ text, Fails IsUndeclared (t.loadJson d false text) ↔ ∃ v, Json.parse text = .ok v ∧ t.MeetsUndeclared d v := by
  refine ⟨fun v => undeclared_load_iff, fun text => ?_⟩
  rw [loadJson, fails_bind]
  simp only [undeclared_load_iff, not_undeclared_parse, false_or]

/-- The record stands in a pair. Given in a mapping, it loses the key that it does not declare. -/
theorem undeclared_lenient_pairs :
    Fails IsUndeclared ((Ty.map .string (.struct 1 "Record")).loadJson pages false "[[\"a\",\x7b\"b\":[]\x7d]]") ∧
      (Ty.map .string (.struct 1 "Record")).Loads pages (.mapping [("a", .mapping [("b", .sequence [])])]) :=
  ⟨⟨_, by cbv, "b", "Record", rfl⟩, _, by cbv⟩

end Ty

end TypedTemplate
