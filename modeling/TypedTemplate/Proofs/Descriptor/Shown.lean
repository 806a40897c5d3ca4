import TypedTemplate.Proofs.Descriptor.Growth
import TypedTemplate.Proofs.Value.Discrete

/-!
# What the descriptor of a type shows

A type may be described among struct types that are being described already. What its descriptor shows does not depend
on which those are, as long as those that it mentions by name are among them.
-/

namespace TypedTemplate

/-! ## Descriptors of forms -/

theorem strings_discrete (values : List String) : Value.allDiscrete (values.map Value.string) := by
  induction values with
  | nil => rfl
  | cons value rest ih => simpa [Value.string] using ih

mutual

theorem Form.toValue_discrete : (f : Form) → f.toValue.isDiscrete
  | .leaf t ht => by
      cases t with
      | string | integer | float | boolean => rfl
      | enum name values => simp [Form.toValue, Ty.describeWith, Value.string, strings_discrete values]
      | list _ | map _ _ | struct _ _ | choice _ _ => cases ht
  | .list f => by simp [Form.toValue, Value.string, f.toValue_discrete]
  | .map k v => by simp [Form.toValue, Value.string, k.toValue_discrete, v.toValue_discrete]
  | .choice name fs => by simp [Form.toValue, Value.string, formValues_discrete fs]
  | .struct name fields => by simp [Form.toValue, Value.string, fieldFormValues_discrete fields]
  | .mention name => rfl

theorem formValues_discrete : (fs : List Form) → Value.allDiscrete (formValues fs)
  | [] => by simp [formValues]
  | f :: rest => by simp [formValues, f.toValue_discrete, formValues_discrete rest]

theorem fieldFormValues_discrete : (fields : List (String × Bool × Form)) →
    Value.allDiscrete (fieldFormValues fields)
  | [] => by simp [fieldFormValues]
  | (name, required, f) :: rest => by
      simp [fieldFormValues, Value.string, Value.bool, f.toValue_discrete, fieldFormValues_discrete rest]

end

namespace Declarations

variable {d e : Declarations} {visiting : List StructId}

/-- The descriptors of struct types where some are being described already. -/
def structsIn (d : Declarations) (visiting : List StructId) : StructId → String → Value :=
  d.describeStruct (d.finished.length + 1 - visiting.length) visiting

theorem Path.structsIn_eq (h : d.Path visiting) (id : StructId) (name : String) : d.structsIn visiting id name =
    if id ∈ visiting then Ty.shortForm name
    else .sequence [.string "Struct", .string name, .sequence <|
      (Value.sortByKey (d.fields id)).map fun (field, f) => f.describeWith (d.structsIn (id :: visiting)) field] := by
  have hlength := h.length_le
  have hfuel : d.finished.length + 1 - visiting.length = d.finished.length + 1 - (id :: visiting).length + 1 := by
    simp only [List.length_cons]
    omega
  rw [structsIn, hfuel, describeStruct]
  rfl

/-- In further declarations, and among struct types that are not finished yet, what is described comes to this value
exactly if the struct types that it mentions by name are being described. -/
def Shows {α : Type} (d : Declarations) (describe : (StructId → String → Value) → α) (a : α)
    (mentioned : List StructId) : Prop :=
  ∀ e, d.Extends e → ∀ visiting, e.Path visiting → (∀ id ∈ visiting, ¬ d.Finished id) →
    (describe (e.structsIn visiting) = a ↔ mentioned ⊆ visiting)

def Differs {α : Type} (d : Declarations) (visiting : List StructId) (describe : (StructId → String → Value) → α)
    (a : α) : Prop :=
  ∀ e, d.Extends e → e.Path visiting → describe (e.structsIn visiting) ≠ a

section

variable {α β γ : Type} {describe : (StructId → String → Value) → α} {describe' : (StructId → String → Value) → β}
  {describe'' : (StructId → String → Value) → γ} {a : α} {b : β} {c : γ} {mentioned mentioned' : List StructId}

theorem Shows.mono (h : d.Shows describe a mentioned) (hde : d.Extends e) : e.Shows describe a mentioned :=
  fun f hef visiting hpath hopen => h f (hde.trans hef) visiting hpath fun id hid hd => hopen id hid (hde.finished hd)

theorem Differs.mono (h : d.Differs visiting describe a) (hde : d.Extends e) : e.Differs visiting describe a :=
  fun f hef => h f (hde.trans hef)

theorem Shows.congr (h : d.Shows describe a mentioned) (heq : ∀ s, describe' s = b ↔ describe s = a) :
    d.Shows describe' b mentioned :=
  fun e hde visiting hpath hopen => (heq _).trans (h e hde visiting hpath hopen)

theorem Differs.congr (h : d.Differs visiting describe a) (heq : ∀ s, describe' s = b → describe s = a) :
    d.Differs visiting describe' b :=
  fun e hde hpath hb => h e hde hpath (heq _ hb)

theorem Shows.append (h : d.Shows describe a mentioned) (h' : d.Shows describe' b mentioned')
    (heq : ∀ s, describe'' s = c ↔ describe s = a ∧ describe' s = b) :
    d.Shows describe'' c (mentioned ++ mentioned') := by
  intro e hde visiting hpath hopen
  rw [heq, h e hde visiting hpath hopen, h' e hde visiting hpath hopen, List.append_subset]

theorem shows_const (d : Declarations) (a : α) : d.Shows (fun _ => a) a [] :=
  fun _ _ _ _ _ => by simp

end

/-- A struct type is shown by its name alone where it is being described. -/
theorem shows_mention (d : Declarations) (id : StructId) (name : String) :
    d.Shows (fun s => s id name) (Ty.shortForm name) [id] := by
  intro e _ visiting hpath _
  dsimp only
  rw [hpath.structsIn_eq]
  split <;> simp_all [Ty.shortForm]

theorem differs_mention (d : Declarations) {id : StructId} (hid : id ∉ visiting) (name : String) :
    d.Differs visiting (fun s => s id name) (Ty.shortForm name) := by
  intro e _ hpath
  dsimp only
  rw [hpath.structsIn_eq, if_neg hid]
  simp [Ty.shortForm]

def describeFields (declared : List (String × Field)) (s : StructId → String → Value) : List Value :=
  declared.map fun (field, f) => f.describeWith s field

section

variable {id : StructId} {declared : List (String × Field)}

theorem fields_of_finish (hnew : ¬ d.Finished id) (hde : (d.finish id declared).Extends e) :
    e.Finished id ∧ e.fields id = declared := by
  have hfind : Entries.find? id d.finished = none := Option.eq_none_iff_forall_ne_some.mpr fun fields h => hnew ⟨fields, h⟩
  have hfinish : Entries.find? id (d.finish id declared).finished = some declared := by
    simp [finish, Entries.contains, hfind, Entries.find?_append, Entries.find?]
  have he := hde id declared hfinish
  exact ⟨⟨declared, he⟩, by simp [fields, he]⟩

/-- A struct type whose fields have been finished is spelled out with what they show. -/
theorem structsIn_of_finish (hnew : ¬ d.Finished id) (hde : (d.finish id declared).Extends e)
    (hsorted : (declared.map Prod.fst).Pairwise fun a b => (compare a b).isLE) (hpath : e.Path visiting)
    (hid : id ∉ visiting) (name : String) : e.structsIn visiting id name =
      .sequence [.string "Struct", .string name, .sequence (describeFields declared (e.structsIn (id :: visiting)))] := by
  rw [hpath.structsIn_eq, if_neg hid, (fields_of_finish hnew hde).2, Value.sortByKey_of_pairwise hsorted]
  rfl

theorem Shows.struct {vs : List Value} {mentioned : List StructId} (h : d.Shows (describeFields declared) vs mentioned)
    (hnew : ¬ d.Finished id) (hsorted : (declared.map Prod.fst).Pairwise fun a b => (compare a b).isLE)
    (name : String) : (d.finish id declared).Shows (fun s => s id name)
      (.sequence [.string "Struct", .string name, .sequence vs]) (mentioned.filter (· ≠ id)) := by
  intro e hde visiting hpath hopen
  have hfinished : (d.finish id declared).Finished id := (fields_of_finish hnew (.refl _)).1
  have hid : id ∉ visiting := fun hid => hopen id hid hfinished
  have hextends := d.extends_finish id declared
  have hfields := h e (hextends.trans hde) (id :: visiting) (hpath.cons (fields_of_finish hnew hde).1 hid) (by
    simpa using ⟨hnew, fun v hv hd => hopen v hv (hextends.finished hd)⟩)
  dsimp only
  rw [structsIn_of_finish hnew hde hsorted hpath hid]
  simp only [Value.sequence.injEq, List.cons.injEq, and_true, true_and, hfields]
  simp only [List.subset_def, List.mem_filter, List.mem_cons, decide_eq_true_eq]
  exact ⟨fun h v hv => (h hv.1).resolve_left hv.2, fun h v hv => or_iff_not_imp_left.mpr fun hne => h ⟨hv, hne⟩⟩

theorem Differs.struct {vs : List Value} (h : d.Differs (id :: visiting) (describeFields declared) vs)
    (hnew : ¬ d.Finished id) (hsorted : (declared.map Prod.fst).Pairwise fun a b => (compare a b).isLE)
    (hid : id ∉ visiting) (name : String) : (d.finish id declared).Differs visiting (fun s => s id name)
      (.sequence [.string "Struct", .string name, .sequence vs]) := by
  intro e hde hpath heq
  dsimp only at heq
  rw [structsIn_of_finish hnew hde hsorted hpath hid] at heq
  simp only [Value.sequence.injEq, List.cons.injEq, and_true, true_and] at heq
  exact h e ((d.extends_finish id declared).trans hde) (hpath.cons (fields_of_finish hnew hde).1 hid) heq

end

end Declarations

end TypedTemplate
