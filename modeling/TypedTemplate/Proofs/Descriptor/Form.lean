import Mathlib.Data.List.Perm.Subperm
import TypedTemplate.Proofs.Value.Distinct
import TypedTemplate.Ty.Descriptor

/-!
# The forms of descriptors

What a descriptor of a type without defaults says: a type spelled out, in which struct types are mentioned by name
where they stand inside their own description.
-/

namespace TypedTemplate

/-- What a descriptor says of a type. -/
inductive Form where
  | leaf (t : Ty) (scalar : t.isScalar)
  | list (element : Form)
  | map (key value : Form)
  | choice (name : String) (alternatives : List Form)
  /-- A struct with its fields, each required or not. -/
  | struct (name : String) (fields : List (String × Bool × Form))
  /-- A struct by its name alone. -/
  | mention (name : String)

/-! ## The descriptor with a form -/

mutual

def Form.toValue : Form → Value
  | .leaf t _ => t.describeWith fun _ name => Ty.shortForm name
  | .list f => .sequence [.string "List", f.toValue]
  | .map k v => .sequence [.string "Map", k.toValue, v.toValue]
  | .choice name fs => .sequence [.string "Choice", .string name, .sequence (formValues fs)]
  | .struct name fields => .sequence [.string "Struct", .string name, .sequence (fieldFormValues fields)]
  | .mention name => Ty.shortForm name

def formValues : List Form → List Value
  | [] => []
  | f :: rest => f.toValue :: formValues rest

def fieldFormValues : List (String × Bool × Form) → List Value
  | [] => []
  | (name, required, f) :: rest =>
    .sequence [.string name, .sequence [.bool required, .sequence [], .bool true, f.toValue]] :: fieldFormValues rest

end

/-! ## The form of a type -/

namespace Ty

mutual

/-- The form of a type, given those of the struct types inside it. -/
def formWith (struct : StructId → String → Form) : Ty → Form
  | .string => .leaf .string rfl
  | .integer => .leaf .integer rfl
  | .float => .leaf .float rfl
  | .boolean => .leaf .boolean rfl
  | .enum name values => .leaf (.enum name values) rfl
  | .list element => .list (formWith struct element)
  | .map key value => .map (formWith struct key) (formWith struct value)
  | .struct id name => struct id name
  | .choice name alternatives => .choice name (formsWith struct alternatives)

def formsWith (struct : StructId → String → Form) : List Ty → List Form
  | [] => []
  | t :: rest => formWith struct t :: formsWith struct rest

end

end Ty

def Declarations.formStruct (d : Declarations) : Nat → List StructId → StructId → String → Form
  | 0, _, _, name => .mention name
  | fuel + 1, visiting, id, name =>
    if id ∈ visiting then .mention name
    else .struct name <| (Value.sortByKey (d.fields id)).map fun entry =>
      (entry.1, entry.2.required, entry.2.ty.formWith (d.formStruct fuel (id :: visiting)))

/-- What the descriptor of a type says. -/
def Ty.form (d : Declarations) (t : Ty) : Form := t.formWith (d.formStruct (d.finished.length + 1) [])

/-! ## The struct types in a type -/

namespace Ty

mutual

def structs : Ty → List (StructId × String)
  | .list element => element.structs
  | .map key value => key.structs ++ value.structs
  | .struct id name => [(id, name)]
  | .choice _ alternatives => allStructs alternatives
  | _ => []

def allStructs : List Ty → List (StructId × String)
  | [] => []
  | t :: rest => t.structs ++ allStructs rest

end

theorem structs_subset_allStructs {t : Ty} {ts : List Ty} (h : t ∈ ts) : t.structs ⊆ allStructs ts := by
  induction ts with
  | nil => cases h
  | cons first rest ih =>
      rcases List.mem_cons.mp h with rfl | hm
      · exact List.subset_append_left _ _
      · exact List.Subset.trans (ih hm) (List.subset_append_right _ _)

/-- The struct type is mentioned in the type, or in the fields of one that is. -/
inductive Reaches (d : Declarations) (t : Ty) : StructId → String → Prop
  | here {id name} : (id, name) ∈ t.structs → Reaches d t id name
  | field {id name entry inner innerName} : Reaches d t id name → entry ∈ d.fields id →
      (inner, innerName) ∈ entry.2.ty.structs → Reaches d t inner innerName

/-- The struct types in the type are declared as builders declare them: each goes by one name, and no field comes twice
or has a default. -/
structure WellDeclared (d : Declarations) (t : Ty) : Prop where
  named : ∀ id m n, t.Reaches d id m → t.Reaches d id n → m = n
  nodup : ∀ id name, t.Reaches d id name → ((d.fields id).map Prod.fst).Nodup
  noDefault : ∀ id name entry, t.Reaches d id name → entry ∈ d.fields id → entry.2.default = none

theorem mem_of_reaches {d : Declarations} {t : Ty} {all : List (StructId × String)} (ht : t.structs ⊆ all)
    (hfields : ∀ s ∈ all, ∀ entry ∈ d.fields s.1, entry.2.ty.structs ⊆ all) {id : StructId} {name : String}
    (h : t.Reaches d id name) : (id, name) ∈ all := by
  induction h with
  | here h => exact ht h
  | field _ hentry hs ih => exact hfields _ ih _ hentry hs

/-- It is enough to look at struct types among which are those in the type and those in their fields. -/
theorem wellDeclared_of_subset {d : Declarations} {t : Ty} (all : List (StructId × String)) (ht : t.structs ⊆ all)
    (hnamed : ∀ s ∈ all, ∀ s' ∈ all, s.1 = s'.1 → s.2 = s'.2)
    (hfields : ∀ s ∈ all, ((d.fields s.1).map Prod.fst).Nodup ∧
      ∀ entry ∈ d.fields s.1, entry.2.default = none ∧ entry.2.ty.structs ⊆ all) : t.WellDeclared d := by
  have hreaches : ∀ id name, t.Reaches d id name → (id, name) ∈ all :=
    fun id name h => mem_of_reaches ht (fun s hs entry he => ((hfields s hs).2 entry he).2) h
  constructor
  · intro id m n hm hn
    exact hnamed _ (hreaches id m hm) _ (hreaches id n hn) rfl
  · intro id name h
    exact (hfields _ (hreaches id name h)).1
  · intro id name entry h hentry
    exact ((hfields _ (hreaches id name h)).2 entry hentry).1

end Ty

/-! ## The descriptor says what the form does -/

namespace Ty

variable {struct : StructId → String → Value} {form : StructId → String → Form}

mutual

theorem toValue_formWith : (t : Ty) → (∀ s ∈ t.structs, (form s.1 s.2).toValue = struct s.1 s.2) →
    (t.formWith form).toValue = t.describeWith struct
  | .string, _ | .integer, _ | .float, _ | .boolean, _ | .enum _ _, _ => by
      simp only [formWith, Form.toValue, describeWith]
  | .list element, h => by
      simp only [formWith, Form.toValue, describeWith, element.toValue_formWith h]
  | .map key value, h => by
      simp only [structs, List.mem_append] at h
      simp only [formWith, Form.toValue, describeWith]
      rw [key.toValue_formWith fun s hs => h s (.inl hs), value.toValue_formWith fun s hs => h s (.inr hs)]
  | .struct id name, h => h (id, name) (by simp [structs])
  | .choice name alternatives, h => by
      simp only [formWith, Form.toValue, describeWith, formValues_formsWith alternatives h]

theorem formValues_formsWith : (ts : List Ty) →
    (∀ s ∈ allStructs ts, (form s.1 s.2).toValue = struct s.1 s.2) →
    formValues (formsWith form ts) = describeAllWith struct ts
  | [], _ => by simp only [formsWith, formValues, describeAllWith]
  | t :: rest, h => by
      simp only [allStructs, List.mem_append] at h
      simp only [formsWith, formValues, describeAllWith]
      rw [t.toValue_formWith fun s hs => h s (.inl hs), formValues_formsWith rest fun s hs => h s (.inr hs)]

end

end Ty

theorem fieldFormValues_map {α : Type} (entries : List α) (name : α → String) (required : α → Bool) (form : α → Form) :
    fieldFormValues (entries.map fun a => (name a, required a, form a)) = entries.map fun a =>
      .sequence [.string (name a), .sequence [.bool (required a), .sequence [], .bool true, (form a).toValue]] := by
  induction entries with
  | nil => rfl
  | cons a rest ih => simp [fieldFormValues, ih]

section

variable {d : Declarations} {t : Ty}

theorem Ty.WellDeclared.toValue_formStruct (ht : t.WellDeclared d) (fuel : Nat) (visiting : List StructId) {id : StructId}
    {name : String} (hid : t.Reaches d id name) :
    (d.formStruct fuel visiting id name).toValue = d.describeStruct fuel visiting id name := by
  induction fuel generalizing visiting id name with
  | zero => simp only [Declarations.formStruct, Declarations.describeStruct, Form.toValue]
  | succ fuel ih =>
      simp only [Declarations.formStruct, Declarations.describeStruct]
      split
      · simp only [Form.toValue]
      · have hfields : ∀ entry ∈ Value.sortByKey (d.fields id),
            .sequence [.string entry.1, .sequence [.bool entry.2.required, .sequence [], .bool true,
              (entry.2.ty.formWith (d.formStruct fuel (id :: visiting))).toValue]] =
            entry.2.describeWith (d.describeStruct fuel (id :: visiting)) entry.1 := by
          intro entry he
          have hentry : entry ∈ d.fields id := Value.mem_sortByKey.mp he
          rw [Field.describeWith, ht.noDefault id name entry hid hentry,
            entry.2.ty.toValue_formWith fun s hs => ih (id :: visiting) (.field hid hentry hs)]
          rfl
        simp only [Form.toValue, fieldFormValues_map]
        rw [List.map_congr_left hfields]

/-- The descriptor of a type says what its form does. -/
theorem Ty.WellDeclared.toValue_form (ht : t.WellDeclared d) : (t.form d).toValue = t.descriptor d :=
  t.toValue_formWith fun _ hs => ht.toValue_formStruct _ _ (.here hs)

end

end TypedTemplate
