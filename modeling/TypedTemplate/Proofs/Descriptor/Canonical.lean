import TypedTemplate.Proofs.Descriptor.RoundTrip
import TypedTemplate.Proofs.Schema.Descriptor

/-!
# Canonical descriptors

A descriptor is canonical if all structs in it are spelled out, with their fields in the order of their names and
without defaults. A struct inside may well have the name of one around it. The type read from such a descriptor is
described by it again.
-/

namespace TypedTemplate

namespace Descriptor

def FieldForm.HasNoDefault (f : FieldForm) : Prop := f.default = .sequence [] ∧ f.empty = true

/-- All structs are spelled out, and their fields come in the order of their names and have no defaults. -/
inductive Canonical : Value → Prop
  | scalar {tag} : tag ∈ scalarTags → Canonical (.sequence [.string tag])
  | enum {name} {members : List String} :
      Canonical (.sequence [.string "Enum", .string name, .sequence (members.map Value.string)])
  | list {element} : Canonical element → Canonical (.sequence [.string "List", element])
  | map {key value} : Canonical key → Canonical value → Canonical (.sequence [.string "Map", key, value])
  | choice {name alternatives} : (∀ a ∈ alternatives, Canonical a) →
      Canonical (.sequence [.string "Choice", .string name, .sequence alternatives])
  | struct {name} {fields : List FieldForm} : (fields.map FieldForm.name).Pairwise (· < ·) →
      (∀ f ∈ fields, f.HasNoDefault) → (∀ f ∈ fields, Canonical f.type) →
      Canonical (.sequence [.string "Struct", .string name, .sequence (fields.map FieldForm.toValue)])

end Descriptor

open Descriptor

/-! ## What a canonical descriptor says -/

/-- The form says what the descriptor does, and mentions no struct by name alone. -/
structure Form.Spells (f : Form) (v : Value) : Prop where
  toValue : f.toValue = v
  spelledOut : f.isSpelledOut
  closed : ∀ names, f.Closed names

namespace Form

theorem exists_spells_scalar {tag : String} (h : tag ∈ scalarTags) :
    ∃ f : Form, f.Spells (.sequence [.string tag]) := by
  simp only [scalarTags, List.mem_cons, List.not_mem_nil, or_false] at h
  rcases h with rfl | rfl | rfl | rfl
  · exact ⟨.leaf .string rfl, rfl, rfl, fun _ => .leaf⟩
  · exact ⟨.leaf .integer rfl, rfl, rfl, fun _ => .leaf⟩
  · exact ⟨.leaf .float rfl, rfl, rfl, fun _ => .leaf⟩
  · exact ⟨.leaf .boolean rfl, rfl, rfl, fun _ => .leaf⟩

theorem exists_spells_each {vs : List Value} (h : ∀ v ∈ vs, ∃ f : Form, f.Spells v) :
    ∃ fs, formValues fs = vs ∧ allSpelledOut fs ∧ ∀ names, ∀ f ∈ fs, f.Closed names := by
  induction vs with
  | nil => exact ⟨[], rfl, rfl, by simp⟩
  | cons v vs ih =>
      obtain ⟨f, rfl, hf, hclosed⟩ := h v (by simp)
      obtain ⟨fs, rfl, hfs, hclosed'⟩ := ih fun v hv => h v (List.mem_cons_of_mem _ hv)
      refine ⟨f :: fs, rfl, by simp [allSpelledOut, hf, hfs], fun names => ?_⟩
      exact List.forall_mem_cons.mpr ⟨hclosed names, hclosed' names⟩

theorem exists_spells_fields {fs : List FieldForm} (hempty : ∀ f ∈ fs, f.HasNoDefault)
    (h : ∀ f ∈ fs, ∃ form : Form, form.Spells f.type) :
    ∃ entries : List (String × Bool × Form), fieldFormValues entries = fs.map FieldForm.toValue ∧
      entries.map Prod.fst = fs.map FieldForm.name ∧ fieldsSpelledOut entries ∧
      ∀ names, ∀ entry ∈ entries, entry.2.2.Closed names := by
  induction fs with
  | nil => exact ⟨[], rfl, rfl, rfl, by simp⟩
  | cons f fs ih =>
      obtain ⟨hdefault, hflag⟩ := hempty f (by simp)
      obtain ⟨form, htype, hform, hclosed⟩ := h f (by simp)
      obtain ⟨entries, hvalues, hnames, hentries, hclosed'⟩ :=
        ih (fun f hf => hempty f (List.mem_cons_of_mem _ hf)) fun f hf => h f (List.mem_cons_of_mem _ hf)
      refine ⟨(f.name, f.required, form) :: entries, ?_, ?_, ?_, fun names => ?_⟩
      · simp [fieldFormValues, FieldForm.toValue, hdefault, hflag, htype, hvalues]
      · simp [hnames]
      · simp [fieldsSpelledOut, hform, hentries]
      · exact List.forall_mem_cons.mpr ⟨hclosed names, hclosed' names⟩

end Form

/-- A canonical descriptor says what some form does. -/
theorem Descriptor.Canonical.exists_spells {v : Value} (hv : Canonical v) : ∃ f : Form, f.Spells v := by
  induction hv with
  | scalar htag => exact Form.exists_spells_scalar htag
  | @enum name members => exact ⟨.leaf (.enum name members) rfl, rfl, rfl, fun _ => .leaf⟩
  | list _ ih =>
      obtain ⟨f, rfl, hf, hclosed⟩ := ih
      exact ⟨.list f, rfl, hf, fun names => .list (hclosed names)⟩
  | map _ _ ihk ihv =>
      obtain ⟨k, rfl, hk, hclosed⟩ := ihk
      obtain ⟨v, rfl, hv, hclosed'⟩ := ihv
      exact ⟨.map k v, rfl, by simp [Form.isSpelledOut, hk, hv], fun names => .map (hclosed names) (hclosed' names)⟩
  | @choice name _ _ ih =>
      obtain ⟨fs, rfl, hfs, hclosed⟩ := Form.exists_spells_each ih
      exact ⟨.choice name fs, rfl, hfs, fun names => .choice (hclosed names)⟩
  | @struct name fields hsorted hempty _ ih =>
      obtain ⟨entries, hvalues, hnames, hentries, hclosed⟩ := Form.exists_spells_fields hempty ih
      refine ⟨.struct name entries, by rw [Form.toValue, hvalues], hentries, fun names => ?_⟩
      rw [← hnames] at hsorted
      exact .struct (hsorted.imp ne_of_lt) (hsorted.imp fun hlt => by simp [compare_lt_iff_lt.mpr hlt])
        (hclosed (name :: names))

/-! ## Reading a canonical descriptor -/

/-- A canonical descriptor can be read, and describes the type that comes out. Whatever is made meanwhile is shared
between equal descriptors inside, and a struct is never taken for one of the same name. -/
theorem Descriptor.Canonical.descriptor_reify {d : Declarations} (hd : d.Bounded) {v : Value} (hv : Canonical v) :
    ∃ h D, (Registry.builtins.reify v).Runs { declarations := d } h D ∧ h.ty.descriptor D.declarations = v := by
  obtain ⟨f, rfl, hf, hclosed⟩ := hv.exists_spells
  have hreads : Dictionary.Reads { declarations := d } [] [] := ⟨hd, by simp, by simp, by simp⟩
  have hfollows : Reading.Follows ⟨d.next, [], []⟩ { declarations := d } := ⟨rfl, fun _ => rfl, .nil⟩
  obtain ⟨h, D, hmakes, -⟩ := f.makes_of_closed (hclosed []) { declarations := d } hreads.known
  obtain ⟨σ, hread, -⟩ := f.read_of_spelledOut hf [] ⟨d.next, [], []⟩ (by simp [Reading.Bare])
  have hmatches := Form.read_matches f (hclosed []) hreads hfollows hmakes
  rw [hread] at hmatches
  obtain ⟨-, -, hshows⟩ := hmatches
  have hpath : D.declarations.Path [] := ⟨List.nodup_nil, by simp⟩
  exact ⟨h, D, hmakes, (hshows D.declarations (.refl _) [] hpath (by simp)).mpr (List.nil_subset _)⟩

def requiredField (name : String) (type : Value) : FieldForm := ⟨name, true, .sequence [], true, type⟩

/-- The list of a struct `A` that stands in two fields of another struct `A`. -/
def listOfA : Value :=
  .sequence [.string "List", .sequence [.string "Struct", .string "A",
    .sequence ([requiredField "z" (.sequence [.string "String"])].map FieldForm.toValue)]]

def listsOfA : Value :=
  .sequence [.string "Struct", .string "A",
    .sequence ([requiredField "p" listOfA, requiredField "q" listOfA].map FieldForm.toValue)]

theorem Descriptor.Canonical.descriptor_reify_listsOfA : Declarations.Bounded {} ∧ Canonical listsOfA ∧
    ∃ h D, (Registry.builtins.reify listsOfA).Runs {} h D ∧ h.ty.descriptor D.declarations = listsOfA := by
  have hd : Declarations.Bounded {} := Declarations.bounded_of_lt (by simp)
  have hempty : ∀ name type, (requiredField name type).HasNoDefault := fun _ _ => ⟨rfl, rfl⟩
  have hlist : Canonical listOfA :=
    .list (.struct (by simp) (by simp [hempty]) (by simpa [requiredField] using Canonical.scalar (by decide)))
  have hlists : Canonical listsOfA :=
    .struct (by decide) (by simp [hempty]) (by simpa [requiredField] using hlist)
  exact ⟨hd, hlists, descriptor_reify hd hlists⟩

end TypedTemplate
