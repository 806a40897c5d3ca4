import Mathlib
import TypedTemplate.Command.Run
import TypedTemplate.Proofs.Descriptor.Making
import TypedTemplate.Proofs.Outcome
import TypedTemplate.Proofs.Schema.Descriptor

/-!
# Commands on descriptors

A descriptor is validated as a document, but types are listed as they are loaded. Both come to the same, except that
a file whose extension names no format is YAML for the one and JSON for the other.
-/

namespace TypedTemplate

/-- The schema of descriptors complains of nothing exactly in what has one of the forms of descriptors. -/
theorem SchemaDocument.mismatches_eq_nil_iff {v : Value} :
    descriptor.mismatches v = [] ↔ Descriptor.WellFormed v := by
  rw [← validate_iff, validate]
  split
  · rename_i h
    simp [h]
  · rename_i m ms h
    simp [h]

namespace Registry

variable {registry : Registry}

/-- What was parsed is a descriptor, and a type can be made of it. -/
def Loads (registry : Registry) (parsed : Except Error Value) : Prop :=
  ∃ v, parsed = .ok v ∧ Descriptor.WellFormed v ∧ ∃ h D, (registry.reify v).Runs {} h D

theorem not_loads_error {e : Error} : ¬ registry.Loads (.error e) := by
  rintro ⟨v, hv, -⟩
  cases hv

theorem loads_ok_iff {v : Value} :
    registry.Loads (.ok v) ↔ Descriptor.WellFormed v ∧ ∃ h D, (registry.reify v).Runs {} h D := by
  simp [Loads]

/-- The types that a descriptor names can be listed if a type can be made of it. -/
theorem load_runs_iff {v : Value} {D : Dictionary} :
    (∃ known D', (registry.load v).Runs D known D') ↔ ∃ h D', (registry.reify v).Runs D h D' := by
  simp only [load, Making.runs_bind, Making.runs_get, Making.runs_pure]
  constructor
  · rintro ⟨known, D', h, D₁, hreify, -⟩
    exact ⟨h, D₁, hreify⟩
  · rintro ⟨h, D₁, hreify⟩
    exact ⟨D₁.named, D₁, h, D₁, hreify, D₁, D₁, ⟨rfl, rfl⟩, rfl, rfl⟩

end Registry

namespace Descriptor

theorem checked_ok_iff {v w : Value} : checked v = .ok w ↔ w = v ∧ Descriptor.WellFormed v := by
  rw [← SchemaDocument.validate_iff, checked]
  cases SchemaDocument.descriptor.validate v with
  | error e => simp [bind, Except.bind]
  | ok u => simp [bind, Except.bind, pure, Except.pure, eq_comm]

end Descriptor

namespace Command

variable {files : Files} {registry : Registry} {file text : String}

/-- Validating a descriptor succeeds if the file, read like any document, can be loaded. -/
theorem validateSchema_exit (h : files file = .ok text) :
    (run files registry (.validateSchema file)).exit = 0 ↔ registry.Loads (parseAt file text) := by
  simp only [run, runValidateSchema, readDocument, h]
  cases parseAt file text with
  | error e => simp [named, prevented, Registry.not_loads_error]
  | ok v =>
      rw [Registry.loads_ok_iff, ← SchemaDocument.mismatches_eq_nil_iff, Making.runs_iff_outcome]
      simp only [named]
      cases SchemaDocument.descriptor.mismatches v with
      | cons m ms => simp
      | nil =>
          simp only [true_and, Making.outcome]
          cases ((ExceptT.run (registry.reify v)).run {}).1 <;> simp

/-- Listing types succeeds if the file, read as a descriptor, can be loaded. -/
theorem listTypes_exit (h : files file = .ok text) :
    (run files registry (.listTypes file)).exit = 0 ↔ registry.Loads (Descriptor.parseAt file text) := by
  simp only [run, runListTypes, Descriptor.ofFile, h]
  cases Descriptor.parseAt file text with
  | error e => simp [atPath, prevented, Registry.not_loads_error, bind, Except.bind]
  | ok v =>
      rw [Registry.loads_ok_iff, ← Registry.load_runs_iff, Making.runs_iff_outcome]
      simp only [atPath, bind, Except.bind]
      cases hv : Descriptor.checked v with
      | error e =>
          have hform : ¬ Descriptor.WellFormed v := by
            intro hform
            rw [Descriptor.checked_ok_iff.mpr ⟨rfl, hform⟩] at hv
            cases hv
          simp [hform, prevented]
      | ok w =>
          obtain ⟨rfl, hform⟩ := Descriptor.checked_ok_iff.mp hv
          simp only [hform, true_and, Making.outcome]
          cases ((ExceptT.run (registry.load w)).run {}).1 <;> simp [prevented]

/-- For a file that can be read, validating it and listing its types agree in whether they succeed, exactly if its
extension names a format, or its text can be loaded as YAML if and only if it can be as JSON. -/
theorem schema_commands_agree_iff (registry : Registry) (h : files file = .ok text) :
    ((run files registry (.validateSchema file)).exit = 0 ↔ (run files registry (.listTypes file)).exit = 0) ↔
      Path.extension? file ∈ [some "json", some "yaml", some "yml"] ∨
        (registry.Loads (Yaml.parse text) ↔ registry.Loads (Json.parse text)) := by
  rw [validateSchema_exit h, listTypes_exit h, parseAt, Descriptor.parseAt]
  split
  · rename_i hjson
    simp [hjson]
  · split
    · rename_i hyaml
      simp [hyaml]
    · rename_i hyml
      simp [hyml]
    · rename_i hjson _ hyaml hyml
      have hunnamed : Path.extension? file ∉ [some "json", some "yaml", some "yml"] := by
        simp only [List.mem_cons, List.not_mem_nil, or_false, not_or]
        exact ⟨hjson, hyaml, hyml⟩
      exact (or_iff_right hunnamed).symm

/-- Two files whose names do not tell their formats. -/
def descriptorFiles : Files := Files.ofTable [("a", .ok "[\"String\"]"), ("b", .ok "[String]")]

theorem loads_string : Registry.builtins.Loads (.ok (.sequence [.string "String"])) :=
  Registry.loads_ok_iff.mpr ⟨SchemaDocument.validate_iff.mp (by cbv), _, _, by cbv⟩

/-- A descriptor that reads the same in both formats is accepted by both commands. -/
theorem schema_commands_agree_json :
    (run descriptorFiles .builtins (.validateSchema "a")).exit = 0 ∧
      (run descriptorFiles .builtins (.listTypes "a")).exit = 0 := by
  have hread : descriptorFiles "a" = .ok "[\"String\"]" := by cbv
  have hyaml : Yaml.parse "[\"String\"]" = .ok (.sequence [.string "String"]) := by cbv
  have hjson : Json.parse "[\"String\"]" = .ok (.sequence [.string "String"]) := by cbv
  have hvalid : (run descriptorFiles .builtins (.validateSchema "a")).exit = 0 := by
    rw [validateSchema_exit hread, parseAt, show Path.extension? "a" = none by cbv, hyaml]
    exact loads_string
  exact ⟨hvalid, ((schema_commands_agree_iff .builtins hread).mpr (.inr (by rw [hyaml, hjson]))).mp hvalid⟩

/-- A descriptor in YAML is valid in a file that does not tell its format, but its types cannot be listed. -/
theorem schema_commands_disagree :
    (run descriptorFiles .builtins (.validateSchema "b")).exit = 0 ∧
      (run descriptorFiles .builtins (.listTypes "b")).exit ≠ 0 := by
  have hread : descriptorFiles "b" = .ok "[String]" := by cbv
  have hextension : Path.extension? "b" = none := by cbv
  have hyaml : Yaml.parse "[String]" = .ok (.sequence [.string "String"]) := by cbv
  obtain ⟨e, hjson⟩ : ∃ e, Json.parse "[String]" = .error e := ⟨_, by cbv⟩
  rw [ne_eq, validateSchema_exit hread, listTypes_exit hread, parseAt, Descriptor.parseAt, hextension, hyaml, hjson]
  exact ⟨loads_string, Registry.not_loads_error⟩

end Command

end TypedTemplate
