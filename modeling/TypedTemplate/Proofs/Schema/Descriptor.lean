import Mathlib.Data.List.Forall2
import TypedTemplate.Proofs.Entries
import TypedTemplate.Proofs.Value.Depth
import TypedTemplate.Schema.Descriptor
import TypedTemplate.Schema.Validate

/-!
# What the schema of descriptors accepts

The schema is a grammar of descriptors: its constraints say together which forms there are. What it accepts is what can
be derived in the grammar, and the budget for following references is large enough for every derivation.
-/

namespace TypedTemplate

/-! ## The grammar -/

namespace Descriptor

/-- A field as it stands in the descriptor of a struct. -/
structure FieldForm where
  name : String
  required : Bool
  default : Value
  empty : Bool
  type : Value

def FieldForm.toValue (f : FieldForm) : Value :=
  .sequence [.string f.name, .sequence [.bool f.required, f.default, .bool f.empty, f.type]]

def scalarTags : List String := ["String", "Integer", "Float", "Boolean"]

/-- The forms of descriptors. Behind a tag that is none of the known ones there may be anything. -/
inductive WellFormed : Value → Prop
  | scalar {tag} : tag ∈ scalarTags → WellFormed (.sequence [.string tag])
  | enum {name} {members : List String} :
      WellFormed (.sequence [.string "Enum", .string name, .sequence (members.map Value.string)])
  | list {element} : WellFormed element → WellFormed (.sequence [.string "List", element])
  | map {key value} : WellFormed key → WellFormed value → WellFormed (.sequence [.string "Map", key, value])
  | mention {name} : WellFormed (.sequence [.string "Struct", .string name])
  | struct {name} {fields : List FieldForm} : (∀ f ∈ fields, WellFormed f.type) →
      WellFormed (.sequence [.string "Struct", .string name, .sequence (fields.map FieldForm.toValue)])
  | choice {name alternatives} : (∀ a ∈ alternatives, WellFormed a) →
      WellFormed (.sequence [.string "Choice", .string name, .sequence alternatives])
  | extension {tag params} : tag ∉ SchemaDocument.builtinTags → WellFormed (.sequence (.string tag :: params))

/-! ## Values that are read alike -/

/-- Related values are the same texts and truth values, and sequences of related elements. -/
structure Keeps (R : Value → Value → Prop) : Prop where
  string : ∀ {s w}, R (.string s) w → w = .string s
  bool : ∀ {b w}, R (.bool b) w → w = .bool b
  sequence : ∀ {vs w}, R (.sequence vs) w → ∃ ws, w = .sequence ws ∧ List.Forall₂ R vs ws

namespace Keeps

variable {R : Value → Value → Prop} (hR : Keeps R)

include hR

theorem strings {names : List String} {ws : List Value} (h : List.Forall₂ R (names.map Value.string) ws) :
    ws = names.map Value.string := by
  rw [List.forall₂_map_left_iff] at h
  induction h with
  | nil => rfl
  | cons hw _ ih => rw [List.map_cons, hR.string hw, ih]

theorem tagged {tag : String} {params : List Value} {w : Value} (h : R (.sequence (.string tag :: params)) w) :
    ∃ ws, w = .sequence (.string tag :: ws) ∧ List.Forall₂ R params ws := by
  obtain ⟨_, rfl, hws⟩ := hR.sequence h
  cases hws with
  | cons hword hparams =>
      cases hR.string hword
      exact ⟨_, rfl, hparams⟩

theorem named {tag name : String} {part w : Value} (h : R (.sequence [.string tag, .string name, part]) w) :
    ∃ part', w = .sequence [.string tag, .string name, part'] ∧ R part part' := by
  obtain ⟨_, rfl, _ | ⟨hname, _ | ⟨hpart, _ | _⟩⟩⟩ := hR.tagged h
  cases hR.string hname
  exact ⟨_, rfl, hpart⟩

theorem field {f : FieldForm} {w : Value} (h : R f.toValue w) : ∃ g : FieldForm, w = g.toValue ∧ R f.type g.type := by
  obtain ⟨_, rfl, _ | ⟨hsignature, _ | _⟩⟩ := hR.tagged h
  obtain ⟨_, rfl, _ | ⟨hrequired, _ | ⟨-, _ | ⟨hempty, _ | ⟨htype, _ | _⟩⟩⟩⟩⟩ := hR.sequence hsignature
  cases hR.bool hrequired
  cases hR.bool hempty
  exact ⟨⟨f.name, f.required, _, f.empty, _⟩, rfl, htype⟩

theorem fields {fs : List FieldForm} {ws : List Value} (h : List.Forall₂ R (fs.map FieldForm.toValue) ws) :
    ∃ gs : List FieldForm, ws = gs.map FieldForm.toValue ∧ List.Forall₂ (fun f g => R f.type g.type) fs gs := by
  rw [List.forall₂_map_left_iff] at h
  induction h with
  | nil => exact ⟨[], rfl, .nil⟩
  | cons hw _ ih =>
      obtain ⟨g, rfl, hg⟩ := hR.field hw
      obtain ⟨gs, rfl, hgs⟩ := ih
      exact ⟨g :: gs, rfl, .cons hg hgs⟩

/-- What is read like a descriptor of some form has that form. -/
theorem wellFormed {v w : Value} (hv : WellFormed v) (h : R v w) : WellFormed w := by
  induction hv generalizing w with
  | scalar htag =>
      obtain ⟨_, rfl, ⟨⟩⟩ := hR.tagged h
      exact .scalar htag
  | enum =>
      obtain ⟨_, rfl, hmembers⟩ := hR.named h
      obtain ⟨_, rfl, hms⟩ := hR.sequence hmembers
      cases hR.strings hms
      exact .enum
  | list _ ih =>
      obtain ⟨_, rfl, _ | ⟨helement, _ | _⟩⟩ := hR.tagged h
      exact .list (ih helement)
  | map _ _ ihk ihv =>
      obtain ⟨_, rfl, _ | ⟨hkey, _ | ⟨hvalue, _ | _⟩⟩⟩ := hR.tagged h
      exact .map (ihk hkey) (ihv hvalue)
  | mention =>
      obtain ⟨_, rfl, _ | ⟨hname, _ | _⟩⟩ := hR.tagged h
      cases hR.string hname
      exact .mention
  | struct _ ih =>
      obtain ⟨_, rfl, hfields⟩ := hR.named h
      obtain ⟨_, rfl, hfs⟩ := hR.sequence hfields
      obtain ⟨gs, rfl, hgs⟩ := hR.fields hfs
      refine .struct fun g hg => ?_
      obtain ⟨f, hf, hfg⟩ := Entries.exists_of_forall₂_right hgs hg
      exact ih f hf hfg
  | choice _ ih =>
      obtain ⟨_, rfl, halternatives⟩ := hR.named h
      obtain ⟨as, rfl, has⟩ := hR.sequence halternatives
      refine .choice fun b hb => ?_
      obtain ⟨a, ha, hab⟩ := Entries.exists_of_forall₂_right has hb
      exact ih a ha hab
  | extension htag =>
      obtain ⟨_, rfl, -⟩ := hR.tagged h
      exact .extension htag

end Keeps

/-- Equal values are read alike. -/
theorem keeps_beq : Keeps fun v w => (v == w) = true where
  string := by
    intro s w h
    cases w with
    | scalar t =>
        cases t with
        | string t => exact congrArg Value.string (Value.string_beq.mp h).symm
        | null | bool | integer | float => cases Value.beq_iff.mp h
    | sequence | mapping => cases Value.beq_iff.mp h
  bool := by
    intro b w h
    cases w with
    | scalar t =>
        cases t with
        | bool b' => cases b <;> cases b' <;> first | rfl | cases Value.beq_iff.mp h
        | null | string | integer | float => cases Value.beq_iff.mp h
    | sequence | mapping => cases Value.beq_iff.mp h
  sequence := by
    intro vs w h
    cases w with
    | sequence ws => exact ⟨ws, rfl, Value.sequence_beq.mp h⟩
    | scalar t => cases t <;> cases Value.beq_iff.mp h
    | mapping => cases Value.beq_iff.mp h

theorem elementsToJson_forall₂ (vs : List Value) :
    List.Forall₂ (fun v w => w = v.toJson) vs (Value.elementsToJson vs) := by
  induction vs with
  | nil => exact .nil
  | cons v rest ih => exact .cons rfl ih

theorem keeps_toJson : Keeps fun v w => w = v.toJson where
  string := fun h => h
  bool := fun h => h
  sequence := fun h => ⟨_, h, elementsToJson_forall₂ _⟩

theorem eq_of_toJson_scalar {s : Scalar} {w : Value} (h : .scalar s = w.toJson) (hs : s ≠ .null) : w = .scalar s := by
  cases w with
  | scalar t =>
      cases t with
      | float x =>
          rw [Value.toJson] at h
          split at h
          · exact h.symm
          · cases h
            exact absurd rfl hs
      | null | bool | string | integer => exact h.symm
  | sequence | mapping => cases h

theorem keeps_ofJson : Keeps fun v w => v = w.toJson where
  string := fun h => eq_of_toJson_scalar h (by simp)
  bool := fun h => eq_of_toJson_scalar h (by simp)
  sequence := by
    intro vs w h
    cases w with
    | sequence ws =>
        cases h
        exact ⟨ws, rfl, (elementsToJson_forall₂ ws).flip⟩
    | scalar t =>
        cases t with
        | float x =>
            rw [Value.toJson] at h
            split at h <;> cases h
        | null | bool | string | integer => cases h
    | mapping => cases h

/-- A value has the form of a descriptor exactly if it has it as JSON sees it. -/
theorem wellFormed_toJson_iff {v : Value} : WellFormed v.toJson ↔ WellFormed v :=
  ⟨fun h => keeps_ofJson.wellFormed h rfl, fun h => keeps_toJson.wellFormed h rfl⟩

end Descriptor

/-! ## Acceptance -/

namespace Value

theorem beq_string_iff {v : Value} {text : String} : (v == .string text) = true ↔ v = .string text := by
  constructor
  · intro h
    cases v with
    | scalar s =>
        cases s with
        | string s => exact congrArg Value.string (string_beq.mp h)
        | null | bool | integer | float => cases beq_iff.mp h
    | sequence | mapping => cases beq_iff.mp h
  · rintro rfl
    exact beq_self _

theorem jsonEqual_string_iff {v : Value} {text : String} : v.jsonEqual (.string text) = true ↔ v = .string text := by
  have hunified : v.jsonEqual (.string text) = (v.unifyNumbers == .string text) := rfl
  rw [hunified, beq_string_iff]
  cases v with
  | scalar s =>
      cases s with
      | float x =>
          rw [unifyNumbers]
          split
          · split <;> simp [string]
          · rfl
      | null | bool | integer | string => rfl
  | sequence | mapping => simp [unifyNumbers, string]

end Value

namespace SchemaDocument

open Schema

variable {followed : String → Value → Bool} {v : Value}

theorem accepts_kind {k : JsonKind} : acceptsWith followed (kind k) v = k.accepts v := by
  simp [kind, acceptsWith, meetsAll, meets]

theorem accepts_string_iff : acceptsWith followed (kind .string) v = true ↔ ∃ text, v = .string text := by
  rw [accepts_kind]
  cases v with
  | scalar s => cases s <;> simp [JsonKind.accepts, Value.string]
  | sequence | mapping => simp [JsonKind.accepts, Value.string]

theorem accepts_boolean_iff : acceptsWith followed (kind .boolean) v = true ↔ ∃ b, v = .bool b := by
  rw [accepts_kind]
  cases v with
  | scalar s => cases s <;> simp [JsonKind.accepts, Value.bool]
  | sequence | mapping => simp [JsonKind.accepts, Value.bool]

theorem accepts_word_iff {text : String} : acceptsWith followed (word text) v = true ↔ v = .string text := by
  simp [word, acceptsWith, meetsAll, meets, Value.jsonEqual_string_iff]

theorem acceptsEach_iff {ss : List Schema} {vs : List Value} (h : ss.length = vs.length) :
    acceptsEach followed ss vs = true ↔ List.Forall₂ (fun s v => acceptsWith followed s v = true) ss vs := by
  induction ss generalizing vs with
  | nil => cases vs <;> simp_all [acceptsEach]
  | cons s ss ih =>
      cases vs with
      | nil => cases h
      | cons v vs => rw [acceptsEach, Bool.and_eq_true, ih (Nat.succ.inj h), List.forall₂_cons]

/-- A form accepts the sequences of as many elements, each accepted in its place. -/
theorem accepts_form_iff {elements : List Schema} : acceptsWith followed (form elements) v = true ↔
    ∃ vs, v = .sequence vs ∧ List.Forall₂ (fun s v => acceptsWith followed s v = true) elements vs := by
  cases v with
  | scalar | mapping => simp [form, acceptsWith, meetsAll, meets, JsonKind.accepts]
  | sequence vs =>
      simp only [form, acceptsWith, meetsAll, meets, JsonKind.accepts, List.any_cons, List.any_nil, Bool.or_false,
        Bool.and_true, Bool.and_eq_true, decide_eq_true_eq, Value.sequence.injEq, exists_eq_left']
      constructor
      · rintro ⟨heach, hmax, hmin⟩
        exact (acceptsEach_iff (Nat.le_antisymm hmin hmax)).mp heach
      · intro h
        exact ⟨(acceptsEach_iff h.length_eq).mpr h, Nat.le_of_eq h.length_eq.symm, Nat.le_of_eq h.length_eq⟩

theorem accepts_sequenceOf_iff {element : Schema} : acceptsWith followed (sequenceOf element) v = true ↔
    ∃ vs, v = .sequence vs ∧ ∀ v ∈ vs, acceptsWith followed element v = true := by
  cases v with
  | scalar | mapping => simp [sequenceOf, acceptsWith, meetsAll, meets, JsonKind.accepts]
  | sequence vs => simp [sequenceOf, acceptsWith, meetsAll, meets, JsonKind.accepts]

theorem accepts_one_iff {s : Schema} : acceptsWith followed (form [s]) v = true ↔
    ∃ x, v = .sequence [x] ∧ acceptsWith followed s x = true := by
  simp only [accepts_form_iff, List.forall₂_cons_left_iff, List.forall₂_nil_left_iff]
  constructor
  · rintro ⟨_, rfl, x, _, hx, rfl, rfl⟩
    exact ⟨x, rfl, hx⟩
  · rintro ⟨x, rfl, hx⟩
    exact ⟨_, rfl, x, _, hx, rfl, rfl⟩

theorem accepts_pair_iff {s t : Schema} : acceptsWith followed (form [s, t]) v = true ↔
    ∃ x y, v = .sequence [x, y] ∧ acceptsWith followed s x = true ∧ acceptsWith followed t y = true := by
  simp only [accepts_form_iff, List.forall₂_cons_left_iff, List.forall₂_nil_left_iff]
  constructor
  · rintro ⟨_, rfl, x, _, hx, ⟨y, _, hy, rfl, rfl⟩, rfl⟩
    exact ⟨x, y, rfl, hx, hy⟩
  · rintro ⟨x, y, rfl, hx, hy⟩
    exact ⟨_, rfl, x, _, hx, ⟨y, _, hy, rfl, rfl⟩, rfl⟩

theorem accepts_triple_iff {s t u : Schema} : acceptsWith followed (form [s, t, u]) v = true ↔
    ∃ x y z, v = .sequence [x, y, z] ∧ acceptsWith followed s x = true ∧ acceptsWith followed t y = true ∧
      acceptsWith followed u z = true := by
  simp only [accepts_form_iff, List.forall₂_cons_left_iff, List.forall₂_nil_left_iff]
  constructor
  · rintro ⟨_, rfl, x, _, hx, ⟨y, _, hy, ⟨z, _, hz, rfl, rfl⟩, rfl⟩, rfl⟩
    exact ⟨x, y, z, rfl, hx, hy, hz⟩
  · rintro ⟨x, y, z, rfl, hx, hy, hz⟩
    exact ⟨_, rfl, x, _, hx, ⟨y, _, hy, ⟨z, _, hz, rfl, rfl⟩, rfl⟩, rfl⟩

theorem exists_map_of_forall {α : Type} {f : α → Value} {P : α → Prop} {vs : List Value}
    (h : ∀ v ∈ vs, ∃ x, v = f x ∧ P x) : ∃ xs : List α, vs = xs.map f ∧ ∀ x ∈ xs, P x := by
  induction vs with
  | nil => exact ⟨[], rfl, by simp⟩
  | cons v vs ih =>
      obtain ⟨x, rfl, hx⟩ := h v (by simp)
      obtain ⟨xs, rfl, hxs⟩ := ih fun v hv => h v (List.mem_cons_of_mem _ hv)
      exact ⟨x :: xs, rfl, by simpa [hx] using hxs⟩

theorem accepts_strings_iff : acceptsWith followed (sequenceOf (kind .string)) v = true ↔
    ∃ names : List String, v = .sequence (names.map Value.string) := by
  rw [accepts_sequenceOf_iff]
  constructor
  · rintro ⟨vs, rfl, hvs⟩
    obtain ⟨names, rfl, -⟩ := exists_map_of_forall (f := Value.string) (P := fun _ => True) fun v hv => by
      simpa using accepts_string_iff.mp (hvs v hv)
    exact ⟨names, rfl⟩
  · rintro ⟨names, rfl⟩
    exact ⟨_, rfl, by simp [accepts_string_iff]⟩

/-! ## The definitions of the schema -/

variable {b : Nat}

theorem follow_descriptor_iff : descriptor.follow (b + 1) "#/definitions/descriptor" v = true ↔
    descriptor.follow b "#/definitions/scalar" v = true ∨ descriptor.follow b "#/definitions/enum" v = true ∨
    descriptor.follow b "#/definitions/list" v = true ∨ descriptor.follow b "#/definitions/map" v = true ∨
    descriptor.follow b "#/definitions/structRef" v = true ∨ descriptor.follow b "#/definitions/struct" v = true ∨
    descriptor.follow b "#/definitions/choice" v = true ∨ descriptor.follow b "#/definitions/extension" v = true := by
  change acceptsWith _ (.all [.anyOf _]) v = true ↔ _
  simp only [acceptsWith, meetsAll, meets, acceptsAny, Bool.or_eq_true, Bool.and_true, Bool.or_false]

theorem follow_scalar_iff : descriptor.follow (b + 1) "#/definitions/scalar" v = true ↔
    ∃ tag ∈ Descriptor.scalarTags, v = .sequence [.string tag] := by
  change acceptsWith _ (form [.all [.enum (["String", "Integer", "Float", "Boolean"].map .string)]]) v = true ↔ _
  rw [accepts_one_iff]
  simp only [acceptsWith, meetsAll, meets, List.any_map, List.any_eq_true, Bool.and_true, Function.comp_apply,
    Value.jsonEqual_string_iff]
  constructor
  · rintro ⟨_, rfl, tag, htag, rfl⟩
    exact ⟨tag, htag, rfl⟩
  · rintro ⟨tag, htag, rfl⟩
    exact ⟨_, rfl, tag, htag, rfl⟩

theorem follow_enum_iff : descriptor.follow (b + 1) "#/definitions/enum" v = true ↔
    ∃ name, ∃ members : List String,
      v = .sequence [.string "Enum", .string name, .sequence (members.map Value.string)] := by
  change acceptsWith _ (form [word "Enum", kind .string, sequenceOf (kind .string)]) v = true ↔ _
  simp only [accepts_triple_iff, accepts_word_iff, accepts_string_iff, accepts_strings_iff]
  constructor
  · rintro ⟨_, _, _, rfl, rfl, ⟨name, rfl⟩, members, rfl⟩
    exact ⟨name, members, rfl⟩
  · rintro ⟨name, members, rfl⟩
    exact ⟨_, _, _, rfl, rfl, ⟨name, rfl⟩, members, rfl⟩

theorem follow_list_iff : descriptor.follow (b + 1) "#/definitions/list" v = true ↔
    ∃ element, v = .sequence [.string "List", element] ∧
      descriptor.follow b "#/definitions/descriptor" element = true := by
  change acceptsWith _ (form [word "List", descriptorRef]) v = true ↔ _
  simp only [accepts_pair_iff, accepts_word_iff, descriptorRef, acceptsWith_ref]
  constructor
  · rintro ⟨_, element, rfl, rfl, helement⟩
    exact ⟨element, rfl, helement⟩
  · rintro ⟨element, rfl, helement⟩
    exact ⟨_, element, rfl, rfl, helement⟩

theorem follow_map_iff : descriptor.follow (b + 1) "#/definitions/map" v = true ↔
    ∃ key value, v = .sequence [.string "Map", key, value] ∧
      descriptor.follow b "#/definitions/descriptor" key = true ∧
      descriptor.follow b "#/definitions/descriptor" value = true := by
  change acceptsWith _ (form [word "Map", descriptorRef, descriptorRef]) v = true ↔ _
  simp only [accepts_triple_iff, accepts_word_iff, descriptorRef, acceptsWith_ref]
  constructor
  · rintro ⟨_, key, value, rfl, rfl, hparts⟩
    exact ⟨key, value, rfl, hparts⟩
  · rintro ⟨key, value, rfl, hparts⟩
    exact ⟨_, key, value, rfl, rfl, hparts⟩

theorem follow_structRef_iff : descriptor.follow (b + 1) "#/definitions/structRef" v = true ↔
    ∃ name, v = .sequence [.string "Struct", .string name] := by
  change acceptsWith _ (form [word "Struct", kind .string]) v = true ↔ _
  simp only [accepts_pair_iff, accepts_word_iff, accepts_string_iff]
  constructor
  · rintro ⟨_, _, rfl, rfl, name, rfl⟩
    exact ⟨name, rfl⟩
  · rintro ⟨name, rfl⟩
    exact ⟨_, _, rfl, rfl, name, rfl⟩

theorem follow_field_iff : descriptor.follow (b + 1) "#/definitions/field" v = true ↔
    ∃ f : Descriptor.FieldForm, v = f.toValue ∧ descriptor.follow b "#/definitions/descriptor" f.type = true := by
  change acceptsWith _ (form [kind .string, form [kind .boolean, .all [], kind .boolean, descriptorRef]]) v = true ↔ _
  rw [accepts_pair_iff]
  simp only [accepts_form_iff, List.forall₂_cons_left_iff, List.forall₂_nil_left_iff, accepts_string_iff,
    accepts_boolean_iff, descriptorRef, acceptsWith_ref]
  constructor
  · rintro ⟨_, _, rfl, ⟨name, rfl⟩, _, rfl, _, _, ⟨required, rfl⟩, ⟨default, _, -, ⟨_, _, ⟨empty, rfl⟩,
      ⟨type, _, htype, rfl, rfl⟩, rfl⟩, rfl⟩, rfl⟩
    exact ⟨⟨name, required, default, empty, type⟩, rfl, htype⟩
  · rintro ⟨f, rfl, htype⟩
    exact ⟨_, _, rfl, ⟨f.name, rfl⟩, _, rfl, _, _, ⟨f.required, rfl⟩, ⟨f.default, _, rfl, ⟨_, _, ⟨f.empty, rfl⟩,
      ⟨f.type, _, htype, rfl, rfl⟩, rfl⟩, rfl⟩, rfl⟩

theorem follow_struct_iff : descriptor.follow (b + 1) "#/definitions/struct" v = true ↔
    ∃ name fields, v = .sequence [.string "Struct", .string name, .sequence fields] ∧
      ∀ f ∈ fields, descriptor.follow b "#/definitions/field" f = true := by
  change acceptsWith _ (form [word "Struct", kind .string, sequenceOf (.all [.ref "#/definitions/field"])]) v = true ↔ _
  simp only [accepts_triple_iff, accepts_word_iff, accepts_string_iff, accepts_sequenceOf_iff, acceptsWith_ref]
  constructor
  · rintro ⟨_, _, _, rfl, rfl, ⟨name, rfl⟩, fields, rfl, hfields⟩
    exact ⟨name, fields, rfl, hfields⟩
  · rintro ⟨name, fields, rfl, hfields⟩
    exact ⟨_, _, _, rfl, rfl, ⟨name, rfl⟩, fields, rfl, hfields⟩

theorem follow_choice_iff : descriptor.follow (b + 1) "#/definitions/choice" v = true ↔
    ∃ name alternatives, v = .sequence [.string "Choice", .string name, .sequence alternatives] ∧
      ∀ a ∈ alternatives, descriptor.follow b "#/definitions/descriptor" a = true := by
  change acceptsWith _ (form [word "Choice", kind .string, sequenceOf descriptorRef]) v = true ↔ _
  simp only [accepts_triple_iff, accepts_word_iff, accepts_string_iff, accepts_sequenceOf_iff, descriptorRef,
    acceptsWith_ref]
  constructor
  · rintro ⟨_, _, _, rfl, rfl, ⟨name, rfl⟩, alternatives, rfl, halternatives⟩
    exact ⟨name, alternatives, rfl, halternatives⟩
  · rintro ⟨name, alternatives, rfl, halternatives⟩
    exact ⟨_, _, _, rfl, rfl, ⟨name, rfl⟩, alternatives, rfl, halternatives⟩

theorem accepts_otherTag_iff : acceptsWith followed (.all [notBuiltin, .type [.string]]) v = true ↔
    ∃ tag, v = .string tag ∧ tag ∉ builtinTags := by
  have hsplit : acceptsWith followed (.all [notBuiltin, .type [.string]]) v = true ↔
      (¬ ∃ tag ∈ builtinTags, v = .string tag) ∧ ∃ text, v = .string text := by
    rw [← @accepts_string_iff followed]
    simp only [acceptsWith, meetsAll, meets, notBuiltin, kind, Bool.and_eq_true, Bool.and_true, Bool.not_eq_true',
      List.any_map, ← Bool.not_eq_true, List.any_eq_true, Function.comp_apply, Value.jsonEqual_string_iff]
  rw [hsplit]
  constructor
  · rintro ⟨hnone, tag, rfl⟩
    exact ⟨tag, rfl, fun htag => hnone ⟨tag, htag, rfl⟩⟩
  · rintro ⟨tag, rfl, htag⟩
    refine ⟨?_, tag, rfl⟩
    rintro ⟨other, hother, heq⟩
    cases heq
    exact htag hother

theorem follow_extension_iff : descriptor.follow (b + 1) "#/definitions/extension" v = true ↔
    ∃ tag params, v = .sequence (.string tag :: params) ∧ tag ∉ builtinTags := by
  change acceptsWith _ (.all [.tuple [.all [notBuiltin, .type [.string]]], .minItems 1, .type [.array]]) v = true ↔ _
  cases v with
  | scalar | mapping => simp [acceptsWith, meetsAll, meets, JsonKind.accepts]
  | sequence vs =>
      cases vs with
      | nil => simp [acceptsWith, meetsAll, meets, acceptsEach]
      | cons head params =>
          have hhead : acceptsWith (descriptor.follow b)
                (.all [.tuple [.all [notBuiltin, .type [.string]]], .minItems 1, .type [.array]])
                (.sequence (head :: params)) = true ↔
              acceptsWith (descriptor.follow b) (.all [notBuiltin, .type [.string]]) head = true := by
            rw [acceptsWith.eq_2, meetsAll, meets, acceptsEach]
            simp [meetsAll, meets, JsonKind.accepts, acceptsEach]
          rw [hhead, accepts_otherTag_iff]
          simp

/-! ## The schema and the grammar -/

open Descriptor

theorem exists_budget {doc : SchemaDocument} {b : Nat} {r : String} {v : Value} (h : doc.follow b r v = true) :
    ∃ b', b = b' + 1 := by
  cases b with
  | zero => cases h
  | succ b => exact ⟨b, rfl⟩

/-- What the schema accepts is well formed. -/
theorem wellFormed_of_follow {b : Nat} {v : Value} (h : descriptor.follow b "#/definitions/descriptor" v = true) :
    WellFormed v := by
  induction b using Nat.strongRecOn generalizing v with
  | ind b ih =>
      obtain ⟨b, rfl⟩ := exists_budget h
      rw [follow_descriptor_iff] at h
      rcases h with h | h | h | h | h | h | h | h <;> obtain ⟨b, rfl⟩ := exists_budget h
      · obtain ⟨tag, htag, rfl⟩ := follow_scalar_iff.mp h
        exact .scalar htag
      · obtain ⟨name, members, rfl⟩ := follow_enum_iff.mp h
        exact .enum
      · obtain ⟨element, rfl, helement⟩ := follow_list_iff.mp h
        exact .list (ih b (by omega) helement)
      · obtain ⟨key, value, rfl, hkey, hvalue⟩ := follow_map_iff.mp h
        exact .map (ih b (by omega) hkey) (ih b (by omega) hvalue)
      · obtain ⟨name, rfl⟩ := follow_structRef_iff.mp h
        exact .mention
      · obtain ⟨name, fields, rfl, hfields⟩ := follow_struct_iff.mp h
        obtain ⟨fs, rfl, hfs⟩ := exists_map_of_forall (f := FieldForm.toValue) (P := fun f => WellFormed f.type)
          fun f hf => by
            have hfield := hfields f hf
            obtain ⟨b, rfl⟩ := exists_budget hfield
            obtain ⟨f, rfl, htype⟩ := follow_field_iff.mp hfield
            exact ⟨f, rfl, ih b (by omega) htype⟩
        exact .struct hfs
      · obtain ⟨name, alternatives, rfl, halternatives⟩ := follow_choice_iff.mp h
        exact .choice fun a ha => ih b (by omega) (halternatives a ha)
      · obtain ⟨tag, params, rfl, htag⟩ := follow_extension_iff.mp h
        exact .extension htag

/-- A budget for a sequence lets three references be followed before its elements are looked at. -/
theorem exists_budget_elements {vs : List Value} {b : Nat} (hb : 3 * (Value.sequence vs).depth ≤ b) :
    ∃ b', b = b' + 3 ∧ ∀ v ∈ vs, 3 * v.depth ≤ b' := by
  rw [Value.depth] at hb
  refine ⟨b - 3, by omega, fun v hv => ?_⟩
  have := Value.depth_le_of_mem hv
  omega

theorem depth_type_le {f : FieldForm} {b : Nat} (hb : 3 * f.toValue.depth ≤ b) : 3 * f.type.depth ≤ b := by
  obtain ⟨b, rfl, hparts⟩ := exists_budget_elements hb
  obtain ⟨b, rfl, hsignature⟩ := exists_budget_elements
    (hparts (.sequence [.bool f.required, f.default, .bool f.empty, f.type]) (by simp))
  have := hsignature f.type (by simp)
  omega

/-- The schema accepts what is well formed as soon as the budget allows for three references at each level. -/
theorem follow_of_wellFormed {v : Value} (h : WellFormed v) {b : Nat} (hb : 3 * v.depth ≤ b) :
    descriptor.follow b "#/definitions/descriptor" v = true := by
  induction h generalizing b with
  | scalar htag =>
      obtain ⟨b, rfl, -⟩ := exists_budget_elements hb
      exact follow_descriptor_iff.mpr (.inl (follow_scalar_iff.mpr ⟨_, htag, rfl⟩))
  | enum =>
      obtain ⟨b, rfl, -⟩ := exists_budget_elements hb
      exact follow_descriptor_iff.mpr (.inr (.inl (follow_enum_iff.mpr ⟨_, _, rfl⟩)))
  | @list element _ ih =>
      obtain ⟨b, rfl, hparts⟩ := exists_budget_elements hb
      have helement := ih (Nat.le_succ_of_le (hparts element (by simp)))
      exact follow_descriptor_iff.mpr (.inr (.inr (.inl (follow_list_iff.mpr ⟨_, rfl, helement⟩))))
  | @map key value _ _ ihk ihv =>
      obtain ⟨b, rfl, hparts⟩ := exists_budget_elements hb
      have hkey := ihk (Nat.le_succ_of_le (hparts key (by simp)))
      have hvalue := ihv (Nat.le_succ_of_le (hparts value (by simp)))
      exact follow_descriptor_iff.mpr
        (.inr (.inr (.inr (.inl (follow_map_iff.mpr ⟨_, _, rfl, hkey, hvalue⟩)))))
  | mention =>
      obtain ⟨b, rfl, -⟩ := exists_budget_elements hb
      exact follow_descriptor_iff.mpr (.inr (.inr (.inr (.inr (.inl (follow_structRef_iff.mpr ⟨_, rfl⟩))))))
  | @struct name fields _ ih =>
      obtain ⟨b, rfl, hparts⟩ := exists_budget_elements hb
      obtain ⟨b, rfl, hfields⟩ := exists_budget_elements
        (hparts (.sequence (fields.map FieldForm.toValue)) (by simp))
      refine follow_descriptor_iff.mpr (.inr (.inr (.inr (.inr (.inr (.inl (follow_struct_iff.mpr
        ⟨_, _, rfl, fun v hv => ?_⟩)))))))
      obtain ⟨f, hf, rfl⟩ := List.mem_map.mp hv
      have htype := depth_type_le (hfields _ hv)
      exact follow_field_iff.mpr ⟨f, rfl, ih f hf (by omega)⟩
  | @choice name alternatives _ ih =>
      obtain ⟨b, rfl, hparts⟩ := exists_budget_elements hb
      obtain ⟨b, rfl, halternatives⟩ := exists_budget_elements (hparts (.sequence alternatives) (by simp))
      refine follow_descriptor_iff.mpr (.inr (.inr (.inr (.inr (.inr (.inr (.inl (follow_choice_iff.mpr
        ⟨_, _, rfl, fun a ha => ih a ha ?_⟩))))))))
      have := halternatives a ha
      omega
  | extension htag =>
      obtain ⟨b, rfl, -⟩ := exists_budget_elements hb
      exact follow_descriptor_iff.mpr (.inr (.inr (.inr (.inr (.inr (.inr (.inr (follow_extension_iff.mpr
        ⟨_, _, rfl, htag⟩))))))))

theorem accepts_iff {v : Value} : descriptor.accepts v = true ↔ WellFormed v := by
  have hroot : descriptor.accepts v =
      descriptor.follow (descriptor.budget v.toJson) "#/definitions/descriptor" v.toJson := by
    change acceptsWith _ (.all [.anyOf [descriptorRef]]) v.toJson = _
    simp only [acceptsWith, meetsAll, meets, acceptsAny, descriptorRef, Bool.and_true, Bool.or_false]
  rw [hroot, ← wellFormed_toJson_iff]
  refine ⟨wellFormed_of_follow, fun h => follow_of_wellFormed h ?_⟩
  change 3 * v.toJson.depth ≤ (10 + 1) * (v.toJson.depth + 1)
  omega

theorem validate_iff_accepts {v : Value} : descriptor.validate v = .ok () ↔ descriptor.accepts v = true := by
  have hmismatches : ∃ m, descriptor.mismatches v = if descriptor.accepts v then [] else [m] := by
    refine ⟨⟨"", Json.compact v.toJson ++ " is not valid under any of the schemas listed in the 'anyOf' keyword"⟩, ?_⟩
    have hroot : descriptor.accepts v =
        acceptsAny (descriptor.follow (descriptor.budget v.toJson)) [descriptorRef] v.toJson := by
      change acceptsWith _ (.all [.anyOf [descriptorRef]]) v.toJson = _
      rw [acceptsWith, meetsAll, meets, meetsAll, Bool.and_true]
    rw [hroot]
    change mismatchesWith _ _ "" (.all [.anyOf [descriptorRef]]) v.toJson = _
    rw [mismatchesWith, mismatchesOfAll, mismatchesOf, mismatchesOfAll, List.append_nil]
    rfl
  obtain ⟨m, hm⟩ := hmismatches
  rw [validate, hm]
  cases descriptor.accepts v <;> simp

/-- The schema of descriptors finds nothing wrong exactly with what has one of the forms of descriptors. -/
theorem validate_iff {v : Value} : descriptor.validate v = .ok () ↔ WellFormed v :=
  validate_iff_accepts.trans accepts_iff

end SchemaDocument

end TypedTemplate
