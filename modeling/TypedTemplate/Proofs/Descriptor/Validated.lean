import Mathlib
import TypedTemplate.Proofs.Descriptor.Making
import TypedTemplate.Proofs.Schema.Descriptor

/-!
# Reading and validating descriptors

The schema of descriptors and the reading of descriptors go by the same grammar. What can be read is accepted by the
schema, and what is accepted can be read, unless it mentions a struct that is not known yet or has a default that is
none of its type.
-/

namespace TypedTemplate

namespace Descriptor

/-! ## Where descriptors stand -/

/-- The second value stands directly inside the first one where a descriptor is expected. -/
inductive Part : Value → Value → Prop
  | element {e} : Part (.sequence [.string "List", e]) e
  | key {k v} : Part (.sequence [.string "Map", k, v]) k
  | value {k v} : Part (.sequence [.string "Map", k, v]) v
  | alternative {name alternatives a} : a ∈ alternatives →
      Part (.sequence [.string "Choice", name, .sequence alternatives]) a
  | field {name fields attr required default empty type} :
      .sequence [attr, .sequence [required, default, empty, type]] ∈ fields →
      Part (.sequence [.string "Struct", name, .sequence fields]) type

theorem sizeOf_lt_of_part {v w : Value} (h : Part v w) : sizeOf w < sizeOf v := by
  cases h with
  | element | key | value => simp only [Value.sequence.sizeOf_spec, List.cons.sizeOf_spec, List.nil.sizeOf_spec]; omega
  | alternative hm =>
      have := List.sizeOf_lt_of_mem hm
      simp only [Value.sequence.sizeOf_spec, List.cons.sizeOf_spec, List.nil.sizeOf_spec]
      omega
  | field hm =>
      have := List.sizeOf_lt_of_mem hm
      simp only [Value.sequence.sizeOf_spec, List.cons.sizeOf_spec, List.nil.sizeOf_spec] at this ⊢
      omega

/-- What holds of a value as soon as it holds of the descriptors inside it holds of all values. -/
@[elab_as_elim]
theorem part_induction {C : Value → Prop} (h : ∀ v, (∀ w, Part v w → C w) → C v) (v : Value) : C v :=
  h v fun w hw =>
    have := sizeOf_lt_of_part hw
    part_induction h w
termination_by sizeOf v

end Descriptor

open Descriptor

/-! ## What can be read is well formed -/

/-- All descriptors that types are remembered for are well formed. -/
def Dictionary.Formed (D : Dictionary) : Prop := ∀ entry ∈ D.memo, WellFormed entry.1

/-- Where it gives a type, the descriptor is well formed, and nothing else is remembered. -/
def Making.Forms (m : Making Handle) (v : Value) : Prop :=
  ∀ ⦃D h D'⦄, D.Formed → m.Runs D h D' → WellFormed v ∧ D'.Formed

namespace Making.Forms

open Registry

variable {m : Making Handle} {v : Value}

theorem throw (e : Error) : Forms (throw e) v := fun _ _ _ _ hrun => absurd hrun runs_throw

theorem remembered (h : Forms m v) : Forms (remembered v m) v := by
  intro D t D' hD hrun
  rcases runs_remembered.mp hrun with ⟨hmade, rfl⟩ | ⟨-, hrun⟩
  · obtain ⟨entry, hfind, -⟩ := Option.map_eq_some_iff.mp hmade
    have hbeq : (entry.1 == v) = true := List.find?_some (p := fun e : Value × Handle => e.1 == v) hfind
    exact ⟨keeps_beq.wellFormed (hD entry (List.mem_of_find?_eq_some hfind)) hbeq, hD⟩
  · exact h hD hrun

theorem recorded (h : Forms m v) : Forms (recorded v m) v := by
  intro D t D' hD hrun
  obtain ⟨D₁, hmade, rfl⟩ := runs_recorded.mp hrun
  obtain ⟨hv, hD₁⟩ := h hD hmade
  refine ⟨hv, fun entry hentry => ?_⟩
  rcases List.mem_cons.mp hentry with rfl | hentry
  · exact hv
  · exact hD₁ entry hentry

end Making.Forms

namespace Registry

open Making

theorem expectName_ok {tag name : String} {v : Value} (h : expectName tag v = .ok name) : v = .string name := by
  unfold expectName at h
  split at h
  · cases h
    rfl
  · cases h

theorem expectSequence_ok {tag : String} {v : Value} {vs : List Value} (h : expectSequence tag v = .ok vs) :
    v = .sequence vs := by
  unfold expectSequence at h
  split at h
  · cases h
    rfl
  · cases h

theorem outcome_liftM {α : Type} (x : Except Error α) (D : Dictionary) :
    outcome (liftM x : Making α) D = (x, D) := by
  cases x <;> rfl

theorem runs_liftM {α : Type} {x : Except Error α} {a : α} {D D' : Dictionary} :
    Runs (liftM x : Making α) D a D' ↔ x = .ok a ∧ D' = D := by
  rw [Runs, outcome_liftM, Prod.mk.injEq, eq_comm (a := D)]

theorem runs_expectNames {tag : String} {vs : List Value} {names : List String} {D D' : Dictionary}
    (h : Runs (vs.mapM fun v => (liftM (expectName tag v) : Making String)) D names D') :
    vs = names.map Value.string ∧ D' = D := by
  induction vs generalizing names D with
  | nil =>
      rw [List.mapM_nil, runs_pure] at h
      obtain ⟨rfl, rfl⟩ := h
      exact ⟨rfl, rfl⟩
  | cons v vs ih =>
      simp only [List.mapM_cons, runs_bind, runs_liftM, runs_pure] at h
      obtain ⟨name, _, ⟨hname, rfl⟩, rest, _, hrest, rfl, rfl⟩ := h
      obtain ⟨rfl, rfl⟩ := ih hrest
      exact ⟨by rw [expectName_ok hname, List.map_cons], rfl⟩

theorem reifyEach_forms {vs : List Value} (h : ∀ v ∈ vs, Forms (builtins.reify v) v) {D D' : Dictionary} {ts : List Ty}
    (hD : D.Formed) (hrun : Runs (builtins.reifyEach vs) D ts D') : (∀ v ∈ vs, WellFormed v) ∧ D'.Formed := by
  induction vs generalizing D ts with
  | nil =>
      rw [reifyEach, runs_pure] at hrun
      exact ⟨by simp, hrun.2 ▸ hD⟩
  | cons v vs ih =>
      simp only [reifyEach, runs_bind, runs_pure] at hrun
      obtain ⟨t, D₁, hv, types, D₂, hvs, -, rfl⟩ := hrun
      obtain ⟨hv, hD₁⟩ := h v (by simp) hD hv
      obtain ⟨hvs, hD₂⟩ := ih (fun v hv => h v (List.mem_cons_of_mem _ hv)) hD₁ hvs
      exact ⟨by simpa [hv] using hvs, hD₂⟩

theorem expectFlags_ok {struct attr : String} {required empty : Value} {r e : Bool}
    (h : expectFlags struct attr required empty = .ok (r, e)) : required = .bool r ∧ empty = .bool e := by
  unfold expectFlags at h
  split at h
  · cases h
    exact ⟨rfl, rfl⟩
  · cases h

theorem runs_makeDefault {attr : String} {t : Ty} {empty : Bool} {v : Value} {o? : Option Object} {D D' : Dictionary}
    (h : Runs (makeDefault attr t empty v) D o? D') : D' = D := by
  unfold makeDefault at h
  split at h
  · exact (runs_pure.mp h).2
  · simp only [runs_bind, runs_get, runs_pure, runs_liftM] at h
    obtain ⟨_, _, ⟨rfl, rfl⟩, _, _, ⟨-, rfl⟩, -, rfl⟩ := h
    rfl

theorem reifyFields_forms {struct : String} {vs : List Value}
    (h : ∀ attr required default empty type, .sequence [attr, .sequence [required, default, empty, type]] ∈ vs →
      Forms (builtins.reify type) type) {D D' : Dictionary} {fields : List (String × Field)}
    (hD : D.Formed) (hrun : Runs (builtins.reifyFields struct vs) D fields D') :
    (∃ fs : List FieldForm, vs = fs.map FieldForm.toValue ∧ ∀ f ∈ fs, WellFormed f.type) ∧ D'.Formed := by
  induction vs generalizing D fields with
  | nil =>
      rw [reifyFields, runs_pure] at hrun
      exact ⟨⟨[], rfl, by simp⟩, hrun.2 ▸ hD⟩
  | cons v vs ih =>
      rw [reifyFields.eq_def] at hrun
      split at hrun
      · cases ‹_ = []›
      · rename_i attr required default empty type rest heq
        cases heq
        simp only [runs_bind, runs_liftM, runs_pure] at hrun
        obtain ⟨name, _, ⟨hname, rfl⟩, ⟨r, e⟩, _, ⟨hflags, rfl⟩, t, D₁, hmade, o?, D₂, hdefault, fields, D₃, hrest, -,
          rfl⟩ := hrun
        cases expectName_ok hname
        obtain ⟨rfl, rfl⟩ := expectFlags_ok hflags
        obtain ⟨htype, hD₁⟩ := h _ _ _ _ _ (List.mem_cons_self ..) hD hmade
        obtain rfl := runs_makeDefault hdefault
        obtain ⟨⟨fs, rfl, hfs⟩, hD₃⟩ := ih (fun _ _ _ _ _ hm => h _ _ _ _ _ (List.mem_cons_of_mem _ hm)) hD₁ hrest
        exact ⟨⟨⟨name, r, default, e, type⟩ :: fs, rfl, List.forall_mem_cons.mpr ⟨htype, hfs⟩⟩, hD₃⟩
      · exact absurd hrun runs_throw

theorem shortForm?_eq_some {tag name : String} {params : List Value} (h : shortForm? tag params = some name) :
    tag = "Struct" ∧ params = [.string name] := by
  unfold shortForm? at h
  split at h
  · split at h
    · cases h
      exact ⟨‹_›, rfl⟩
    · cases h
  · cases h

theorem list_forms {element : Value} (h : Forms (builtins.reify element) element) :
    Forms (do fresh (.list (← builtins.reify element).ty)) (.sequence [.string "List", element]) := by
  intro D t D' hD hrun
  simp only [runs_bind, runs_fresh] at hrun
  obtain ⟨e, D₁, hmade, -, rfl⟩ := hrun
  obtain ⟨helement, hD₁⟩ := h hD hmade
  exact ⟨.list helement, hD₁⟩

theorem map_forms {key value : Value} (hk : Forms (builtins.reify key) key) (hv : Forms (builtins.reify value) value) :
    Forms (do
      let key ← builtins.reify key
      let value ← builtins.reify value
      fresh (.map key.ty value.ty)) (.sequence [.string "Map", key, value]) := by
  intro D t D' hD hrun
  simp only [runs_bind, runs_fresh] at hrun
  obtain ⟨k, D₁, hmade, v, D₂, hmade', -, rfl⟩ := hrun
  obtain ⟨hkey, hD₁⟩ := hk hD hmade
  obtain ⟨hvalue, hD₂⟩ := hv hD₁ hmade'
  exact ⟨.map hkey hvalue, hD₂⟩

theorem enum_forms {name members : Value} :
    Forms (do
      let values ← (← expectSequence "Enum" members).mapM fun v => liftM (expectName "Enum" v)
      fresh (.enum (← expectName "Enum" name) values)) (.sequence [.string "Enum", name, members]) := by
  intro D t D' hD hrun
  simp only [runs_bind, runs_fresh, runs_liftM] at hrun
  obtain ⟨vs, _, ⟨hsequence, rfl⟩, values, D₁, hvalues, _, _, ⟨hname, rfl⟩, -, rfl⟩ := hrun
  obtain ⟨rfl, rfl⟩ := runs_expectNames hvalues
  obtain rfl := expectName_ok hname
  obtain rfl := expectSequence_ok hsequence
  exact ⟨.enum, hD⟩

theorem choice_forms {name : Value} {alternatives : List Value}
    (h : ∀ a ∈ alternatives, Forms (builtins.reify a) a) :
    Forms (do
      let types ← builtins.reifyEach alternatives
      fresh (.choice (← expectName "Choice" name) types))
      (.sequence [.string "Choice", name, .sequence alternatives]) := by
  intro D t D' hD hrun
  simp only [runs_bind, runs_fresh, runs_liftM] at hrun
  obtain ⟨types, D₁, htypes, _, _, ⟨hname, rfl⟩, -, rfl⟩ := hrun
  obtain rfl := expectName_ok hname
  obtain ⟨halternatives, hD₁⟩ := reifyEach_forms h hD htypes
  exact ⟨.choice halternatives, hD₁⟩

theorem struct_forms {name : Value} {fields : Value}
    (h : ∀ vs, fields = .sequence vs → ∀ attr required default empty type,
      .sequence [attr, .sequence [required, default, empty, type]] ∈ vs → Forms (builtins.reify type) type) :
    Forms (do
      let name ← expectName "Struct" name
      let h ← freshStruct name
      modify (·.declareStruct name h)
      match fields with
      | .sequence fields =>
        let declared ← builtins.reifyFields name fields
        modify (·.finishStruct h declared)
        return h
      | v => throw (sequenceError "Struct" v)) (.sequence [.string "Struct", name, fields]) := by
  intro D t D' hD hrun
  simp only [runs_bind, runs_freshStruct, runs_liftM, runs_modify] at hrun
  obtain ⟨_, _, ⟨hname, rfl⟩, _, _, ⟨rfl, rfl⟩, _, _, rfl, hrun⟩ := hrun
  obtain rfl := expectName_ok hname
  split at hrun
  · rename_i vs
    simp only [runs_bind, runs_modify, runs_pure] at hrun
    obtain ⟨declared, D₁, hdeclared, _, _, rfl, -, rfl⟩ := hrun
    obtain ⟨⟨fs, rfl, hfs⟩, hD₁⟩ := reifyFields_forms (h vs rfl) (by exact hD) hdeclared
    exact ⟨.struct hfs, hD₁⟩
  · exact absurd hrun runs_throw

theorem makeTagged_forms {tag : String} {params : List Value}
    (ih : ∀ w, Part (.sequence (.string tag :: params)) w → Forms (builtins.reify w) w) :
    Forms (builtins.makeTagged (.sequence (.string tag :: params)) tag (builtins.reifyParams params) params)
      (.sequence (.string tag :: params)) := by
  rw [makeTagged.eq_def]
  split
  · rename_i name hshort
    obtain ⟨rfl, rfl⟩ := shortForm?_eq_some hshort
    exact fun D h D' hD hrun => ⟨.mention, (runs_declaredStruct.mp hrun).2 ▸ hD⟩
  · split
    · exact .throw _
    · rename_i f hf
      refine .recorded ?_
      have hbuiltin : (tag, f) ∈ builtins.factories := Entries.mem_of_find? hf
      -- A factory makes a type from the right number of parameters alone.
      split
      case h_1 t =>
          have htag : tag ∈ scalarTags := by
            simp [builtins] at hbuiltin
            rcases hbuiltin with ⟨rfl, -⟩ | ⟨rfl, -⟩ | ⟨rfl, -⟩ | ⟨rfl, -⟩ <;> decide
          exact fun D h D' hD hrun => ⟨.scalar htag, (runs_fresh.mp hrun).2 ▸ hD⟩
      case h_3 name members =>
          obtain rfl : tag = "Enum" := by simpa [builtins] using hbuiltin
          exact enum_forms
      case h_5 element =>
          obtain rfl : tag = "List" := by simpa [builtins] using hbuiltin
          exact list_forms (ih _ .element)
      case h_7 key value =>
          obtain rfl : tag = "Map" := by simpa [builtins] using hbuiltin
          exact map_forms (ih _ .key) (ih _ .value)
      case h_9 name fields =>
          obtain rfl : tag = "Struct" := by simpa [builtins] using hbuiltin
          refine struct_forms ?_
          rintro vs rfl attr required default empty type hm
          exact ih _ (.field hm)
      case h_11 name alternatives =>
          obtain rfl : tag = "Choice" := by simpa [builtins] using hbuiltin
          split
          · exact choice_forms fun a ha => ih a (.alternative ha)
          · exact .throw _
      case h_13 => simp [builtins] at hbuiltin
      all_goals exact .throw _

/-- A value that a type is read from is well formed. -/
theorem reify_forms (v : Value) : Forms (builtins.reify v) v := by
  induction v using part_induction with
  | h v ih =>
      rcases reify_eq v with ⟨-, hread⟩ | ⟨tag, params, rfl, hread⟩
      · exact hread ▸ .remembered (.throw _)
      · exact hread ▸ .remembered (makeTagged_forms ih)

end Registry

/-! ## What is well formed can be read -/

namespace Descriptor

/-- The second value stands inside the first one where a descriptor is expected. -/
abbrev Inside : Value → Value → Prop := Relation.ReflTransGen Part

/-- All descriptors inside start with tags of the types that there always are. -/
def BuiltinTags (d : Value) : Prop :=
  ∀ tag params, Inside d (.sequence (.string tag :: params)) → tag ∈ SchemaDocument.builtinTags

/-- The field is one of a struct inside. -/
def HasField (d : Value) (f : FieldForm) : Prop :=
  ∃ name fields, Inside d (.sequence [.string "Struct", .string name, .sequence fields]) ∧ f.toValue ∈ fields

/-- What reading a well-formed descriptor can come to: a result, or the error of a mention of a struct that has not been
declared, or the one of a default that cannot be constructed. -/
inductive Excused (d : Value) {α : Type} : Except Error α × Dictionary → Prop
  | made {a D} : Excused d (.ok a, D)
  | undeclared {name D} : Inside d (.sequence [.string "Struct", .string name]) → D.structure? name = none →
      Excused d (.error (Error.invalidDescriptor s!"Struct {name} is referenced before it is defined"), D)
  | default {f h D₀ D e} : HasField d f → f.empty = false → (Registry.builtins.reify f.type).Runs D₀ h D →
      h.ty.construct D.declarations f.default.toInput = .error e → Excused d (.error (e.withPath f.name), D)

theorem BuiltinTags.part {d e : Value} (h : BuiltinTags d) (hpart : Part d e) : BuiltinTags e :=
  fun tag params hinside => h tag params (.head hpart hinside)

theorem Excused.part {d e : Value} (hpart : Part d e) {α : Type} {result : Except Error α × Dictionary}
    (h : Excused e result) : Excused d result := by
  cases h with
  | made => exact .made
  | undeclared hinside hnone => exact .undeclared (.head hpart hinside) hnone
  | default hfield hempty hmade herror =>
      obtain ⟨name, fields, hinside, hm⟩ := hfield
      exact .default ⟨name, fields, .head hpart hinside, hm⟩ hempty hmade herror

end Descriptor

namespace Registry

open Making

variable {d : Value} {D : Dictionary}

theorem excused_bind {α β : Type} {m : Making α} {k : α → Making β} (hm : Excused d (m.outcome D))
    (hk : ∀ a D₁, m.Runs D a D₁ → Excused d ((k a).outcome D₁)) : Excused d ((m >>= k).outcome D) := by
  rw [outcome_bind]
  split
  · rename_i a D₁ heq
    exact hk a D₁ heq
  · rename_i e D₁ heq
    rw [heq] at hm
    cases hm with
    | undeclared hinside hnone => exact .undeclared hinside hnone
    | default hfield hempty hmade herror => exact .default hfield hempty hmade herror

theorem excused_remembered {v : Value} {m : Making Handle} (hm : Excused d (m.outcome D)) :
    Excused d ((remembered v m).outcome D) := by
  refine excused_bind .made fun x D₁ hget => ?_
  obtain ⟨rfl, rfl⟩ := runs_get.mp hget
  split
  · exact .made
  · exact hm

theorem excused_recorded {v : Value} {m : Making Handle} (hm : Excused d (m.outcome D)) :
    Excused d ((recorded v m).outcome D) :=
  excused_bind hm fun _ _ _ => .made

theorem excused_declaredStruct {name : String} (hinside : Inside d (.sequence [.string "Struct", .string name])) :
    Excused d ((declaredStruct name).outcome D) := by
  refine excused_bind .made fun x D₁ hget => ?_
  obtain ⟨rfl, rfl⟩ := runs_get.mp hget
  split
  · exact .made
  · exact .undeclared hinside ‹_›

theorem excused_makeDefault {f : FieldForm} {h : Handle} {D₀ : Dictionary} (hfield : HasField d f)
    (hmade : (builtins.reify f.type).Runs D₀ h D) :
    Excused d ((makeDefault f.name h.ty f.empty f.default).outcome D) := by
  cases hempty : f.empty with
  | true => exact .made
  | false =>
      refine excused_bind .made fun x D₁ hget => ?_
      obtain ⟨rfl, rfl⟩ := runs_get.mp hget
      refine excused_bind ?_ fun _ _ _ => .made
      rw [outcome_liftM]
      cases hconstruct : h.ty.construct D₁.declarations f.default.toInput with
      | ok o => exact .made
      | error e => exact .default hfield hempty hmade hconstruct

theorem excused_reifyEach {vs : List Value} (h : ∀ v ∈ vs, ∀ D, Excused d ((builtins.reify v).outcome D)) :
    Excused d ((builtins.reifyEach vs).outcome D) := by
  induction vs generalizing D with
  | nil => exact .made
  | cons v vs ih =>
      refine excused_bind (h v (by simp) D) fun _ D₁ _ => ?_
      exact excused_bind (ih fun v hv => h v (List.mem_cons_of_mem _ hv)) fun _ _ _ => .made

theorem excused_reifyFields {struct : String} {fs : List FieldForm}
    (h : ∀ f ∈ fs, HasField d f ∧ ∀ D, Excused d ((builtins.reify f.type).outcome D)) :
    Excused d ((builtins.reifyFields struct (fs.map FieldForm.toValue)).outcome D) := by
  induction fs generalizing D with
  | nil => exact .made
  | cons f fs ih =>
      obtain ⟨hfield, htype⟩ := h f (by simp)
      refine excused_bind (m := builtins.reify f.type) (htype D) fun t D₁ hmade => ?_
      refine excused_bind (excused_makeDefault hfield hmade) fun _ D₂ _ => ?_
      exact excused_bind (ih fun f hf => h f (List.mem_cons_of_mem _ hf)) fun _ _ _ => .made

/-- A well-formed descriptor with known tags can be read, up to mentions of unknown structs and wrong defaults. -/
theorem reify_excused (hd : WellFormed d) (htags : BuiltinTags d) (D : Dictionary) :
    Excused d ((builtins.reify d).outcome D) := by
  induction hd generalizing D with
  | @scalar tag htag =>
      simp only [scalarTags, List.mem_cons, List.not_mem_nil, or_false] at htag
      rcases htag with rfl | rfl | rfl | rfl <;> exact excused_remembered (excused_recorded .made)
  | enum =>
      rw [reify_enum_names]
      exact excused_remembered (excused_recorded .made)
  | @list element _ ih =>
      rw [reify_list]
      refine excused_remembered (excused_recorded (excused_bind ?_ fun _ _ _ => .made))
      exact (ih (htags.part .element) D).part .element
  | @map key value _ _ ihk ihv =>
      rw [reify_map]
      refine excused_remembered (excused_recorded (excused_bind ?_ fun _ D₁ _ => excused_bind ?_ fun _ _ _ => .made))
      · exact (ihk (htags.part .key) D).part .key
      · exact (ihv (htags.part .value) D₁).part .value
  | mention =>
      rw [reify_mention]
      exact excused_remembered (excused_declaredStruct .refl)
  | @struct name fields _ ih =>
      rw [reify_struct]
      refine excused_remembered (excused_recorded ?_)
      refine excused_bind .made fun h D₁ _ => excused_bind .made fun _ D₂ _ => excused_bind ?_ fun _ D₃ _ => .made
      refine excused_reifyFields fun f hf => ?_
      have hm : f.toValue ∈ fields.map FieldForm.toValue := List.mem_map_of_mem hf
      exact ⟨⟨name, _, .refl, hm⟩, fun D => (ih f hf (htags.part (.field hm)) D).part (.field hm)⟩
  | @choice name alternatives _ ih =>
      rw [reify_choice]
      refine excused_remembered (excused_recorded (excused_bind ?_ fun _ _ _ => .made))
      exact excused_reifyEach fun a ha D => (ih a ha (htags.part (.alternative ha)) D).part (.alternative ha)
  | extension htag => exact absurd (htags _ _ .refl) htag

/-- The schema of descriptors accepts what can be read. What it accepts can be read if all tags are known, unless it
mentions a struct that is not known yet or has a default that cannot be constructed. -/
theorem validate_reify_agree (d : Value) :
    (∀ D h D', D.memo = [] → (builtins.reify d).Runs D h D' → SchemaDocument.descriptor.validate d = .ok ()) ∧
    (SchemaDocument.descriptor.validate d = .ok () → BuiltinTags d →
      ∀ D, Excused d ((builtins.reify d).outcome D)) := by
  rw [SchemaDocument.validate_iff]
  refine ⟨fun D h D' hD hrun => ?_, reify_excused⟩
  have hformed : D.Formed := by
    rw [Dictionary.Formed, hD]
    simp
  exact (reify_forms d hformed hrun).1

def mentions : Value := .sequence [.string "List", .sequence [.string "Struct", .string "A"]]

theorem inside_mentions {v : Value} (h : Inside mentions v) :
    v = mentions ∨ v = .sequence [.string "Struct", .string "A"] := by
  induction h with
  | refl => exact .inl rfl
  | @tail v w _ hpart ih =>
      cases hpart with
      | element => exact .inr (by simpa [mentions, Value.string] using ih)
      | key | value | alternative | field => simp_all [mentions, Value.string]

theorem validate_reify_mentions : (∃ h D', (builtins.reify (.sequence [.string "Integer"])).Runs {} h D' ∧
      SchemaDocument.descriptor.validate (.sequence [.string "Integer"]) = .ok ()) ∧
    SchemaDocument.descriptor.validate mentions = .ok () ∧ BuiltinTags mentions ∧
      Excused mentions ((builtins.reify mentions).outcome {}) := by
  have hvalid : SchemaDocument.descriptor.validate mentions = .ok () := by cbv
  have htags : BuiltinTags mentions := by
    intro tag params hinside
    rcases inside_mentions hinside with h | h <;> cases h <;> decide
  obtain ⟨h, D', hrun⟩ : ∃ h D', (builtins.reify (.sequence [.string "Integer"])).Runs {} h D' := ⟨_, _, by cbv⟩
  exact ⟨⟨h, D', hrun, (validate_reify_agree _).1 _ _ _ rfl hrun⟩, hvalid, htags,
    (validate_reify_agree mentions).2 hvalid htags {}⟩

end Registry

end TypedTemplate
