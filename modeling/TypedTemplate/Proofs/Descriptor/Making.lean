import TypedTemplate.Proofs.Descriptor.Form
import TypedTemplate.Registry.Reify

/-!
# Making types from forms

What reading the descriptor with a form comes to, in terms of reading the forms inside it.
-/

namespace TypedTemplate

def Making.outcome {α : Type} (m : Making α) (D : Dictionary) : Except Error α × Dictionary := (ExceptT.run m).run D

/-- Run on a dictionary, the computation gives a result and leaves another dictionary. -/
def Making.Runs {α : Type} (m : Making α) (D : Dictionary) (a : α) (D' : Dictionary) : Prop :=
  m.outcome D = (.ok a, D')

namespace Dictionary

def skip (D : Dictionary) : Dictionary := { D with declarations.next := D.declarations.next + 1 }

def enter (D : Dictionary) (name : String) : Dictionary :=
  D.skip.declareStruct name ⟨D.declarations.next, .struct D.declarations.next name⟩

end Dictionary

namespace Making

variable {α β : Type} {D D' : Dictionary} {h : Handle}

theorem runs_pure {a b : α} : Runs (pure a) D b D' ↔ b = a ∧ D' = D := by
  change (Except.ok a, D) = (Except.ok b, D') ↔ _
  simp [eq_comm]

theorem outcome_bind (m : Making α) (k : α → Making β) (D : Dictionary) :
    outcome (m >>= k) D = match m.outcome D with
      | (.ok a, D₁) => (k a).outcome D₁
      | (.error e, D₁) => (.error e, D₁) := by
  change ExceptT.bindCont k (m.outcome D).1 (m.outcome D).2 = _
  rcases m.outcome D with ⟨result, D₁⟩
  cases result <;> rfl

theorem runs_bind {m : Making α} {k : α → Making β} {b : β} :
    Runs (m >>= k) D b D' ↔ ∃ a D₁, Runs m D a D₁ ∧ Runs (k a) D₁ b D' := by
  rw [Runs, outcome_bind]
  simp only [Runs]
  rcases m.outcome D with ⟨result, D₁⟩
  cases result <;> simp

theorem runs_get {x : Dictionary} : Runs get D x D' ↔ x = D ∧ D' = D := by
  change (Except.ok D, D) = (Except.ok x, D') ↔ _
  simp [eq_comm]

theorem runs_modify {f : Dictionary → Dictionary} {u : PUnit} : Runs (modify f) D u D' ↔ D' = f D := by
  change (Except.ok PUnit.unit, f D) = (Except.ok u, D') ↔ _
  simp [eq_comm]

theorem runs_throw {e : Error} {a : α} : ¬ Runs (throw e) D a D' := by
  change ¬ (Except.error e, D) = (Except.ok a, D')
  simp

theorem runs_fresh {t : Ty} : Runs (fresh t) D h D' ↔ h = ⟨D.declarations.next, t⟩ ∧ D' = D.skip := by
  change (Except.ok (Handle.mk D.declarations.next t), D.skip) = (Except.ok h, D') ↔ _
  simp [eq_comm]

theorem runs_freshStruct {name : String} : Runs (freshStruct name) D h D' ↔
    h = ⟨D.declarations.next, .struct D.declarations.next name⟩ ∧ D' = D.skip := by
  change (Except.ok (Handle.mk D.declarations.next (.struct D.declarations.next name)), D.skip) = (Except.ok h, D') ↔ _
  simp [eq_comm]

theorem runs_iff_outcome {m : Making α} : (∃ a D', m.Runs D a D') ↔ ∃ a, (m.outcome D).1 = .ok a := by
  simp only [Runs]
  rcases m.outcome D with ⟨result, D'⟩
  simp

theorem Runs.unique {m : Making α} {a b : α} {D₁ D₂ : Dictionary} (h₁ : m.Runs D a D₁) (h₂ : m.Runs D b D₂) :
    a = b ∧ D₁ = D₂ := by
  rw [Runs] at h₁ h₂
  rw [h₁] at h₂
  simpa using h₂

end Making

namespace Registry

open Making

variable {D D' : Dictionary} {h : Handle} {v : Value} {make : Making Handle}

theorem runs_remembered : Runs (remembered v make) D h D' ↔
    (D.made? v = some h ∧ D' = D) ∨ (D.made? v = none ∧ make.Runs D h D') := by
  simp only [remembered, runs_bind, runs_get]
  constructor
  · rintro ⟨_, _, ⟨rfl, rfl⟩, hrun⟩
    split at hrun
    · rw [runs_pure] at hrun
      exact .inl ⟨by simp [*], hrun.2⟩
    · exact .inr ⟨‹_›, hrun⟩
  · rintro (⟨hmade, rfl⟩ | ⟨hmade, hrun⟩)
    · exact ⟨_, _, ⟨rfl, rfl⟩, by simp [hmade, runs_pure]⟩
    · exact ⟨_, _, ⟨rfl, rfl⟩, by simpa [hmade] using hrun⟩

theorem runs_recorded : Runs (recorded v make) D h D' ↔ ∃ D₁, make.Runs D h D₁ ∧ D' = D₁.record v h := by
  simp only [recorded, runs_bind, runs_modify, runs_pure]
  constructor
  · rintro ⟨_, D₁, hrun, _, _, rfl, rfl, rfl⟩
    exact ⟨D₁, hrun, rfl⟩
  · rintro ⟨D₁, hrun, rfl⟩
    exact ⟨h, D₁, hrun, ⟨⟩, _, rfl, rfl, rfl⟩

theorem runs_declaredStruct {name : String} :
    Runs (declaredStruct name) D h D' ↔ D.structure? name = some h ∧ D' = D := by
  simp only [declaredStruct, runs_bind, runs_get]
  constructor
  · rintro ⟨_, _, ⟨rfl, rfl⟩, hrun⟩
    split at hrun
    · rw [runs_pure] at hrun
      exact ⟨by simp [*], hrun.2⟩
    · exact absurd hrun runs_throw
  · rintro ⟨hdeclared, rfl⟩
    exact ⟨_, _, ⟨rfl, rfl⟩, by simp [hdeclared, runs_pure]⟩

end Registry

/-! ## Reading descriptors with known tags -/

namespace Registry

open Making Descriptor

/-- A descriptor begins with a tag, or there is nothing to be made from it. -/
theorem reify_eq (v : Value) :
    ((∀ tag params, v ≠ .sequence (.string tag :: params)) ∧ builtins.reify v = remembered v (throw (shapeError v))) ∨
    ∃ tag params, v = .sequence (.string tag :: params) ∧
      builtins.reify v = remembered v (builtins.makeTagged v tag (builtins.reifyParams params) params) := by
  match v with
  | .scalar _ | .mapping _ | .sequence [] =>
      rw [reify]
      exact .inl ⟨by simp, rfl⟩
  | .sequence (head :: params) =>
      by_cases hhead : ∃ tag, head = .string tag
      · obtain ⟨tag, rfl⟩ := hhead
        exact .inr ⟨tag, params, rfl, rfl⟩
      · have hne : ∀ tag, head ≠ .string tag := fun tag h => hhead ⟨tag, h⟩
        rw [reify]
        · exact .inl ⟨by simp [hne], rfl⟩
        · exact hne

theorem reify_enum (name members : Value) : builtins.reify (.sequence [.string "Enum", name, members]) =
    remembered (.sequence [.string "Enum", name, members]) (recorded (.sequence [.string "Enum", name, members]) (do
      let values ← (← expectSequence "Enum" members).mapM fun v => liftM (expectName "Enum" v)
      fresh (.enum (← expectName "Enum" name) values))) := by
  cases name with
  | scalar s => cases s <;> rfl
  | sequence | mapping => rfl

theorem expectNames_string (tag : String) (values : List String) :
    ((values.map Value.string).mapM fun v => (liftM (expectName tag v) : Making String)) = pure values := by
  induction values with
  | nil => rfl
  | cons value rest ih =>
      rw [List.map_cons, List.mapM_cons, ih]
      rfl

theorem reify_enum_names (name : String) (members : List String) :
    builtins.reify (.sequence [.string "Enum", .string name, .sequence (members.map Value.string)]) =
      remembered (.sequence [.string "Enum", .string name, .sequence (members.map Value.string)])
        (recorded (.sequence [.string "Enum", .string name, .sequence (members.map Value.string)])
          (fresh (.enum name members))) := by
  have hnames : (do
      let values ← (members.map Value.string).mapM fun v => (liftM (expectName "Enum" v) : Making String)
      fresh (.enum name values)) = fresh (.enum name members) := by
    rw [expectNames_string]
    rfl
  rw [reify_enum]
  exact congrArg (fun make => remembered _ (recorded _ make)) hnames

theorem reify_list (element : Value) : builtins.reify (.sequence [.string "List", element]) =
    remembered (.sequence [.string "List", element]) (recorded (.sequence [.string "List", element]) (do
      fresh (.list (← builtins.reify element).ty))) := by
  cases element with
  | scalar s => cases s <;> rfl
  | sequence | mapping => rfl

theorem reify_map (key value : Value) : builtins.reify (.sequence [.string "Map", key, value]) =
    remembered (.sequence [.string "Map", key, value]) (recorded (.sequence [.string "Map", key, value]) (do
      let key ← builtins.reify key
      let value ← builtins.reify value
      fresh (.map key.ty value.ty))) := by
  cases key with
  | scalar s => cases s <;> rfl
  | sequence | mapping => rfl

theorem reify_choice (name : String) (alternatives : List Value) :
    builtins.reify (.sequence [.string "Choice", .string name, .sequence alternatives]) =
      remembered (.sequence [.string "Choice", .string name, .sequence alternatives])
        (recorded (.sequence [.string "Choice", .string name, .sequence alternatives]) (do
          fresh (.choice name (← builtins.reifyEach alternatives)))) :=
  rfl

theorem reify_struct (name : String) (fields : List Value) :
    builtins.reify (.sequence [.string "Struct", .string name, .sequence fields]) =
      remembered (.sequence [.string "Struct", .string name, .sequence fields])
        (recorded (.sequence [.string "Struct", .string name, .sequence fields]) (do
          let h ← freshStruct name
          modify (·.declareStruct name h)
          let declared ← builtins.reifyFields name fields
          modify (·.finishStruct h declared)
          pure h)) :=
  rfl

theorem reify_mention (name : String) : builtins.reify (.sequence [.string "Struct", .string name]) =
    remembered (.sequence [.string "Struct", .string name]) (declaredStruct name) :=
  rfl

end Registry

/-! ## Reading the descriptor with a form -/

namespace Form

open Making Registry

variable {D D' : Dictionary} {h : Handle}

/-- Reading the descriptor with the form gives a type, and leaves another dictionary. -/
def Makes (f : Form) (D : Dictionary) (h : Handle) (D' : Dictionary) : Prop := (builtins.reify f.toValue).Runs D h D'

/-- The type is remembered for the descriptor with the form, or else it is made and recorded. -/
def Remembers (f : Form) (D : Dictionary) (h : Handle) (D' : Dictionary) (made : Dictionary → Prop) : Prop :=
  (D.made? f.toValue = some h ∧ D' = D) ∨
    (D.made? f.toValue = none ∧ ∃ D₁, made D₁ ∧ D' = D₁.record f.toValue h)

theorem makes_of_reify {f : Form} {make : Making Handle}
    (hf : builtins.reify f.toValue = remembered f.toValue (recorded f.toValue make)) :
    f.Makes D h D' ↔ f.Remembers D h D' fun D₁ => make.Runs D h D₁ := by
  rw [Makes, hf, runs_remembered, runs_recorded, Remembers]

theorem makes_list {f : Form} : (Form.list f).Makes D h D' ↔ (Form.list f).Remembers D h D' fun D₂ =>
    ∃ e D₁, f.Makes D e D₁ ∧ h = ⟨D₁.declarations.next, .list e.ty⟩ ∧ D₂ = D₁.skip := by
  rw [makes_of_reify (f := .list f) (reify_list f.toValue)]
  simp only [runs_bind, runs_fresh, Makes]

theorem makes_map {k v : Form} : (Form.map k v).Makes D h D' ↔ (Form.map k v).Remembers D h D' fun D₃ =>
    ∃ key D₁, k.Makes D key D₁ ∧ ∃ value D₂, v.Makes D₁ value D₂ ∧
      h = ⟨D₂.declarations.next, .map key.ty value.ty⟩ ∧ D₃ = D₂.skip := by
  rw [makes_of_reify (f := .map k v) (reify_map k.toValue v.toValue)]
  simp only [runs_bind, runs_fresh, Makes]

def MakesEach (fs : List Form) (D : Dictionary) (ts : List Ty) (D' : Dictionary) : Prop :=
  (builtins.reifyEach (formValues fs)).Runs D ts D'

theorem makesEach_nil {ts : List Ty} : MakesEach [] D ts D' ↔ ts = [] ∧ D' = D := by
  simp only [MakesEach, formValues, reifyEach, runs_pure]

theorem makesEach_cons {f : Form} {rest : List Form} {ts : List Ty} : MakesEach (f :: rest) D ts D' ↔
    ∃ e D₁, f.Makes D e D₁ ∧ ∃ types, MakesEach rest D₁ types D' ∧ ts = e.ty :: types := by
  simp only [MakesEach, formValues, reifyEach, runs_bind, runs_pure, Makes]
  aesop

theorem makes_choice {name : String} {fs : List Form} :
    (Form.choice name fs).Makes D h D' ↔ (Form.choice name fs).Remembers D h D' fun D₂ =>
      ∃ ts D₁, MakesEach fs D ts D₁ ∧ h = ⟨D₁.declarations.next, .choice name ts⟩ ∧ D₂ = D₁.skip := by
  rw [makes_of_reify (f := .choice name fs) (reify_choice name (formValues fs))]
  simp only [runs_bind, runs_fresh, MakesEach]

def MakesFields (struct : String) (fields : List (String × Bool × Form)) (D : Dictionary)
    (declared : List (String × Field)) (D' : Dictionary) : Prop :=
  (builtins.reifyFields struct (fieldFormValues fields)).Runs D declared D'

theorem makesFields_nil {struct : String} {declared : List (String × Field)} :
    MakesFields struct [] D declared D' ↔ declared = [] ∧ D' = D := by
  simp only [MakesFields, fieldFormValues, reifyFields, runs_pure]

theorem makesFields_cons {struct name : String} {required : Bool} {f : Form} {rest : List (String × Bool × Form)}
    {declared : List (String × Field)} : MakesFields struct ((name, required, f) :: rest) D declared D' ↔
      ∃ e D₁, f.Makes D e D₁ ∧ ∃ fields, MakesFields struct rest D₁ fields D' ∧
        declared = (name, ⟨e.ty, required, none⟩) :: fields := by
  have hreify : builtins.reifyFields struct (fieldFormValues ((name, required, f) :: rest)) = (do
      let e ← builtins.reify f.toValue
      let fields ← builtins.reifyFields struct (fieldFormValues rest)
      pure ((name, ⟨e.ty, required, none⟩) :: fields)) := by
    simp only [fieldFormValues, Value.string, Value.bool, reifyFields]
    rfl
  simp only [MakesFields, hreify, runs_bind, runs_pure, Makes]
  aesop

theorem makes_struct {name : String} {fields : List (String × Bool × Form)} :
    (Form.struct name fields).Makes D h D' ↔ (Form.struct name fields).Remembers D h D' fun D₂ =>
      h = ⟨D.declarations.next, .struct D.declarations.next name⟩ ∧
        ∃ declared D₁, MakesFields name fields (D.enter name) declared D₁ ∧ D₂ = D₁.finishStruct h declared := by
  rw [makes_of_reify (f := .struct name fields) (reify_struct name (fieldFormValues fields))]
  simp only [runs_bind, runs_freshStruct, runs_modify, runs_pure, MakesFields]
  refine iff_of_eq (congrArg _ (funext fun D₂ => propext ?_))
  constructor
  · rintro ⟨_, _, ⟨rfl, rfl⟩, _, _, rfl, declared, D₁, hfields, _, _, rfl, rfl, rfl⟩
    exact ⟨rfl, declared, D₁, hfields, rfl⟩
  · rintro ⟨rfl, declared, D₁, hfields, rfl⟩
    exact ⟨_, _, ⟨rfl, rfl⟩, ⟨⟩, _, rfl, declared, D₁, hfields, ⟨⟩, _, rfl, rfl, rfl⟩

theorem makes_mention {name : String} : (Form.mention name).Makes D h D' ↔
    (D.made? (Ty.shortForm name) = some h ∧ D' = D) ∨
      (D.made? (Ty.shortForm name) = none ∧ D.structure? name = some h ∧ D' = D) := by
  rw [Makes, toValue, Ty.shortForm, reify_mention, runs_remembered, runs_declaredStruct]

theorem makes_leaf {t : Ty} (ht : t.isScalar) : (Form.leaf t ht).Makes D h D' ↔
    (Form.leaf t ht).Remembers D h D' fun D₁ => h = ⟨D.declarations.next, t⟩ ∧ D₁ = D.skip := by
  have hreify : builtins.reify (Form.leaf t ht).toValue = remembered (Form.leaf t ht).toValue
      (recorded (Form.leaf t ht).toValue (fresh t)) := by
    cases t with
    | string | integer | float | boolean => rfl
    | enum name values => exact reify_enum_names name values
    | list _ | map _ _ | struct _ _ | choice _ _ => cases ht
  rw [makes_of_reify hreify]
  simp only [runs_fresh]

end Form

end TypedTemplate
