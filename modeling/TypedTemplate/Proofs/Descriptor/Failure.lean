import TypedTemplate.Proofs.Descriptor.Validated
import TypedTemplate.Proofs.Descriptor.Growth

/-!
# What failed readings leave behind

The reading of a struct begins with its declaration, and nothing takes a declaration back. After a reading that failed,
every name stands for the last struct of that name that was begun, and the structs whose fields were not all read
stay without fields.
-/

namespace TypedTemplate

open Descriptor

/-! ## The structs that are begun -/

/-- A struct whose reading has begun. -/
structure Begun where
  name : String
  id : StructId
  /-- All its fields have been read. -/
  complete : Bool

namespace Begun

def handle (b : Begun) : Handle := ⟨b.id, .struct b.id b.name⟩

def entry (b : Begun) : String × Handle := (b.name, b.handle)

end Begun

/-- What is begun after a computation, which has to have a result. -/
def Making.after {α : Type} (m : Making α) (D : Dictionary) (next : α → Dictionary → List Begun) : List Begun :=
  match m.outcome D with
  | (.ok a, D₁) => next a D₁
  | (.error _, _) => []

namespace Registry

mutual

/-- The structs whose reading begins while a descriptor is read, in that order. -/
def begun : Value → Dictionary → List Begun
  | .sequence (.scalar (.string tag) :: params), D =>
    if (D.made? (.sequence (.scalar (.string tag) :: params))).isSome then [] else begunTagged tag params D
  | _, _ => []
termination_by structural x => x

def begunTagged (tag : String) (params : List Value) (D : Dictionary) : List Begun :=
  match builtins.find? tag with
  | some .list =>
    match params with
    | [element] => begun element D
    | _ => []
  | some .map =>
    match params with
    | [key, value] => begun key D ++ (builtins.reify key).after D fun _ => begun value
    | _ => []
  | some .struct =>
    match params with
    | [name, fields] =>
      match expectName "Struct" name with
      | .error _ => []
      | .ok name =>
        match fields with
        | .sequence fields =>
          let complete := ((builtins.reifyFields name fields).outcome (D.enter name)).1.isOk
          ⟨name, D.declarations.next, complete⟩ :: begunFields name fields (D.enter name)
        | _ => [⟨name, D.declarations.next, false⟩]
    | _ => []
  | some .choice =>
    match params with
    | [_, alternatives] =>
      match alternatives with
      | .sequence alternatives => begunEach alternatives D
      | _ => []
    | _ => []
  | _ => []
termination_by structural params

def begunEach : List Value → Dictionary → List Begun
  | [], _ => []
  | v :: rest, D => begun v D ++ (builtins.reify v).after D fun _ => begunEach rest
termination_by structural x => x

def begunFields (struct : String) : List Value → Dictionary → List Begun
  | .sequence [attr, .sequence [required, default, empty, type]] :: rest, D =>
    match expectName "Struct field" attr with
    | .error _ => []
    | .ok attr =>
      match expectFlags struct attr required empty with
      | .error _ => []
      | .ok (_, empty) => begun type D ++ (builtins.reify type).after D fun h D₁ =>
        (makeDefault attr h.ty empty default).after D₁ fun _ => begunFields struct rest
  | _, _ => []
termination_by structural x => x

end

end Registry

/-! ## What readings do to a dictionary -/

namespace Dictionary

variable {D D' D₁ : Dictionary} {bs cs : List Begun}

/-- No descriptor that mentions a struct by its name alone is remembered. -/
def Spelled (D : Dictionary) : Prop := ∀ name, D.made? (Ty.shortForm name) = none

/-- The dictionary has grown while the structs were begun, and is what that makes of it. -/
structure Traced (D : Dictionary) (bs : List Begun) (D' : Dictionary) : Prop where
  grows : D.Grows D'
  structs : D'.structs = Entries.insertAll D.structs (bs.map Begun.entry)
  fresh : ∀ b ∈ bs, D.declarations.next ≤ b.id ∧ b.id < D'.declarations.next
  finished : D.declarations.Bounded → ∀ b ∈ bs, D'.declarations.Finished b.id ↔ b.complete
  spelled : D.Spelled → D'.Spelled

theorem Traced.refl (D : Dictionary) : D.Traced [] D :=
  ⟨.refl D, rfl, by simp, by simp, id⟩

theorem Traced.append (h : D.Traced bs D₁) (h' : D₁.Traced cs D') : D.Traced (bs ++ cs) D' where
  grows := h.grows.trans h'.grows
  structs := by rw [h'.structs, h.structs, List.map_append, Entries.insertAll, Entries.insertAll, Entries.insertAll,
    List.foldl_append]
  fresh := by
    intro b hb
    rcases List.mem_append.mp hb with hb | hb
    · exact ⟨(h.fresh b hb).1, Nat.lt_of_lt_of_le (h.fresh b hb).2 h'.grows.next⟩
    · exact ⟨Nat.le_trans h.grows.next (h'.fresh b hb).1, (h'.fresh b hb).2⟩
  finished := by
    intro hD b hb
    rcases List.mem_append.mp hb with hb | hb
    · rw [h'.grows.finished_iff (h.fresh b hb).2]
      exact h.finished hD b hb
    · exact h'.finished (h.grows.bounded hD) b hb
  spelled := h'.spelled ∘ h.spelled

theorem traced_skip (D : Dictionary) : D.Traced [] D.skip :=
  ⟨grows_skip D, rfl, by simp, by simp, id⟩

theorem traced_record {v : Value} (hv : ∀ name, (v == Ty.shortForm name) = false) (D : Dictionary) (h : Handle) :
    D.Traced [] (D.record v h) where
  grows := grows_record D v h
  structs := rfl
  fresh := by simp
  finished := by simp
  spelled := by
    intro hD name
    rw [made?, record, List.find?_cons, hv name]
    exact hD name

/-- The struct is declared from when it is begun, and has no fields before they have all been read. -/
theorem Traced.begin {name : String} (h : (D.enter name).Traced cs D₁) :
    D.Traced (⟨name, D.declarations.next, false⟩ :: cs) D₁ where
  grows := (grows_enter D name).trans h.grows
  structs := h.structs
  fresh := by
    refine List.forall_mem_cons.mpr ⟨⟨Nat.le_refl _, h.grows.next⟩, fun b hb => ?_⟩
    exact ⟨Nat.le_of_succ_le (h.fresh b hb).1, (h.fresh b hb).2⟩
  finished := by
    intro hD
    refine List.forall_mem_cons.mpr ⟨?_, h.finished ((grows_enter D name).bounded hD)⟩
    have hnew : ¬ (D.enter name).declarations.Finished D.declarations.next := fun hid => Nat.lt_irrefl _ (hD _ hid)
    simpa [h.grows.finished_iff (Nat.lt_succ_self _)] using hnew
  spelled := h.spelled

theorem Traced.finish {name : String} (h : (D.enter name).Traced cs D₁) (declared : List (String × Field)) :
    D.Traced (⟨name, D.declarations.next, true⟩ :: cs)
      (D₁.finishStruct ⟨D.declarations.next, .struct D.declarations.next name⟩ declared) where
  grows := h.grows.finishStruct declared
  structs := h.structs
  fresh := by
    rw [next_finishStruct]
    exact List.forall_mem_cons.mpr (List.forall_mem_cons.mp h.begin.fresh)
  finished := by
    intro hD
    refine List.forall_mem_cons.mpr ⟨iff_of_true (Declarations.finished_of_finish _ _ _) rfl, fun b hb => ?_⟩
    rw [← h.finished ((grows_enter D name).bounded hD) b hb]
    refine ⟨fun hid => ?_, (Declarations.extends_finish _ _ _).finished⟩
    exact (Declarations.finished_finish hid).resolve_right (Nat.ne_of_gt (h.fresh b hb).1)
  spelled := h.spelled

end Dictionary

namespace Making

open Dictionary

variable {α β : Type} {m : Making α} {k : α → Making β} {D : Dictionary} {bs : List Begun}

/-- Run on the dictionary, the computation begins the structs, whether it has a result or not. -/
def Traces (m : Making α) (D : Dictionary) (bs : List Begun) : Prop := D.Traced bs (m.outcome D).2

theorem Traces.bind {cs : α → Dictionary → List Begun} (hm : m.Traces D bs)
    (hk : ∀ a D₁, m.Runs D a D₁ → (k a).Traces D₁ (cs a D₁)) : (m >>= k).Traces D (bs ++ m.after D cs) := by
  rw [Traces] at hm ⊢
  rw [outcome_bind, after]
  rcases hrun : m.outcome D with ⟨error | a, D₁⟩
  · rw [hrun] at hm
    exact hm.append (.refl D₁)
  · rw [hrun] at hm
    exact hm.append (hk a D₁ hrun)

/-- What follows begins no struct. -/
theorem Traces.andThen (hm : m.Traces D bs) (hk : ∀ a D₁, m.Runs D a D₁ → (k a).Traces D₁ []) :
    (m >>= k).Traces D bs := by
  have hafter : m.after D (fun _ _ => []) = [] := by
    rw [after]
    split <;> rfl
  have hbind := hm.bind hk
  rwa [hafter, List.append_nil] at hbind

/-- What goes before begins no struct and leaves the dictionary as it is. -/
theorem traces_liftM_bind {x : Except Error α} (hk : ∀ a, x = .ok a → (k a).Traces D bs)
    (herror : ∀ e, x = .error e → bs = []) : ((liftM x : Making α) >>= k).Traces D bs := by
  rw [Traces, outcome_bind, Registry.outcome_liftM]
  cases x with
  | ok a => exact hk a rfl
  | error e =>
      rw [herror e rfl]
      exact .refl D

theorem traces_pure (a : α) : (pure a : Making α).Traces D [] := .refl D

theorem traces_throw (e : Error) : (throw e : Making α).Traces D [] := .refl D

theorem traces_modify {f : Dictionary → Dictionary} (h : D.Traced [] (f D)) : (modify f : Making PUnit).Traces D [] := h

theorem traces_fresh (t : Ty) : (fresh t).Traces D [] := traced_skip D

end Making

namespace Registry

open Making Dictionary

variable {D : Dictionary} {bs : List Begun} {m : Making Handle} {v : Value}

theorem remembered_traces (h : m.Traces D bs) :
    (remembered v m).Traces D (if (D.made? v).isSome then [] else bs) := by
  have hget : (get : Making Dictionary).outcome D = (.ok D, D) := rfl
  rw [Traces, remembered, outcome_bind, hget]
  cases hmade : D.made? v with
  | some t =>
      simp only [hmade]
      exact .refl D
  | none =>
      simp only [hmade]
      exact h

theorem recorded_traces (hv : ∀ name, (v == Ty.shortForm name) = false) (h : m.Traces D bs) :
    (recorded v m).Traces D bs :=
  h.andThen fun t D₁ _ => (traces_modify (traced_record hv D₁ t)).andThen fun _ _ _ => traces_pure t

theorem declaredStruct_traces (name : String) : (declaredStruct name).Traces D [] := by
  refine Traces.andThen (.refl D) fun d D₁ _ => ?_
  split
  · exact traces_pure _
  · exact traces_throw _

theorem makeDefault_traces (attr : String) (t : Ty) (empty : Bool) (v : Value) :
    (makeDefault attr t empty v).Traces D [] := by
  unfold makeDefault
  split
  · exact traces_pure _
  · exact Traces.andThen (.refl D) fun d D₁ _ => traces_liftM_bind (fun _ _ => traces_pure _) fun _ _ => rfl

theorem reifyEach_traces {vs : List Value} (h : ∀ v ∈ vs, ∀ D, (builtins.reify v).Traces D (begun v D)) :
    (builtins.reifyEach vs).Traces D (begunEach vs D) := by
  induction vs generalizing D with
  | nil =>
      rw [reifyEach, begunEach]
      exact traces_pure _
  | cons v vs ih =>
      rw [reifyEach, begunEach]
      refine (h v (by simp) D).bind fun t D₁ _ => ?_
      exact (ih fun v hv => h v (List.mem_cons_of_mem _ hv)).andThen fun _ _ _ => traces_pure _

theorem reifyFields_traces {struct : String} {vs : List Value}
    (h : ∀ attr required default empty type, .sequence [attr, .sequence [required, default, empty, type]] ∈ vs →
      ∀ D, (builtins.reify type).Traces D (begun type D)) :
    (builtins.reifyFields struct vs).Traces D (begunFields struct vs D) := by
  induction vs generalizing D with
  | nil =>
      rw [reifyFields, begunFields]
      · exact traces_pure _
      · simp
  | cons v vs ih =>
      rw [reifyFields.eq_def]
      split
      · cases ‹_ = []›
      · rename_i attr required default empty type rest heq
        cases heq
        rw [begunFields]
        refine traces_liftM_bind (fun name hname => ?_) fun e he => by rw [he]
        simp only [hname]
        refine traces_liftM_bind (fun flags hflags => ?_) fun e he => by rw [he]
        simp only [hflags]
        refine (h _ _ _ _ _ (List.mem_cons_self ..) D).bind fun t D₁ _ => ?_
        refine Traces.bind (makeDefault_traces _ _ _ _) fun o? D₂ _ => ?_
        exact (ih fun _ _ _ _ _ hm => h _ _ _ _ _ (List.mem_cons_of_mem _ hm)).andThen fun _ _ _ => traces_pure _
      · rename_i hne heq
        cases heq
        rw [begunFields]
        · exact traces_throw _
        · intro _ _ _ _ _ _ heq
          exact hne _ _ _ _ _ (List.cons.inj heq).1

theorem expectNames_traces (tag : String) (vs : List Value) :
    (vs.mapM fun v => (liftM (expectName tag v) : Making String)).Traces D [] := by
  induction vs with
  | nil => exact traces_pure _
  | cons v vs ih =>
      rw [List.mapM_cons]
      exact traces_liftM_bind (fun _ _ => ih.andThen fun _ _ _ => traces_pure _) fun _ _ => rfl

theorem enum_traces {name members : Value} :
    Traces (do
      let values ← (← expectSequence "Enum" members).mapM fun v => liftM (expectName "Enum" v)
      fresh (.enum (← expectName "Enum" name) values)) D [] := by
  refine traces_liftM_bind (fun vs _ => ?_) fun _ _ => rfl
  refine (expectNames_traces "Enum" vs).andThen fun values D₁ _ => ?_
  exact traces_liftM_bind (fun _ _ => traces_fresh _) fun _ _ => rfl

theorem struct_traces {name : String} {fields : List Value}
    (h : ∀ attr required default empty type, .sequence [attr, .sequence [required, default, empty, type]] ∈ fields →
      ∀ D, (builtins.reify type).Traces D (begun type D)) :
    Traces (do
      let h ← freshStruct name
      modify (·.declareStruct name h)
      let declared ← builtins.reifyFields name fields
      modify (·.finishStruct h declared)
      return h) D
      (⟨name, D.declarations.next, ((builtins.reifyFields name fields).outcome (D.enter name)).1.isOk⟩ ::
        begunFields name fields (D.enter name)) := by
  have hfields : (builtins.reifyFields name fields).Traces (D.enter name) (begunFields name fields (D.enter name)) :=
    reifyFields_traces h
  -- What comes before the fields only enters the struct.
  have hrun : outcome (do
      let h ← freshStruct name
      modify (·.declareStruct name h)
      let declared ← builtins.reifyFields name fields
      modify (·.finishStruct h declared)
      return h) D = outcome (do
        let declared ← builtins.reifyFields name fields
        modify (·.finishStruct ⟨D.declarations.next, .struct D.declarations.next name⟩ declared)
        return ⟨D.declarations.next, .struct D.declarations.next name⟩) (D.enter name) := rfl
  rw [Traces] at hfields ⊢
  rw [hrun, outcome_bind]
  revert hfields
  rcases (builtins.reifyFields name fields).outcome (D.enter name) with ⟨error | declared, D₁⟩
  · exact Traced.begin
  · exact fun hfields => hfields.finish declared

theorem beq_shortForm {tag : String} {params : List Value} (h : shortForm? tag params = none) (name : String) :
    (Value.sequence (.string tag :: params) == Ty.shortForm name) = false := by
  rw [Bool.eq_false_iff]
  intro heq
  obtain _ | ⟨htag, _ | ⟨hname, _ | _⟩⟩ := Value.sequence_beq.mp heq
  obtain rfl := Value.string_beq.mp htag
  rw [Value.beq_string_iff.mp hname] at h
  simp [shortForm?, Value.string] at h

theorem begunTagged_of_none {tag : String} (h : builtins.find? tag = none) (params : List Value) (D : Dictionary) :
    begunTagged tag params D = [] := by
  rw [begunTagged.eq_def, h]

theorem begun_of_untagged (h : ∀ tag params, v ≠ .sequence (.string tag :: params)) (D : Dictionary) :
    begun v D = [] := by
  rw [begun.eq_def]
  split
  · exact absurd rfl (h _ _)
  · rfl

theorem makeTagged_traces {tag : String} {params : List Value}
    (ih : ∀ w, Part (.sequence (.string tag :: params)) w → ∀ D, (builtins.reify w).Traces D (begun w D)) :
    (builtins.makeTagged (.sequence (.string tag :: params)) tag (builtins.reifyParams params) params).Traces D
      (begunTagged tag params D) := by
  rw [makeTagged.eq_def]
  split
  · rename_i name hshort
    obtain ⟨rfl, rfl⟩ := shortForm?_eq_some hshort
    exact declaredStruct_traces name
  · rename_i hshort
    split
    · rename_i hnone
      rw [begunTagged_of_none hnone]
      exact traces_throw _
    · rename_i f hf
      refine recorded_traces (beq_shortForm hshort) ?_
      have hbuiltin : (tag, f) ∈ builtins.factories := Entries.mem_of_find? hf
      rw [begunTagged.eq_def, hf]
      split
      case h_1 t => exact traces_fresh t
      case h_3 => exact enum_traces
      case h_5 element =>
          obtain rfl : tag = "List" := by simpa [builtins] using hbuiltin
          exact (ih _ .element D).andThen fun _ _ _ => traces_fresh _
      case h_7 key value =>
          obtain rfl : tag = "Map" := by simpa [builtins] using hbuiltin
          refine (ih _ .key D).bind fun k D₁ _ => ?_
          exact (ih _ .value D₁).andThen fun _ _ _ => traces_fresh _
      case h_9 name fields =>
          obtain rfl : tag = "Struct" := by simpa [builtins] using hbuiltin
          refine traces_liftM_bind (fun name' hname => ?_) fun e he => by simp only [he]
          simp only [hname]
          cases fields with
          | sequence fields => exact struct_traces fun _ _ _ _ _ hm => ih _ (.field hm)
          | scalar _ | mapping _ => exact (Traced.refl (D.enter name')).begin
      case h_11 name alternatives =>
          obtain rfl : tag = "Choice" := by simpa [builtins] using hbuiltin
          cases alternatives with
          | sequence alternatives =>
              refine (reifyEach_traces fun a ha => ih a (.alternative ha)).andThen fun _ _ _ => ?_
              exact traces_liftM_bind (fun _ _ => traces_fresh _) fun _ _ => rfl
          | scalar _ | mapping _ => exact traces_throw _
      case h_13 => simp [builtins] at hbuiltin
      -- With a wrong number of parameters nothing is begun.
      case h_2 | h_4 => exact traces_throw _
      case h_6 | h_8 | h_10 | h_12 =>
          simp only
          exact traces_throw _

/-- Whether it has a result or not, reading a descriptor does to the dictionary what the structs come to that it
begins. -/
theorem reify_traces (v : Value) (D : Dictionary) : (builtins.reify v).Traces D (begun v D) := by
  induction v using part_induction generalizing D with
  | h v ih =>
      rcases reify_eq v with ⟨hv, hread⟩ | ⟨tag, params, rfl, hread⟩
      · rw [hread, begun_of_untagged hv]
        simpa using remembered_traces (traces_throw _)
      · exact remembered_traces (makeTagged_traces ih)

end Registry

/-! ## What a failed reading leaves -/

/-- The struct of the name that was begun last. -/
def Begun.last? (name : String) (bs : List Begun) : Option Begun := bs.reverse.find? fun b => b.name = name

namespace Dictionary

/-- The dictionary after a descriptor has been read, be it without a result. -/
def read (D : Dictionary) (v : Value) : Dictionary := ((Registry.builtins.reify v).outcome D).2

def readAll (D : Dictionary) (vs : List Value) : Dictionary := vs.foldl read D

variable {D D' : Dictionary} {bs : List Begun}

theorem Traced.structure? (h : D.Traced bs D') (name : String) :
    D'.structure? name = ((Begun.last? name bs).map Begun.handle).or (D.structure? name) := by
  rw [Dictionary.structure?, h.structs, Entries.find?_insertAll_reverse, ← List.map_reverse, List.find?_map,
    Option.map_map]
  rfl

theorem grows_readAll (D : Dictionary) (vs : List Value) : D.Grows (D.readAll vs) := by
  induction vs generalizing D with
  | nil => exact .refl D
  | cons v vs ih => exact (Registry.reify_traces v D).grows.trans (ih (D.read v))

theorem Spelled.readAll (h : D.Spelled) (vs : List Value) : (D.readAll vs).Spelled := by
  induction vs generalizing D with
  | nil => exact h
  | cons v vs ih => exact ih ((Registry.reify_traces v D).spelled h)

end Dictionary

namespace Registry

open Making Dictionary

variable {D : Dictionary}

theorem runs_shortForm (hD : D.Spelled) {name : String} {t : Handle} (ht : D.structure? name = some t) :
    (builtins.reify (Ty.shortForm name)).Runs D t D := by
  rw [Ty.shortForm, reify_mention, runs_remembered, runs_declaredStruct]
  exact .inr ⟨hD name, ht, rfl⟩

/-- Whatever has been read before, a failed reading leaves all names as they were of which it began no struct. Any
other name stands for the new struct of that name which was begun last, also where a descriptor mentions it from then
on. That struct has its fields if they were all read before the failure, and otherwise never. -/
theorem structure?_of_failed {d : Declarations} (hd : d.Bounded) (vs : List Value) {v : Value} {e : Error}
    {D' : Dictionary} (h : (builtins.reify v).outcome (readAll { declarations := d } vs) = (.error e, D'))
    (name : String) :
    let D := readAll { declarations := d } vs
    D'.structure? name = ((Begun.last? name (begun v D)).map Begun.handle).or (D.structure? name) ∧
      ∀ b, Begun.last? name (begun v D) = some b → D.declarations.next ≤ b.id ∧
        (builtins.reify (Ty.shortForm name)).Runs D' b.handle D' ∧
        ∀ ws, (D'.readAll ws).declarations.Finished b.id ↔ b.complete := by
  intro D
  have htraced : D.Traced (begun v D) D' := by
    have htraces := reify_traces v D
    rwa [Traces, h] at htraces
  have hspelled : D.Spelled := Spelled.readAll (fun _ => rfl) vs
  have hbounded : D.declarations.Bounded := (grows_readAll _ vs).bounded hd
  refine ⟨htraced.structure? name, fun b hb => ?_⟩
  have hm : b ∈ begun v D := List.mem_reverse.mp (List.mem_of_find?_eq_some hb)
  obtain ⟨hle, hlt⟩ := htraced.fresh b hm
  refine ⟨hle, runs_shortForm (htraced.spelled hspelled) ?_, fun ws => ?_⟩
  · rw [htraced.structure?, hb]
    rfl
  · rw [(grows_readAll D' ws).finished_iff hlt]
    exact htraced.finished hbounded b hm

def structNamed (name : String) (fields : List FieldForm) : Value :=
  .sequence [.string "Struct", .string name, .sequence (fields.map FieldForm.toValue)]

/-- A struct whose field is of no known type. -/
def unreadable : Value := structNamed "S" [⟨"a", false, .sequence [], true, .sequence [.string "Bogus"]⟩]

def readable : Value := structNamed "S" [⟨"a", false, .sequence [], true, .sequence [.string "String"]⟩]

/-- The key is made before the value fails, and stays. The struct that failed takes the place of the one read before. -/
theorem structure?_of_failed_value : Declarations.Bounded {} ∧
    ∃ e D', (builtins.reify (.sequence [.string "Map", structNamed "T" [], unreadable])).outcome
        (readAll {} [readable]) = (.error e, D') ∧
      D'.structure? "T" = some ⟨2, .struct 2 "T"⟩ ∧ D'.declarations.Finished 2 ∧
      D'.structure? "S" = some ⟨3, .struct 3 "S"⟩ ∧ ∀ ws, ¬ (D'.readAll ws).declarations.Finished 3 := by
  have hd : Declarations.Bounded {} := Declarations.bounded_of_lt (by simp)
  obtain ⟨e, D', hfailed⟩ : ∃ e D', (builtins.reify (.sequence [.string "Map", structNamed "T" [], unreadable])).outcome
      (readAll {} [readable]) = (.error e, D') := ⟨_, _, rfl⟩
  obtain ⟨hT, hlastT⟩ := structure?_of_failed hd [readable] hfailed "T"
  obtain ⟨hS, hlastS⟩ := structure?_of_failed hd [readable] hfailed "S"
  refine ⟨hd, e, D', hfailed, hT, ?_, hS, fun ws hid => ?_⟩
  · exact ((hlastT ⟨"T", 2, true⟩ rfl).2.2 []).mpr rfl
  · cases ((hlastS ⟨"S", 3, false⟩ rfl).2.2 ws).mp hid

/-- A struct that was never built is known by its name. -/
theorem structure?_unreadable : ∃ e D', (builtins.reify unreadable).outcome {} = (.error e, D') ∧
    ({} : Dictionary).structure? "S" = none ∧ D'.structure? "S" = some ⟨0, .struct 0 "S"⟩ ∧
    (builtins.reify (Ty.shortForm "S")).Runs D' ⟨0, .struct 0 "S"⟩ D' ∧ ¬ D'.declarations.Finished 0 := by
  refine ⟨_, _, rfl, rfl, rfl, rfl, ?_⟩
  rintro ⟨fields, hfields⟩
  cases hfields

end Registry

end TypedTemplate
