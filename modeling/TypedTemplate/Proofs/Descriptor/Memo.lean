import TypedTemplate.Proofs.Descriptor.Failure

/-!
# What is remembered

A descriptor is remembered for good with the type that was made from it. While a descriptor is read, only descriptors
inside it come to be remembered. These are less deep, so that none is equal to it, and to record it replaces nothing.
-/

namespace TypedTemplate

open Descriptor

namespace Dictionary

variable {D D' D₁ : Dictionary} {n m : Nat} {v w : Value} {h : Handle}

/-- Equal descriptors are remembered with one type. -/
theorem made?_congr (hvw : (v == w) = true) (D : Dictionary) : D.made? v = D.made? w := by
  have hsame : ∀ u : Value, (u == v) = (u == w) := fun u => by
    rw [Bool.eq_iff_iff, Value.beq_iff_sorted, Value.beq_iff_sorted, Value.beq_iff_sorted.mp hvw]
  simp only [made?, hsame]

theorem made?_record (D : Dictionary) (v w : Value) (h : Handle) :
    (D.record v h).made? w = if v == w then some h else D.made? w := by
  rw [made?, record, List.find?_cons]
  cases v == w <;> rfl

/-- Whatever is remembered stays, and nothing comes to be remembered that is as deep as the bound. -/
structure Keeps (n : Nat) (D D' : Dictionary) : Prop where
  kept : ∀ {v h}, D.made? v = some h → D'.made? v = some h
  shallow : ∀ {v}, n ≤ v.depth → D.made? v = none → D'.made? v = none

theorem keeps_of_memo (n : Nat) (h : D'.memo = D.memo) : D.Keeps n D' := by
  have hmade : ∀ v, D'.made? v = D.made? v := fun v => by rw [made?, made?, h]
  exact ⟨fun hv => (hmade _).trans hv, fun _ hv => (hmade _).trans hv⟩

theorem Keeps.refl (n : Nat) (D : Dictionary) : D.Keeps n D := keeps_of_memo n rfl

theorem Keeps.trans (h : D.Keeps n D₁) (h' : D₁.Keeps n D') : D.Keeps n D' :=
  ⟨h'.kept ∘ h.kept, fun hn => h'.shallow hn ∘ h.shallow hn⟩

theorem Keeps.mono (h : D.Keeps n D') (hnm : n ≤ m) : D.Keeps m D' :=
  ⟨h.kept, fun hm => h.shallow (Nat.le_trans hnm hm)⟩

/-- A descriptor can be recorded once everything inside it has been read: nothing equal to it is remembered yet. -/
theorem Keeps.record (hv : D.made? v = none) (h : D.Keeps v.depth D₁) (t : Handle) :
    D.Keeps (v.depth + 1) (D₁.record v t) where
  kept := by
    intro w s hw
    have hne : (v == w) = false := by
      rw [Bool.eq_false_iff]
      intro hvw
      rw [made?_congr hvw, hw] at hv
      cases hv
    rw [made?_record, hne]
    exact h.kept hw
  shallow := by
    intro w hdepth hw
    have hne : (v == w) = false := by
      rw [Bool.eq_false_iff]
      intro hvw
      rw [Value.depth_eq_of_beq hvw] at hdepth
      exact Nat.not_succ_le_self _ hdepth
    rw [made?_record, hne]
    exact h.shallow (Nat.le_of_succ_le hdepth) hw

end Dictionary

namespace Making

open Dictionary

variable {α β : Type} {m : Making α} {k : α → Making β} {n : Nat}

/-- Whether it has a result or not, the computation keeps what is remembered, and makes nothing remembered that is as
deep as the bound. -/
def Keeps (m : Making α) (n : Nat) : Prop := ∀ D : Dictionary, D.Keeps n (m.outcome D).2

theorem Keeps.bind (hm : m.Keeps n) (hk : ∀ a, (k a).Keeps n) : (m >>= k).Keeps n := by
  intro D
  have hfirst := hm D
  rw [outcome_bind]
  rcases hrun : m.outcome D with ⟨error | a, D₁⟩
  · rwa [hrun] at hfirst
  · rw [hrun] at hfirst
    exact hfirst.trans (hk a D₁)

theorem keeps_pure (a : α) : (pure a : Making α).Keeps n := .refl n

theorem keeps_throw (e : Error) : (throw e : Making α).Keeps n := .refl n

theorem keeps_get : (get : Making Dictionary).Keeps n := .refl n

theorem keeps_liftM (x : Except Error α) : (liftM x : Making α).Keeps n := by
  intro D
  rw [Registry.outcome_liftM]
  exact .refl n D

theorem keeps_declareStruct (name : String) (t : Handle) :
    (modify (·.declareStruct name t) : Making PUnit).Keeps n := fun _ => keeps_of_memo n rfl

theorem keeps_finishStruct (t : Handle) (fields : List (String × Field)) :
    (modify (·.finishStruct t fields) : Making PUnit).Keeps n := fun _ => keeps_of_memo n rfl

theorem keeps_fresh (t : Ty) : (fresh t).Keeps n := fun _ => keeps_of_memo n rfl

theorem keeps_freshStruct (name : String) : (freshStruct name).Keeps n := fun _ => keeps_of_memo n rfl

theorem keeps_mapM {vs : List Value} {f : Value → Making α} (h : ∀ v, (f v).Keeps n) : (vs.mapM f).Keeps n := by
  induction vs with
  | nil => exact keeps_pure _
  | cons v vs ih =>
      rw [List.mapM_cons]
      exact (h v).bind fun _ => ih.bind fun _ => keeps_pure _

end Making

namespace Registry

open Making Dictionary

variable {D D' : Dictionary} {v w : Value} {h : Handle} {make : Making Handle} {n : Nat}

theorem declaredStruct_keeps (name : String) : (declaredStruct name).Keeps n := by
  refine keeps_get.bind fun d => ?_
  split
  · exact keeps_pure _
  · exact keeps_throw _

theorem makeDefault_keeps (attr : String) (t : Ty) (empty : Bool) (v : Value) :
    (makeDefault attr t empty v).Keeps n := by
  unfold makeDefault
  split
  · exact keeps_pure _
  · exact keeps_get.bind fun _ => (keeps_liftM _).bind fun _ => keeps_pure _

theorem reifyEach_keeps {vs : List Value} (h : ∀ v ∈ vs, (builtins.reify v).Keeps n) :
    (builtins.reifyEach vs).Keeps n := by
  induction vs with
  | nil =>
      rw [reifyEach]
      exact keeps_pure _
  | cons v vs ih =>
      rw [reifyEach]
      exact (h v (by simp)).bind fun _ => (ih fun w hw => h w (List.mem_cons_of_mem _ hw)).bind fun _ => keeps_pure _

theorem reifyFields_keeps {struct : String} {vs : List Value}
    (h : ∀ w, w.depth < (Value.sequence vs).depth → (builtins.reify w).Keeps n) :
    (builtins.reifyFields struct vs).Keeps n := by
  induction vs with
  | nil =>
      rw [reifyFields]
      exact keeps_pure _
  | cons v vs ih =>
      have hrest : (builtins.reifyFields struct vs).Keeps n := by
        refine ih fun w hw => h w (Nat.lt_of_lt_of_le hw ?_)
        simp only [Value.depth, Value.elementsDepth]
        omega
      rw [reifyFields.eq_def]
      split
      · cases ‹_ = []›
      · rename_i attr required default empty type rest heq
        cases heq
        have htype : (builtins.reify type).Keeps n := by
          refine h type ?_
          simp only [Value.depth, Value.elementsDepth]
          omega
        refine (keeps_liftM _).bind fun _ => (keeps_liftM _).bind fun _ => htype.bind fun t => ?_
        exact (makeDefault_keeps _ _ _ _).bind fun _ => hrest.bind fun _ => keeps_pure _
      · exact keeps_throw _

theorem struct_keeps {name fields : Value}
    (h : ∀ vs, fields = .sequence vs → ∀ struct, (builtins.reifyFields struct vs).Keeps n) :
    Making.Keeps (do
      let name ← expectName "Struct" name
      let h ← freshStruct name
      modify (·.declareStruct name h)
      match fields with
      | .sequence fields =>
        let declared ← builtins.reifyFields name fields
        modify (·.finishStruct h declared)
        return h
      | v => throw (sequenceError "Struct" v)) n := by
  refine (keeps_liftM _).bind fun name => (keeps_freshStruct name).bind fun t => ?_
  refine (keeps_declareStruct name t).bind fun _ => ?_
  split
  · exact (h _ rfl name).bind fun fields => (keeps_finishStruct t fields).bind fun _ => keeps_pure _
  · exact keeps_throw _

theorem remembered_keeps (h : D.made? v = none → D.Keeps n (make.outcome D).2) :
    D.Keeps n ((remembered v make).outcome D).2 := by
  have hget : (get : Making Dictionary).outcome D = (.ok D, D) := rfl
  rw [remembered, outcome_bind, hget]
  cases hmade : D.made? v with
  | some t =>
      simp only [hmade]
      exact .refl n D
  | none =>
      simp only [hmade]
      exact h hmade

theorem recorded_keeps (hv : D.made? v = none) (h : make.Keeps v.depth) :
    D.Keeps (v.depth + 1) ((recorded v make).outcome D).2 := by
  have hfirst := h D
  rw [recorded, outcome_bind]
  rcases hrun : make.outcome D with ⟨error | t, D₁⟩
  · rw [hrun] at hfirst
    exact hfirst.mono (Nat.le_succ _)
  · rw [hrun] at hfirst
    exact hfirst.record hv t

theorem makeTagged_keeps {tag : String} {params : List Value} (hv : v = .sequence (.string tag :: params))
    (hnone : D.made? v = none) (ih : ∀ w, w.depth < v.depth → (builtins.reify w).Keeps v.depth) :
    D.Keeps (v.depth + 1) ((builtins.makeTagged v tag (builtins.reifyParams params) params).outcome D).2 := by
  have hparam : ∀ w ∈ params, w.depth < v.depth := fun w hw => by
    rw [hv]
    exact Value.depth_lt_of_mem (List.mem_cons_of_mem _ hw)
  rw [makeTagged.eq_def]
  split
  · exact declaredStruct_keeps _ D
  · split
    · exact .refl _ D
    · rename_i f hf
      refine recorded_keeps hnone ?_
      have hbuiltin : (tag, f) ∈ builtins.factories := Entries.mem_of_find? hf
      split
      case h_1 => exact keeps_fresh _
      case h_3 name members =>
          refine (keeps_liftM _).bind fun _ => (keeps_mapM fun _ => keeps_liftM _).bind fun _ => ?_
          exact (keeps_liftM _).bind fun _ => keeps_fresh _
      case h_5 element => exact (ih _ (hparam _ (by simp))).bind fun _ => keeps_fresh _
      case h_7 key value =>
          exact (ih _ (hparam _ (by simp))).bind fun _ => (ih _ (hparam _ (by simp))).bind fun _ => keeps_fresh _
      case h_9 name fields =>
          refine struct_keeps ?_
          rintro vs rfl struct
          exact reifyFields_keeps fun w hw => ih w (Nat.lt_trans hw (hparam _ (by simp)))
      case h_11 name alternatives =>
          split
          · rename_i vs
            refine (reifyEach_keeps fun w hw => ?_).bind fun _ => (keeps_liftM _).bind fun _ => keeps_fresh _
            exact ih w (Nat.lt_trans (Value.depth_lt_of_mem hw) (hparam _ (by simp)))
          · exact keeps_throw _
      case h_13 => simp [builtins] at hbuiltin
      all_goals exact keeps_throw _

/-- Reading a descriptor, be it without a result, keeps all that is remembered. -/
theorem reify_keeps (v : Value) : (builtins.reify v).Keeps (v.depth + 1) := by
  induction hn : v.depth using Nat.strong_induction_on generalizing v with
  | _ n ih =>
      subst hn
      have hinner : ∀ w, w.depth < v.depth → (builtins.reify w).Keeps v.depth := fun w hw D =>
        (ih w.depth hw w rfl D).mono hw
      intro D
      rcases reify_eq v with ⟨-, hread⟩ | ⟨tag, params, hparts, hread⟩
      · rw [hread]
        exact remembered_keeps fun _ => .refl _ D
      · rw [hread]
        exact remembered_keeps fun hnone => makeTagged_keeps hparts hnone hinner

/-! ## Reading again -/

theorem runs_of_made (hmade : D.made? v = some h) : (builtins.reify v).Runs D h D := by
  have hmemo : ∀ make, (remembered v make).Runs D h D := fun _ => runs_remembered.mpr (.inl ⟨hmade, rfl⟩)
  rcases reify_eq v with ⟨-, hread⟩ | ⟨tag, params, -, hread⟩ <;> exact hread ▸ hmemo _

/-- A descriptor that spells out its type is remembered once the type has been made. -/
theorem made?_of_runs (hv : ∀ name, v ≠ Ty.shortForm name) (hrun : (builtins.reify v).Runs D h D') :
    D'.made? v = some h := by
  cases hmade : D.made? v with
  | some t =>
      obtain ⟨rfl, rfl⟩ := (runs_of_made hmade).unique hrun
      exact hmade
  | none =>
      have hmake : ∀ {make}, builtins.reify v = remembered v make → make.Runs D h D' := fun hread =>
        ((runs_remembered.mp (hread ▸ hrun)).resolve_left (by simp [hmade])).2
      rcases reify_eq v with ⟨-, hread⟩ | ⟨tag, params, hparts, hread⟩
      · exact absurd (hmake hread) runs_throw
      · have htagged := hmake hread
        rw [makeTagged.eq_def] at htagged
        split at htagged
        · rename_i name hshort
          obtain ⟨rfl, rfl⟩ := shortForm?_eq_some hshort
          exact absurd hparts (hv name)
        · split at htagged
          · exact absurd htagged runs_throw
          · obtain ⟨D₁, -, rfl⟩ := runs_recorded.mp htagged
            rw [made?_record, Value.beq_self]
            rfl

theorem kept_readAll (hmade : D.made? v = some h) (us : List Value) : (D.readAll us).made? v = some h := by
  induction us generalizing D with
  | nil => exact hmade
  | cons u us ih => exact ih ((reify_keeps u D).kept hmade)

/-- Once a type has been made from a descriptor that is no mention of a struct by its name alone, every equal descriptor
gives the very same type and changes nothing, whatever is read in between, with a result or without. -/
theorem reify_again (hv : ∀ name, v ≠ Ty.shortForm name) (hrun : (builtins.reify v).Runs D h D')
    (hvw : (v == w) = true) (us : List Value) : (builtins.reify w).Runs (D'.readAll us) h (D'.readAll us) := by
  have hmade : (D'.readAll us).made? v = some h := kept_readAll (made?_of_runs hv hrun) us
  exact runs_of_made ((made?_congr hvw _).symm.trans hmade)

/-- A struct with a default whose entries can be written in another order. -/
def stockedBy (default : List (String × Value)) : Value :=
  structNamed "S" [⟨"stock", false, .mapping default, false, .sequence [.string "Map", .sequence [.string "String"],
    .sequence [.string "Integer"]]⟩]

def stock : Value := stockedBy [("pear", .scalar (.integer 1)), ("plum", .scalar (.integer 2))]

def reorderedStock : Value := stockedBy [("plum", .scalar (.integer 2)), ("pear", .scalar (.integer 1))]

/-- In between, two other structs take the name, one of which fails. -/
theorem reify_again_reordered : ∃ h D', (builtins.reify stock).Runs {} h D' ∧ (∀ name, stock ≠ Ty.shortForm name) ∧
    (stock == reorderedStock) = true ∧ (D'.readAll [unreadable, readable]).structure? "S" ≠ some h ∧
    (builtins.reify reorderedStock).Runs (D'.readAll [unreadable, readable]) h (D'.readAll [unreadable, readable]) := by
  have hspelled : ∀ name, stock ≠ Ty.shortForm name := by
    intro name
    simp [stock, stockedBy, structNamed, Ty.shortForm]
  have hequal : (stock == reorderedStock) = true := by cbv
  have hrun : (builtins.reify stock).Runs {} ⟨0, .struct 0 "S"⟩ (Dictionary.read {} stock) :=
    Prod.ext (by cbv) rfl
  have hname : ((Dictionary.read {} stock).readAll [unreadable, readable]).structure? "S" =
      some ⟨5, .struct 5 "S"⟩ := by
    cbv
  exact ⟨_, _, hrun, hspelled, hequal, by simp [hname], reify_again hspelled hrun hequal _⟩

end Registry

end TypedTemplate
