import TypedTemplate.Proofs.Descriptor.Closed
import TypedTemplate.Proofs.Descriptor.Making

/-!
# Every closed form can be read

Reading goes on from a dictionary to a larger one: struct types that have been finished stay as they are, and those
that are finished meanwhile are new.
-/

namespace TypedTemplate

namespace Declarations

/-- Struct types that are finished have the same fields in further declarations. -/
def Extends (d e : Declarations) : Prop :=
  ∀ id fields, Entries.find? id d.finished = some fields → Entries.find? id e.finished = some fields

/-- The numbers of finished struct types have been given away. -/
def Bounded (d : Declarations) : Prop := ∀ id, d.Finished id → id < d.next

theorem bounded_of_lt {d : Declarations} (h : ∀ entry ∈ d.finished, entry.1 < d.next) : d.Bounded := by
  rintro id ⟨fields, hfields⟩
  exact h _ (Entries.mem_of_find? hfields)

theorem Extends.refl (d : Declarations) : d.Extends d := fun _ _ h => h

theorem Extends.trans {d e f : Declarations} (h : d.Extends e) (h' : e.Extends f) : d.Extends f :=
  fun id fields hid => h' id fields (h id fields hid)

theorem Extends.finished {d e : Declarations} (h : d.Extends e) {id : StructId} (hid : d.Finished id) :
    e.Finished id :=
  hid.imp fun fields hfields => h id fields hfields

theorem extends_finish (d : Declarations) (id : StructId) (fields : List (String × Field)) :
    d.Extends (d.finish id fields) := by
  intro id' fields' h
  rw [finish]
  split
  · exact h
  · simp [Entries.find?_append, h]

theorem next_finish (d : Declarations) (id : StructId) (fields : List (String × Field)) :
    (d.finish id fields).next = d.next := by
  rw [finish]
  split <;> rfl

theorem finished_finish {d : Declarations} {id id' : StructId} {fields : List (String × Field)}
    (h : (d.finish id fields).Finished id') : d.Finished id' ∨ id' = id := by
  rw [finish] at h
  split at h
  · exact .inl h
  · obtain ⟨fields', h⟩ := h
    simp only [Entries.find?_append, Entries.find?, Option.or_eq_some_iff] at h
    rcases h with h | ⟨-, h⟩
    · exact .inl ⟨fields', h⟩
    · split at h
      · exact .inr (Eq.symm ‹_›)
      · cases h

theorem finished_of_finish (d : Declarations) (id : StructId) (fields : List (String × Field)) :
    (d.finish id fields).Finished id := by
  rw [finish]
  split
  · exact Option.isSome_iff_exists.mp ‹_›
  · rename_i hnew
    rw [Entries.contains, Option.not_isSome_iff_eq_none] at hnew
    exact ⟨fields, by simp [Entries.find?_append, hnew, Entries.find?]⟩

end Declarations

namespace Dictionary

variable {D D' D₁ : Dictionary}

/-- The second dictionary holds what the first does, and struct types that are new. -/
structure Grows (D D' : Dictionary) : Prop where
  next : D.declarations.next ≤ D'.declarations.next
  kept : D.declarations.Extends D'.declarations
  added : ∀ id, D'.declarations.Finished id → D.declarations.Finished id ∨ D.declarations.next ≤ id
  bounded : D.declarations.Bounded → D'.declarations.Bounded
  known : ∀ name, (D.structure? name).isSome → (D'.structure? name).isSome

theorem Grows.refl (D : Dictionary) : D.Grows D :=
  ⟨Nat.le_refl _, .refl _, fun _ => .inl, id, fun _ => id⟩

theorem Grows.trans (h : D.Grows D₁) (h' : D₁.Grows D') : D.Grows D' where
  next := Nat.le_trans h.next h'.next
  kept := h.kept.trans h'.kept
  added := by
    intro id hid
    rcases h'.added id hid with hid | hid
    · exact h.added id hid
    · exact .inr (Nat.le_trans h.next hid)
  bounded := h'.bounded ∘ h.bounded
  known := fun name => h'.known name ∘ h.known name

/-- A struct type that was there before is not finished later. -/
theorem Grows.finished_iff (h : D.Grows D') {id : StructId} (hid : id < D.declarations.next) :
    D'.declarations.Finished id ↔ D.declarations.Finished id := by
  refine ⟨fun hfinished => ?_, h.kept.finished⟩
  exact (h.added id hfinished).resolve_right (Nat.not_le.mpr hid)

theorem grows_skip (D : Dictionary) : D.Grows D.skip where
  next := Nat.le_succ _
  kept := .refl _
  added := fun _ => .inl
  bounded := fun h id hid => Nat.lt_succ_of_lt (h id hid)
  known := fun _ => id

theorem grows_record (D : Dictionary) (v : Value) (h : Handle) : D.Grows (D.record v h) :=
  ⟨Nat.le_refl _, .refl _, fun _ => .inl, id, fun _ => id⟩

theorem structure?_enter (D : Dictionary) (name name' : String) : (D.enter name).structure? name' =
    if name = name' then some ⟨D.declarations.next, .struct D.declarations.next name⟩ else D.structure? name' := by
  simp [enter, declareStruct, structure?, Entries.find?_insert, skip]

theorem known_enter {names : List String} (h : ∀ n ∈ names, (D.structure? n).isSome) (name : String) :
    ∀ n ∈ name :: names, ((D.enter name).structure? n).isSome := by
  intro n hn
  rw [structure?_enter]
  split
  · rfl
  · rename_i hne
    exact h n ((List.mem_cons.mp hn).resolve_left (Ne.symm hne))

theorem grows_enter (D : Dictionary) (name : String) : D.Grows (D.enter name) where
  next := Nat.le_succ _
  kept := .refl _
  added := fun _ => .inl
  bounded := fun h id hid => Nat.lt_succ_of_lt (h id hid)
  known := by
    intro name' h
    rw [structure?_enter]
    split
    · rfl
    · exact h

theorem next_finishStruct (D : Dictionary) (h : Handle) (declared : List (String × Field)) :
    (D.finishStruct h declared).declarations.next = D.declarations.next :=
  Declarations.next_finish _ _ _

theorem Grows.finishStruct {name : String} (h : (D.enter name).Grows D₁) (declared : List (String × Field)) :
    D.Grows (D₁.finishStruct ⟨D.declarations.next, .struct D.declarations.next name⟩ declared) where
  next := by
    rw [next_finishStruct]
    exact ((grows_enter D name).trans h).next
  kept := ((grows_enter D name).trans h).kept.trans (Declarations.extends_finish _ _ _)
  added := by
    intro id hid
    rcases Declarations.finished_finish hid with hid | rfl
    · exact ((grows_enter D name).trans h).added id hid
    · exact .inr (Nat.le_refl _)
  bounded := by
    intro hD id hid
    rw [next_finishStruct]
    rcases Declarations.finished_finish hid with hid | rfl
    · exact ((grows_enter D name).trans h).bounded hD id hid
    · exact h.next
  known := ((grows_enter D name).trans h).known

end Dictionary

/-! ## Reading closed forms -/

namespace Form

open Dictionary

theorem remembers_of_made {f : Form} {D : Dictionary} {made : Handle → Dictionary → Prop}
    (hmade : ∃ h D₁, made h D₁ ∧ D.Grows D₁) : ∃ h D', f.Remembers D h D' (made h) ∧ D.Grows D' := by
  cases hmemo : D.made? f.toValue with
  | some h => exact ⟨h, D, .inl ⟨hmemo, rfl⟩, .refl D⟩
  | none =>
      obtain ⟨h, D₁, hm, hgrows⟩ := hmade
      exact ⟨h, _, .inr ⟨hmemo, D₁, hm, rfl⟩, hgrows.trans (grows_record _ _ _)⟩

-- A dictionary only grows, so a name that is known where a form begins is known in all parts of the form.
mutual

theorem makes_of_closed : (f : Form) → {names : List String} → f.Closed names → (D : Dictionary) →
    (∀ name ∈ names, (D.structure? name).isSome) → ∃ h D', f.Makes D h D' ∧ D.Grows D'
  | .leaf t ht, _, _, D, _ => by
      simp only [makes_leaf]
      exact remembers_of_made ⟨_, _, ⟨rfl, rfl⟩, grows_skip D⟩
  | .list f, _, hf, D, hknown => by
      cases hf with
      | list hf =>
          obtain ⟨e, D₁, he, hgrows⟩ := makes_of_closed f hf D hknown
          simp only [makes_list]
          exact remembers_of_made ⟨_, _, ⟨e, D₁, he, rfl, rfl⟩, hgrows.trans (grows_skip _)⟩
  | .map k v, _, hf, D, hknown => by
      cases hf with
      | map hk hv =>
          obtain ⟨key, D₁, hkey, hgrows₁⟩ := makes_of_closed k hk D hknown
          obtain ⟨value, D₂, hvalue, hgrows₂⟩ := makes_of_closed v hv D₁ fun n hn => hgrows₁.known n (hknown n hn)
          simp only [makes_map]
          exact remembers_of_made ⟨_, _, ⟨key, D₁, hkey, value, D₂, hvalue, rfl, rfl⟩,
            (hgrows₁.trans hgrows₂).trans (grows_skip _)⟩
  | .choice name fs, _, hf, D, hknown => by
      cases hf with
      | choice hfs =>
          obtain ⟨ts, D₁, hts, hgrows⟩ := makesEach_of_closed fs hfs D hknown
          simp only [makes_choice]
          exact remembers_of_made ⟨_, _, ⟨ts, D₁, hts, rfl, rfl⟩, hgrows.trans (grows_skip _)⟩
  | .struct name fields, names, hf, D, hknown => by
      cases hf with
      | struct _ _ hfields =>
          obtain ⟨declared, D₁, hdeclared, hgrows⟩ := makesFields_of_closed name fields hfields _
            (known_enter hknown name)
          simp only [makes_struct]
          exact remembers_of_made ⟨_, _, ⟨rfl, declared, D₁, hdeclared, rfl⟩, hgrows.finishStruct declared⟩
  | .mention name, _, hf, D, hknown => by
      cases hf with
      | mention hname =>
          obtain ⟨h, hh⟩ := Option.isSome_iff_exists.mp (hknown name hname)
          simp only [makes_mention]
          cases hmemo : D.made? (Ty.shortForm name) with
          | some h' => exact ⟨h', D, .inl ⟨rfl, rfl⟩, .refl D⟩
          | none => exact ⟨h, D, .inr ⟨rfl, hh, rfl⟩, .refl D⟩

theorem makesEach_of_closed : (fs : List Form) → {names : List String} → (∀ f ∈ fs, f.Closed names) → (D : Dictionary) →
    (∀ name ∈ names, (D.structure? name).isSome) → ∃ ts D', MakesEach fs D ts D' ∧ D.Grows D'
  | [], _, _, D, _ => ⟨[], D, makesEach_nil.mpr ⟨rfl, rfl⟩, .refl D⟩
  | f :: rest, _, hfs, D, hknown => by
      obtain ⟨e, D₁, he, hgrows₁⟩ := makes_of_closed f (hfs f (by simp)) D hknown
      obtain ⟨ts, D₂, hts, hgrows₂⟩ := makesEach_of_closed rest (fun f hf => hfs f (by simp [hf])) D₁
        fun n hn => hgrows₁.known n (hknown n hn)
      exact ⟨_, D₂, makesEach_cons.mpr ⟨e, D₁, he, ts, hts, rfl⟩, hgrows₁.trans hgrows₂⟩

theorem makesFields_of_closed (struct : String) : (fields : List (String × Bool × Form)) →
    {names : List String} → (∀ entry ∈ fields, entry.2.2.Closed names) → (D : Dictionary) →
    (∀ name ∈ names, (D.structure? name).isSome) →
    ∃ declared D', MakesFields struct fields D declared D' ∧ D.Grows D'
  | [], _, _, D, _ => ⟨[], D, makesFields_nil.mpr ⟨rfl, rfl⟩, .refl D⟩
  | (name, required, f) :: rest, _, hfields, D, hknown => by
      obtain ⟨e, D₁, he, hgrows₁⟩ := makes_of_closed f (hfields (name, required, f) (by simp)) D hknown
      obtain ⟨declared, D₂, hdeclared, hgrows₂⟩ := makesFields_of_closed struct rest
        (fun entry hentry => hfields entry (by simp [hentry])) D₁ fun n hn => hgrows₁.known n (hknown n hn)
      exact ⟨_, D₂, makesFields_cons.mpr ⟨e, D₁, he, declared, hdeclared, rfl⟩, hgrows₁.trans hgrows₂⟩

end

end Form

end TypedTemplate
