import Mathlib.Data.Nat.Find
import TypedTemplate.Proofs.Descriptor.Closed
import TypedTemplate.Proofs.Value.Equal

/-!
# Interchangeable types

Types with equal descriptors are of one kind, and a choice stands in one of them exactly if one stands in the other.
A descriptor that cuts a struct off at its name still shows every choice: the shortest way to it does not lead through
any struct twice.
-/

namespace TypedTemplate

variable {d : Declarations}

namespace Ty

/-! ## Choices in types -/

/-- A choice is found in the type after so many steps to elements, keys, values and fields. -/
inductive ChoiceAt (d : Declarations) : Nat → Ty → Prop
  | here {name alternatives} : ChoiceAt d 0 (.choice name alternatives)
  | element {n t} : ChoiceAt d n t → ChoiceAt d (n + 1) (.list t)
  | key {n k v} : ChoiceAt d n k → ChoiceAt d (n + 1) (.map k v)
  | value {n k v} : ChoiceAt d n v → ChoiceAt d (n + 1) (.map k v)
  | field {n id name entry} : entry ∈ d.fields id → ChoiceAt d n entry.2.ty → ChoiceAt d (n + 1) (.struct id name)

/-- No choice stands in the type, nor in the fields of the structs in it. -/
def NoChoice (d : Declarations) (t : Ty) : Prop := ∀ n, ¬ ChoiceAt d n t

theorem NoChoice.element {t : Ty} (h : (list t).NoChoice d) : t.NoChoice d := fun n hn => h (n + 1) (.element hn)

theorem NoChoice.key {k v : Ty} (h : (map k v).NoChoice d) : k.NoChoice d := fun n hn => h (n + 1) (.key hn)

theorem NoChoice.value {k v : Ty} (h : (map k v).NoChoice d) : v.NoChoice d := fun n hn => h (n + 1) (.value hn)

theorem NoChoice.field {id : StructId} {name : String} (h : (struct id name).NoChoice d) {entry : String × Field}
    (he : entry ∈ d.fields id) : entry.2.ty.NoChoice d := fun n hn => h (n + 1) (.field he hn)

theorem not_noChoice_choice {name : String} {alternatives : List Ty} : ¬ (choice name alternatives).NoChoice d :=
  fun h => h 0 .here

/-- No choice stands in the type itself; the fields of structs are left aside. -/
def isChoiceFree : Ty → Bool
  | list t => t.isChoiceFree
  | map k v => k.isChoiceFree && v.isChoiceFree
  | choice .. => false
  | _ => true

/-- It is enough to look at the type and at those of all fields that are declared. -/
theorem noChoice_of_isChoiceFree {t : Ty} (ht : t.isChoiceFree)
    (hd : ∀ entry ∈ d.finished, ∀ field ∈ entry.2, field.2.ty.isChoiceFree) : t.NoChoice d := by
  intro n hn
  induction hn with
  | here => cases ht
  | element _ ih => exact ih ht
  | key _ ih =>
      rw [isChoiceFree, Bool.and_eq_true] at ht
      exact ih ht.1
  | value _ ih =>
      rw [isChoiceFree, Bool.and_eq_true] at ht
      exact ih ht.2
  | @field n id name entry he _ ih =>
      obtain ⟨fields, hfields⟩ := Declarations.finished_of_mem he
      rw [Declarations.fields, hfields] at he
      exact ih (hd _ (Entries.mem_of_find? hfields) entry he)

/-! ## The heads of descriptors -/

theorem describeStruct_name (d : Declarations) (fuel : Nat) (visiting : List StructId) (id : StructId) (name : String) :
    ∃ vs, d.describeStruct fuel visiting id name = .sequence (.string "Struct" :: .string name :: vs) := by
  cases fuel with
  | zero => exact ⟨_, rfl⟩
  | succ fuel =>
      rw [Declarations.describeStruct]
      split
      · exact ⟨_, rfl⟩
      · exact ⟨_, rfl⟩

theorem describeWith_tag (d : Declarations) (fuel : Nat) (visiting : List StructId) (t : Ty) :
    ∃ vs, t.describeWith (d.describeStruct fuel visiting) = .sequence (.string t.tag :: vs) := by
  cases t with
  | struct id name =>
      obtain ⟨vs, h⟩ := describeStruct_name d fuel visiting id name
      exact ⟨_, h⟩
  | _ => exact ⟨_, by rw [describeWith, tag]⟩

theorem tag_of_beq {s t : Ty} {fuel fuel' : Nat} {visiting visiting' : List StructId}
    (h : (s.describeWith (d.describeStruct fuel visiting) == t.describeWith (d.describeStruct fuel' visiting')) = true) :
    s.tag = t.tag := by
  obtain ⟨vs, hs⟩ := describeWith_tag d fuel visiting s
  obtain ⟨vs', ht⟩ := describeWith_tag d fuel' visiting' t
  rw [hs, ht, Value.sequence_beq, List.forall₂_cons, Value.string_beq] at h
  exact h.1

/-- Interchangeable types are of one kind. -/
theorem tag_of_same {s t : Ty} (h : s.same d t = true) : s.tag = t.tag := tag_of_beq h

theorem isScalar_eq (t : Ty) : t.isScalar = decide (t.tag ∈ ["String", "Integer", "Float", "Boolean", "Enum"]) := by
  cases t <;> simp [isScalar, tag]

theorem isScalar_of_same {s t : Ty} (h : s.same d t = true) : s.isScalar = t.isScalar := by
  rw [isScalar_eq, isScalar_eq, tag_of_same h]

theorem same_self (d : Declarations) (t : Ty) : t.same d t = true := Value.beq_self _

/-! ## Types that are described alike -/

/-- The types are of one kind and name, and the types directly in them are related. The fields of structs are left
aside. -/
inductive Parallel (R : Ty → Ty → Prop) : Ty → Ty → Prop
  | scalar {t} : t.isScalar = true → Parallel R t t
  | list {a b} : R a b → Parallel R (.list a) (.list b)
  | map {k k' v v'} : R k k' → R v v' → Parallel R (.map k v) (.map k' v')
  | choice {name as bs} : List.Forall₂ R as bs → Parallel R (.choice name as) (.choice name bs)
  | struct {id id' name} : Parallel R (.struct id name) (.struct id' name)

theorem forall₂_of_describeAllWith {struct struct' : StructId → String → Value} {as bs : List Ty}
    (h : List.Forall₂ (fun v w => (v == w) = true) (describeAllWith struct as) (describeAllWith struct' bs)) :
    List.Forall₂ (fun a b => (a.describeWith struct == b.describeWith struct') = true) as bs := by
  induction as generalizing bs with
  | nil =>
      cases bs with
      | nil => exact .nil
      | cons => cases h
  | cons a as ih =>
      cases bs with
      | nil => cases h
      | cons b bs =>
          rw [describeAllWith, describeAllWith, List.forall₂_cons] at h
          exact .cons h.1 (ih h.2)

/-- Types are described alike only if those directly in them are, and all names in them are the same. -/
theorem parallel_of_beq {s t : Ty} {fuel fuel' : Nat} {visiting visiting' : List StructId}
    (h : (s.describeWith (d.describeStruct fuel visiting) == t.describeWith (d.describeStruct fuel' visiting')) = true) :
    Parallel (fun a b => (a.describeWith (d.describeStruct fuel visiting) ==
      b.describeWith (d.describeStruct fuel' visiting')) = true) s t := by
  have htag := tag_of_beq h
  cases s with
  | list a =>
      cases t with
      | list b =>
          rw [describeWith, describeWith, Value.sequence_beq] at h
          simp only [List.forall₂_cons] at h
          exact .list h.2.1
      | _ => exact absurd htag (by simp [tag])
  | map k v =>
      cases t with
      | map k' v' =>
          rw [describeWith, describeWith, Value.sequence_beq] at h
          simp only [List.forall₂_cons] at h
          exact .map h.2.1 h.2.2.1
      | _ => exact absurd htag (by simp [tag])
  | choice name as =>
      cases t with
      | choice name' bs =>
          rw [describeWith, describeWith, Value.sequence_beq] at h
          simp only [List.forall₂_cons, Value.string_beq, Value.sequence_beq] at h
          obtain ⟨-, rfl, hall, -⟩ := h
          exact .choice (forall₂_of_describeAllWith hall)
      | _ => exact absurd htag (by simp [tag])
  | struct id name =>
      cases t with
      | struct id' name' =>
          obtain ⟨vs, hs⟩ := describeStruct_name d fuel visiting id name
          obtain ⟨ws, ht⟩ := describeStruct_name d fuel' visiting' id' name'
          rw [describeWith, describeWith, hs, ht, Value.sequence_beq] at h
          simp only [List.forall₂_cons, Value.string_beq] at h
          obtain ⟨-, rfl, -⟩ := h
          exact .struct
      | _ => exact absurd htag (by simp [tag])
  | enum name values =>
      cases t with
      | enum name' values' =>
          rw [describeWith, describeWith, Value.sequence_beq] at h
          simp only [List.forall₂_cons, Value.string_beq, Value.sequence_beq, List.forall₂_map_left_iff,
            List.forall₂_map_right_iff, List.forall₂_eq_eq_eq] at h
          obtain ⟨-, rfl, rfl, -⟩ := h
          exact .scalar rfl
      | _ => exact absurd htag (by simp [tag])
  | string | integer | float | boolean =>
      cases t with
      | string | integer | float | boolean => first | exact .scalar rfl | exact absurd htag (by simp [tag])
      | _ => exact absurd htag (by simp [tag])

/-! ## Choices in interchangeable types -/

/-- Where a struct is spelled out in a descriptor, so is the struct in its place in an equal descriptor, and each of
its fields has one there that is described alike. -/
theorem field_of_beq {id : StructId} {name : String} {fuel fuel' : Nat} {visiting visiting' : List StructId} {t : Ty}
    (hid : id ∉ visiting) (h : (d.describeStruct (fuel + 1) visiting id name ==
      t.describeWith (d.describeStruct fuel' visiting')) = true) {entry : String × Field} (he : entry ∈ d.fields id) :
    ∃ id' name' rest entry', t = .struct id' name' ∧ entry' ∈ d.fields id' ∧
      (entry.2.ty.describeWith (d.describeStruct fuel (id :: visiting)) ==
        entry'.2.ty.describeWith (d.describeStruct rest (id' :: visiting'))) = true := by
  have htag : (Ty.struct id name).tag = t.tag := tag_of_beq h
  cases t with
  | struct id' name' =>
      have hshort : ¬ (d.describeStruct (fuel + 1) visiting id name == shortForm name') = true := by
        intro hshort
        rw [Declarations.describeStruct, if_neg hid, shortForm, Value.sequence_beq] at hshort
        exact absurd hshort.length_eq (by simp)
      cases fuel' with
      | zero => exact absurd h hshort
      | succ rest =>
          by_cases hid' : id' ∈ visiting'
          · rw [describeWith, Declarations.describeStruct.eq_2 d visiting' id' name', if_pos hid'] at h
            exact absurd h hshort
          · rw [describeWith, Declarations.describeStruct, if_neg hid, Declarations.describeStruct, if_neg hid',
              Value.sequence_beq] at h
            simp only [List.forall₂_cons, Value.sequence_beq, List.forall₂_map_left_iff, List.forall₂_map_right_iff,
              List.Forall₂.nil, and_true] at h
            obtain ⟨entry', he', hentry⟩ :=
              Entries.exists_of_forall₂ h.2.2 (a := entry) (Value.mem_sortByKey.mpr he)
            rw [Field.describeWith, Field.describeWith, Value.sequence_beq] at hentry
            simp only [List.forall₂_cons, Value.sequence_beq] at hentry
            exact ⟨id', name', rest, entry', rfl, Value.mem_sortByKey.mp he', hentry.2.1.2.2.2.1⟩
  | _ => exact absurd htag (by simp [tag])

/-- Of all ways from a type to a choice one is the shortest. -/
theorem ChoiceAt.exists_shortest {n : Nat} {t : Ty} (h : ChoiceAt d n t) :
    ∃ m ≤ n, ChoiceAt d m t ∧ ∀ k, ChoiceAt d k t → m ≤ k := by
  classical
  have hex : ∃ m, ChoiceAt d m t := ⟨n, h⟩
  exact ⟨Nat.find hex, Nat.find_min' hex h, Nat.find_spec hex, fun _ hk => Nat.find_min' hex hk⟩

theorem ChoiceAt.rename {n : Nat} {id : StructId} {name : String} (h : ChoiceAt d n (.struct id name)) (name' : String) :
    ChoiceAt d n (.struct id name') := by
  cases h with
  | field he h => exact .field he h

/-- A choice in a type shows in its descriptor, so that one stands in every type that is described alike. The structs
that are being described already do not matter, if the choice is further away from them than it is from here. -/
theorem choiceAt_of_beq (n : Nat) : ∀ {s t : Ty} {fuel fuel' : Nat} {visiting visiting' : List StructId},
    ChoiceAt d n s → d.Path visiting → d.finished.length < fuel + visiting.length →
    (∀ id ∈ visiting, ∀ m name, ChoiceAt d m (.struct id name) → n < m) →
    (s.describeWith (d.describeStruct fuel visiting) == t.describeWith (d.describeStruct fuel' visiting')) = true →
    ∃ m, ChoiceAt d m t := by
  induction n using Nat.strongRecOn with
  | _ n ih =>
      intro s t fuel fuel' visiting visiting' hs hpath hfuel hfar h
      have hinside : ∀ {k a b}, k + 1 = n → ChoiceAt d k a →
          (a.describeWith (d.describeStruct fuel visiting) == b.describeWith (d.describeStruct fuel' visiting')) = true →
          ∃ m, ChoiceAt d m b := by
        intro k a b hk ha hab
        refine ih k (by omega) ha hpath hfuel (fun id hid m name hm => ?_) hab
        have := hfar id hid m name hm
        omega
      cases hs with
      | here =>
          cases parallel_of_beq h with
          | scalar hs => cases hs
          | choice => exact ⟨0, .here⟩
      | element ha =>
          cases parallel_of_beq h with
          | scalar hs => cases hs
          | list hab =>
              obtain ⟨m, hm⟩ := hinside rfl ha hab
              exact ⟨m + 1, .element hm⟩
      | key ha =>
          cases parallel_of_beq h with
          | scalar hs => cases hs
          | map hab _ =>
              obtain ⟨m, hm⟩ := hinside rfl ha hab
              exact ⟨m + 1, .key hm⟩
      | value ha =>
          cases parallel_of_beq h with
          | scalar hs => cases hs
          | map _ hab =>
              obtain ⟨m, hm⟩ := hinside rfl ha hab
              exact ⟨m + 1, .value hm⟩
      | @field k id name entry he hk =>
          have hat : ChoiceAt d (k + 1) (.struct id name) := .field he hk
          have hid : id ∉ visiting := fun hid => Nat.lt_irrefl _ (hfar id hid _ name hat)
          -- The shortest way from this struct to a choice does not come back to the struct.
          obtain ⟨_, hle, hat, hleast⟩ := hat.exists_shortest
          cases hat with
          | @field j _ _ entry he hj =>
              have hfar' : ∀ v ∈ id :: visiting, ∀ m' name', ChoiceAt d m' (.struct v name') → j < m' := by
                intro v hv m' name' hv'
                rcases List.mem_cons.mp hv with rfl | hv
                · exact hleast m' (hv'.rename name)
                · have := hfar v hv m' name' hv'
                  omega
              have hlength := hpath.length_le
              obtain ⟨fuel, rfl⟩ : ∃ rest, fuel = rest + 1 := ⟨fuel - 1, by omega⟩
              obtain ⟨id', name', rest, entry', rfl, he', hbeq⟩ := field_of_beq hid h he
              obtain ⟨m', hm'⟩ := ih j (by omega) hj (hpath.cons (Declarations.finished_of_mem he) hid)
                (by simp only [List.length_cons]; omega) hfar' hbeq
              exact ⟨m' + 1, .field he' hm'⟩

/-- Of interchangeable types no choice stands in either or one stands in both. -/
theorem NoChoice.of_same {s t : Ty} (ht : t.NoChoice d) (h : s.same d t = true) : s.NoChoice d := by
  intro n hn
  obtain ⟨m, hm⟩ := choiceAt_of_beq n hn ⟨List.nodup_nil, by simp⟩ (by simp) (by simp) h
  exact ht m hm

end Ty

end TypedTemplate
