import TypedTemplate.Proofs.Ty.Alike
import TypedTemplate.Proofs.Ty.Same

/-!
# Types that face each other

In types with equal descriptors, the types in the same places face each other. They match, as long as structs that are
mentioned by their names alone are mentioned together with the structs that they face.
-/

namespace TypedTemplate

namespace Ty

variable {d : Declarations} {t u : Ty}

/-! ## Places -/

/-- The types stand in the same place of the two, inside the pairs of structs, the innermost first. No struct is
entered inside itself. -/
inductive Faces (d : Declarations) (t u : Ty) : List (StructId × StructId) → Ty → Ty → Prop
  | here : Faces d t u [] t u
  | element {p a b} : Faces d t u p (.list a) (.list b) → Faces d t u p a b
  | key {p k k' v v'} : Faces d t u p (.map k v) (.map k' v') → Faces d t u p k k'
  | value {p k k' v v'} : Faces d t u p (.map k v) (.map k' v') → Faces d t u p v v'
  | alternative {p name name' as bs a b} : Faces d t u p (.choice name as) (.choice name' bs) → (a, b) ∈ as.zip bs →
      Faces d t u p a b
  | field {p id id' name name' field f g} : Faces d t u p (.struct id name) (.struct id' name') →
      id ∉ p.map Prod.fst → id' ∉ p.map Prod.snd → Entries.find? field (d.fields id) = some f →
      Entries.find? field (d.fields id') = some g → Faces d t u ((id, id') :: p) f.ty g.ty

/-- The types stand in the same place of the two. -/
def Facing (d : Declarations) (t u a b : Ty) : Prop := ∃ p, Faces d t u p a b

/-- Where two structs inside themselves face each other, they do so around that place as well. -/
def MentionsAgree (d : Declarations) (t u : Ty) : Prop :=
  ∀ p id id' name name', Faces d t u p (.struct id name) (.struct id' name') → id ∈ p.map Prod.fst →
    id' ∈ p.map Prod.snd → (id, id') ∈ p

variable {p : List (StructId × StructId)} {a b : Ty}

theorem Faces.path (h : Faces d t u p a b) : d.Path (p.map Prod.fst) ∧ d.Path (p.map Prod.snd) := by
  induction h with
  | here => exact ⟨⟨List.nodup_nil, by simp⟩, ⟨List.nodup_nil, by simp⟩⟩
  | element _ ih | key _ ih | value _ ih | alternative _ _ ih => exact ih
  | field _ hid hid' hf hg ih =>
      exact ⟨ih.1.cons (Declarations.finished_of_mem (Entries.mem_of_find? hf)) hid,
        ih.2.cons (Declarations.finished_of_mem (Entries.mem_of_find? hg)) hid'⟩

/-- The structs that a place is inside face each other. -/
theorem Faces.entered (h : Faces d t u p a b) {id id' : StructId} (hm : (id, id') ∈ p) :
    ∃ q name name', Faces d t u q (.struct id name) (.struct id' name') ∧ id ∉ q.map Prod.fst ∧
      id' ∉ q.map Prod.snd := by
  induction h with
  | here => cases hm
  | element _ ih | key _ ih | value _ ih | alternative _ _ ih => exact ih hm
  | field h hid hid' _ _ ih =>
      rcases List.mem_cons.mp hm with heq | hm
      · cases heq
        exact ⟨_, _, _, h, hid, hid'⟩
      · exact ih hm

theorem Faces.reaches (h : Faces d t u p a b) :
    (∀ s ∈ a.structs, t.Reaches d s.1 s.2) ∧ ∀ s ∈ b.structs, u.Reaches d s.1 s.2 := by
  induction h with
  | here => exact ⟨fun s hs => .here hs, fun s hs => .here hs⟩
  | element _ ih => exact ih
  | key _ ih => exact ⟨fun s hs => ih.1 s (by simp [structs, hs]), fun s hs => ih.2 s (by simp [structs, hs])⟩
  | value _ ih => exact ⟨fun s hs => ih.1 s (by simp [structs, hs]), fun s hs => ih.2 s (by simp [structs, hs])⟩
  | alternative _ hm ih =>
      obtain ⟨ha, hb⟩ := List.of_mem_zip hm
      exact ⟨fun s hs => ih.1 s (structs_subset_allStructs ha hs), fun s hs => ih.2 s (structs_subset_allStructs hb hs)⟩
  | @field _ id id' name name' _ _ _ _ _ _ hf hg ih =>
      have hleft : t.Reaches d id name := ih.1 (id, name) (by simp [structs])
      have hright : u.Reaches d id' name' := ih.2 (id', name') (by simp [structs])
      exact ⟨fun s hs => .field hleft (Entries.mem_of_find? hf) hs,
        fun s hs => .field hright (Entries.mem_of_find? hg) hs⟩

theorem Faces.struct_reaches {id id' : StructId} {name name' : String}
    (h : Faces d t u p (.struct id name) (.struct id' name')) : t.Reaches d id name ∧ u.Reaches d id' name' :=
  ⟨h.reaches.1 (id, name) (by simp [structs]), h.reaches.2 (id', name') (by simp [structs])⟩

/-! ## Descriptions of places -/

/-- How a type is described inside structs. -/
def describeIn (d : Declarations) (visiting : List StructId) (a : Ty) : Value :=
  a.describeWith (d.describeStruct (d.finished.length + 1 - visiting.length) visiting)

section

variable {visiting visiting' : List StructId} {id id' : StructId} {name name' : String}

theorem describeIn_mention (hv : d.Path visiting) (h : id ∈ visiting) :
    describeIn d visiting (.struct id name) = shortForm name := by
  have hlength := hv.length_le
  obtain ⟨fuel, hfuel⟩ : ∃ fuel, d.finished.length + 1 - visiting.length = fuel + 1 :=
    ⟨d.finished.length - visiting.length, by omega⟩
  rw [describeIn, hfuel, describeWith, Declarations.describeStruct, if_pos h]

theorem describeIn_struct (hv : d.Path visiting) (h : id ∉ visiting) :
    describeIn d visiting (.struct id name) = .sequence [.string "Struct", .string name, .sequence <|
      (Value.sortByKey (d.fields id)).map fun entry => .sequence [.string entry.1, .sequence [
        .bool entry.2.required, entry.2.default.elim (.sequence []) Object.toValue, .bool entry.2.default.isNone,
        describeIn d (id :: visiting) entry.2.ty]]] := by
  have hlength := hv.length_le
  have hfuel : d.finished.length + 1 - visiting.length = d.finished.length + 1 - (visiting.length + 1) + 1 := by omega
  rw [describeIn, hfuel, describeWith, Declarations.describeStruct, if_neg h]
  rfl

/-- Two structs that are described alike have one name. Either both are mentioned by it, or each field of one has a
field in the other that is described alike. -/
theorem struct_of_describeIn (hd : ∀ id, ((d.fields id).map Prod.fst).Nodup) (hv : d.Path visiting)
    (hv' : d.Path visiting')
    (h : (describeIn d visiting (.struct id name) == describeIn d visiting' (.struct id' name')) = true) :
    name = name' ∧ (id ∈ visiting ↔ id' ∈ visiting') ∧
      (id ∉ visiting → ∀ field, Option.Rel
        (fun f g => (describeIn d (id :: visiting) f.ty == describeIn d (id' :: visiting') g.ty) = true)
        (Entries.find? field (d.fields id)) (Entries.find? field (d.fields id'))) := by
  by_cases hid : id ∈ visiting
  · by_cases hid' : id' ∈ visiting'
    · rw [describeIn_mention hv hid, describeIn_mention hv' hid', shortForm, shortForm, Value.sequence_beq] at h
      simp only [List.forall₂_cons, Value.string_beq] at h
      exact ⟨h.2.1, iff_of_true hid hid', fun hnew => absurd hid hnew⟩
    · rw [describeIn_mention hv hid, describeIn_struct hv' hid', shortForm, Value.sequence_beq] at h
      exact absurd h.length_eq (by simp)
  · by_cases hid' : id' ∈ visiting'
    · rw [describeIn_struct hv hid, describeIn_mention hv' hid', shortForm, Value.sequence_beq] at h
      exact absurd h.length_eq (by simp)
    · rw [describeIn_struct hv hid, describeIn_struct hv' hid', Value.sequence_beq] at h
      simp only [List.forall₂_cons, Value.string_beq, Value.sequence_beq, List.forall₂_map_left_iff,
        List.forall₂_map_right_iff] at h
      obtain ⟨-, hname, hfields, -⟩ := h
      refine ⟨hname, iff_of_false hid hid', fun _ field => ?_⟩
      have hsorted : ∀ id, Entries.find? field (Value.sortByKey (d.fields id)) = Entries.find? field (d.fields id) :=
        fun id => (Entries.find?_perm (List.mergeSort_perm _ _).symm (hd id) field).symm
      rw [← hsorted id, ← hsorted id']
      refine Entries.find?_forall₂ (R := fun f g : Field =>
        (describeIn d (id :: visiting) f.ty == describeIn d (id' :: visiting') g.ty) = true) ?_ field
      exact hfields.imp fun _ _ hfg => ⟨hfg.1, hfg.2.1.2.2.2.1⟩

end

/-! ## What faces each other is described alike -/

section

variable (hd : ∀ id, ((d.fields id).map Prod.fst).Nodup) (hsame : t.same d u = true)

include hd hsame

theorem Faces.alike (h : Faces d t u p a b) :
    (describeIn d (p.map Prod.fst) a == describeIn d (p.map Prod.snd) b) = true := by
  induction h with
  | here => exact hsame
  | element _ ih =>
      cases parallel_of_beq ih with
      | scalar h => cases h
      | list h => exact h
  | key _ ih =>
      cases parallel_of_beq ih with
      | scalar h => cases h
      | map h _ => exact h
  | value _ ih =>
      cases parallel_of_beq ih with
      | scalar h => cases h
      | map _ h => exact h
  | alternative _ hm ih =>
      cases parallel_of_beq ih with
      | scalar h => cases h
      | choice h => exact List.forall₂_zip h hm
  | @field _ _ _ _ _ field _ _ h hid _ hf hg ih =>
      have hfield := (struct_of_describeIn hd h.path.1 h.path.2 ih).2.2 hid field
      rwa [hf, hg, Option.rel_some_some] at hfield

theorem Faces.name_eq {id id' : StructId} {name name' : String}
    (h : Faces d t u p (.struct id name) (.struct id' name')) : name = name' :=
  (struct_of_describeIn hd h.path.1 h.path.2 (h.alike hd hsame)).1

/-- It is enough that each struct goes by one name, and each name belongs to one struct. -/
theorem mentionsAgree_of_named (ht : ∀ id m n, t.Reaches d id m → t.Reaches d id n → m = n)
    (hu : ∀ id id' name, u.Reaches d id name → u.Reaches d id' name → id = id') : MentionsAgree d t u := by
  intro p id id' name name' h hid _
  obtain ⟨⟨_, facing⟩, hm, rfl⟩ := List.mem_map.mp hid
  obtain ⟨q, m, m', hq, -, -⟩ := h.entered hm
  obtain rfl : name = name' := h.name_eq hd hsame
  obtain rfl : m = m' := hq.name_eq hd hsame
  obtain rfl : m = name := ht _ _ _ hq.struct_reaches.1 h.struct_reaches.1
  rwa [hu _ _ _ h.struct_reaches.2 hq.struct_reaches.2]

/-- The fields of structs that face each other do so too, wherever one of them is not inside itself. -/
theorem Faces.fields {id id' : StructId} {name name' : String}
    (h : Faces d t u p (.struct id name) (.struct id' name')) (hid : id ∉ p.map Prod.fst) (field : String) :
    Option.Rel (fun f g => Facing d t u f.ty g.ty) (Entries.find? field (d.fields id))
      (Entries.find? field (d.fields id')) := by
  obtain ⟨-, hiff, hfields⟩ := struct_of_describeIn hd h.path.1 h.path.2 (h.alike hd hsame)
  refine Entries.rel_imp ?_ (Entries.rel_and_eq (hfields hid field))
  rintro f g ⟨-, hf, hg⟩
  exact ⟨_, .field h hid (fun hid' => hid (hiff.mpr hid')) hf hg⟩

/-- Types with equal descriptors match in the types that face each other in them. -/
theorem facing_alike (hmentions : MentionsAgree d t u) : Alike d (Facing d t u) := by
  rintro a b ⟨p, h⟩
  have halike := h.alike hd hsame
  cases parallel_of_beq halike with
  | scalar hscalar => exact .scalar hscalar
  | list => exact .list ⟨p, .element h⟩
  | map => exact .map ⟨p, .key h⟩ ⟨p, .value h⟩
  | choice hall => exact .choice (List.forall₂_iff_zip.mpr ⟨hall.length_eq, fun hm => ⟨p, .alternative h hm⟩⟩)
  | @struct id id' name =>
      obtain ⟨-, hiff, -⟩ := struct_of_describeIn hd h.path.1 h.path.2 halike
      by_cases hid : id ∈ p.map Prod.fst
      · obtain ⟨q, _, _, hq, hnew, -⟩ := h.entered (hmentions p id id' name name h hid (hiff.mp hid))
        exact .struct (hq.fields hd hsame hnew)
      · exact .struct (h.fields hd hsame hid)

end

end Ty

end TypedTemplate
