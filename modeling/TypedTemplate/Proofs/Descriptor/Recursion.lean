import Mathlib.Data.Finset.Basic
import TypedTemplate.Proofs.Ty.Facing
import TypedTemplate.Proofs.Value.Distinct

/-!
# Where descriptors end

Describing a type goes through the structs in it, around which it may come back to where it has been. It keeps the set of
the structs that are being described, which it takes over from one part of a type to the next; the bound of the nesting
plays no part. Each run ends with the set that it started with, and leaves the descriptor of the type. In the descriptor,
a struct stands by its name alone exactly where it stands inside itself.
-/

namespace TypedTemplate

/-- The row of a field in the descriptor of a struct, given the descriptor of its type. -/
def Field.row (name : String) (f : Field) (type : Value) : Value :=
  .sequence [.string name, .sequence [
    .bool f.required, f.default.elim (.sequence []) Object.toValue, .bool f.default.isNone, type]]

namespace Ty

/-! ## Runs -/

mutual

/-- Describing the type, while the structs in the first set are being described, ends with this value and the second
set. -/
inductive Describes (d : Declarations) : Finset StructId → Ty → Value → Finset StructId → Prop
  | string {s} : Describes d s .string (.sequence [.string "String"]) s
  | integer {s} : Describes d s .integer (.sequence [.string "Integer"]) s
  | float {s} : Describes d s .float (.sequence [.string "Float"]) s
  | boolean {s} : Describes d s .boolean (.sequence [.string "Boolean"]) s
  | enum {s name values} : Describes d s (.enum name values)
      (.sequence [.string "Enum", .string name, .sequence (values.map .string)]) s
  | list {s s' t v} : Describes d s t v s' → Describes d s (.list t) (.sequence [.string "List", v]) s'
  | map {s s' s'' k u v w} : Describes d s k v s' → Describes d s' u w s'' →
      Describes d s (.map k u) (.sequence [.string "Map", v, w]) s''
  | choice {s s' name ts vs} : DescribesEach d s ts vs s' →
      Describes d s (.choice name ts) (.sequence [.string "Choice", .string name, .sequence vs]) s'
  | mention {s id name} : id ∈ s → Describes d s (.struct id name) (shortForm name) s
  | struct {s s' id name rows} : id ∉ s → DescribesFields d (insert id s) (Value.sortByKey (d.fields id)) rows s' →
      Describes d s (.struct id name) (.sequence [.string "Struct", .string name, .sequence rows]) (s'.erase id)

inductive DescribesEach (d : Declarations) : Finset StructId → List Ty → List Value → Finset StructId → Prop
  | nil {s} : DescribesEach d s [] [] s
  | cons {s s' s'' t v ts vs} : Describes d s t v s' → DescribesEach d s' ts vs s'' →
      DescribesEach d s (t :: ts) (v :: vs) s''

inductive DescribesFields (d : Declarations) :
    Finset StructId → List (String × Field) → List Value → Finset StructId → Prop
  | nil {s} : DescribesFields d s [] [] s
  | cons {s s' s'' name f v fields rows} : Describes d s f.ty v s' → DescribesFields d s' fields rows s'' →
      DescribesFields d s ((name, f) :: fields) (f.row name v :: rows) s''

end

variable {d : Declarations} {visiting : List StructId}

/-! ### Each run ends -/

mutual

theorem describes_of_structs {s : Finset StructId} {struct : StructId → String → Value}
    (h : ∀ id name, Describes d s (.struct id name) (struct id name) s) :
    (t : Ty) → Describes d s t (t.describeWith struct) s
  | .string => by rw [describeWith]; exact .string
  | .integer => by rw [describeWith]; exact .integer
  | .float => by rw [describeWith]; exact .float
  | .boolean => by rw [describeWith]; exact .boolean
  | .enum _ _ => by rw [describeWith]; exact .enum
  | .list t => by rw [describeWith]; exact .list (describes_of_structs h t)
  | .map k v => by rw [describeWith]; exact .map (describes_of_structs h k) (describes_of_structs h v)
  | .struct id name => by rw [describeWith]; exact h id name
  | .choice _ ts => by rw [describeWith]; exact .choice (describesEach_of_structs h ts)

theorem describesEach_of_structs {s : Finset StructId} {struct : StructId → String → Value}
    (h : ∀ id name, Describes d s (.struct id name) (struct id name) s) :
    (ts : List Ty) → DescribesEach d s ts (describeAllWith struct ts) s
  | [] => by rw [describeAllWith]; exact .nil
  | t :: ts => by rw [describeAllWith]; exact .cons (describes_of_structs h t) (describesEach_of_structs h ts)

end

theorem describesFields_of_forall {s : Finset StructId} (describe : Ty → Value) {fields : List (String × Field)}
    (h : ∀ entry ∈ fields, Describes d s entry.2.ty (describe entry.2.ty) s) :
    DescribesFields d s fields (fields.map fun entry => entry.2.row entry.1 (describe entry.2.ty)) s := by
  induction fields with
  | nil => exact .nil
  | cons entry fields ih =>
      rw [List.forall_mem_cons] at h
      exact .cons h.1 (ih h.2)

/-- The run inside some structs. There are only so many structs inside which it can still be. -/
theorem describes_describeIn (n : Nat) : ∀ {visiting : List StructId}, d.finished.length + 1 ≤ n + visiting.length →
    d.Path visiting → ∀ t, Describes d visiting.toFinset t (describeIn d visiting t) visiting.toFinset := by
  induction n with
  | zero =>
      intro visiting hn hv
      have := hv.length_le
      omega
  | succ n ih =>
      intro visiting hn hv t
      refine describes_of_structs (fun id name => ?_) t
      change Describes d _ _ (describeIn d visiting (.struct id name)) _
      by_cases hid : id ∈ visiting
      · rw [describeIn_mention hv hid]
        exact .mention (List.mem_toFinset.mpr hid)
      · have hnew : id ∉ visiting.toFinset := mt List.mem_toFinset.mp hid
        have hfields : ∀ entry ∈ Value.sortByKey (d.fields id), Describes d (insert id visiting.toFinset) entry.2.ty
            (describeIn d (id :: visiting) entry.2.ty) (insert id visiting.toFinset) := by
          intro entry hentry
          have hpath := hv.cons (Declarations.finished_of_mem (Value.mem_sortByKey.mp hentry)) hid
          rw [← List.toFinset_cons]
          exact ih (by rw [List.length_cons]; omega) hpath entry.2.ty
        have hrun : Describes d visiting.toFinset (.struct id name) _ _ :=
          .struct hnew (describesFields_of_forall (describeIn d (id :: visiting)) hfields)
        rw [Finset.erase_insert hnew] at hrun
        rw [describeIn_struct hv hid]
        exact hrun

/-! ### What a run leaves -/

mutual

/-- A run inside some structs leaves what is described there, and the set as it was. -/
theorem Describes.eq {s s' : Finset StructId} {t : Ty} {v : Value} : Describes d s t v s' →
    ∀ {visiting}, d.Path visiting → s = visiting.toFinset → v = describeIn d visiting t ∧ s' = s
  | .string, _, _, _ | .integer, _, _, _ | .float, _, _, _ | .boolean, _, _, _ | .enum, _, _, _ => by
      simp only [describeIn, describeWith, and_self]
  | .list h, _, hv, hs => by
      obtain ⟨rfl, rfl⟩ := h.eq hv hs
      simp only [describeIn, describeWith, and_self]
  | .map hk hu, _, hv, hs => by
      obtain ⟨rfl, rfl⟩ := hk.eq hv hs
      obtain ⟨rfl, rfl⟩ := hu.eq hv hs
      simp only [describeIn, describeWith, and_self]
  | .choice h, _, hv, hs => by
      obtain ⟨rfl, rfl⟩ := h.eq hv hs
      simp only [describeIn, describeWith, and_self]
  | .mention hid, _, hv, hs => by
      rw [hs, List.mem_toFinset] at hid
      exact ⟨(describeIn_mention hv hid).symm, rfl⟩
  | @Describes.struct _ _ s' id name rows hid h, visiting, hv, hs => by
      have hnew : id ∉ visiting := by rwa [hs, List.mem_toFinset] at hid
      have hpath : ∀ entry ∈ Value.sortByKey (d.fields id), d.Path (id :: visiting) := fun entry hentry =>
        hv.cons (Declarations.finished_of_mem (Value.mem_sortByKey.mp hentry)) hnew
      obtain ⟨hrows, hset⟩ := h.eq hpath (by rw [hs, List.toFinset_cons])
      rw [describeIn_struct hv hnew, hset, Finset.erase_insert hid, hrows]
      exact ⟨rfl, rfl⟩

theorem DescribesEach.eq {s s' : Finset StructId} {ts : List Ty} {vs : List Value} : DescribesEach d s ts vs s' →
    ∀ {visiting}, d.Path visiting → s = visiting.toFinset →
    vs = describeAllWith (d.describeStruct (d.finished.length + 1 - visiting.length) visiting) ts ∧ s' = s
  | .nil, _, _, _ => by simp only [describeAllWith, and_self]
  | .cons h hs, _, hv, heq => by
      obtain ⟨rfl, rfl⟩ := h.eq hv heq
      obtain ⟨rfl, rfl⟩ := hs.eq hv heq
      simp only [describeIn, describeAllWith, and_self]

theorem DescribesFields.eq {s s' : Finset StructId} {fields : List (String × Field)} {rows : List Value} :
    DescribesFields d s fields rows s' → ∀ {visiting}, (∀ entry ∈ fields, d.Path visiting) → s = visiting.toFinset →
    rows = fields.map (fun entry => entry.2.row entry.1 (describeIn d visiting entry.2.ty)) ∧ s' = s
  | .nil, _, _, _ => ⟨rfl, rfl⟩
  | .cons h hs, _, hv, heq => by
      rw [List.forall_mem_cons] at hv
      obtain ⟨rfl, rfl⟩ := h.eq hv.1 heq
      obtain ⟨rfl, rfl⟩ := hs.eq hv.2 heq
      exact ⟨rfl, rfl⟩

end

/-! ## Places -/

/-- A step from a type into what it is made of. -/
inductive Step where
  | element
  | key
  | value
  | alternative (i : Nat)
  | field (name : String)

/-- The type one step further in, unless it is the type of a field. -/
def inner? : Ty → Step → Option Ty
  | .list t, .element => some t
  | .map k _, .key => some k
  | .map _ v, .value => some v
  | .choice _ ts, .alternative i => ts[i]?
  | _, _ => none

/-- The type occurs at the end of a path, inside the structs that are being spelled out there, the innermost first. No
struct is spelled out again inside itself. -/
inductive Occurs (d : Declarations) (t : Ty) : List Step → List StructId → Ty → Prop
  | root : Occurs d t [] [] t
  | inner {p visiting a b step} : Occurs d t p visiting a → a.inner? step = some b → Occurs d t (p ++ [step]) visiting b
  | field {p visiting id name field f} : Occurs d t p visiting (.struct id name) → id ∉ visiting →
      Entries.find? field (d.fields id) = some f → Occurs d t (p ++ [.field field]) (id :: visiting) f.ty

/-- The descriptor of a field's type, if the row is one of a field with this name. -/
def rowType? (name : String) : Value → Option Value
  | .sequence [.scalar (.string n), .sequence [_, _, _, type]] => if n = name then some type else none
  | _ => none

theorem rowType?_row (name n : String) (f : Field) (type : Value) :
    rowType? name (f.row n type) = if n = name then some type else none := rfl

/-- The descriptor one step further in. -/
def innerDescriptor? : Value → Step → Option Value
  | .sequence [_, v], .element => some v
  | .sequence [_, v, _], .key => some v
  | .sequence [_, _, v], .value => some v
  | .sequence [_, _, .sequence vs], .alternative i => vs[i]?
  | .sequence [_, _, .sequence rows], .field name => rows.findSome? (rowType? name)
  | _, _ => none

/-- The descriptor that stands at the end of a path. -/
def descriptorAt? (v : Value) (p : List Step) : Option Value := p.foldlM innerDescriptor? v

theorem descriptorAt?_append {v w : Value} {p : List Step} (h : descriptorAt? v p = some w) (step : Step) :
    descriptorAt? v (p ++ [step]) = innerDescriptor? w step := by
  rw [descriptorAt?] at h
  simp [descriptorAt?, List.foldlM_append, h]

theorem describeAllWith_eq_map (struct : StructId → String → Value) (ts : List Ty) :
    describeAllWith struct ts = ts.map (describeWith struct) := by
  induction ts with
  | nil => rw [describeAllWith]; rfl
  | cons t ts ih => rw [describeAllWith, ih, List.map_cons]

theorem innerDescriptor?_of_inner? {a b : Ty} {step : Step} (h : a.inner? step = some b) :
    innerDescriptor? (describeIn d visiting a) step = some (describeIn d visiting b) := by
  cases a with
  | list t =>
      cases step with
      | element => cases h; rfl
      | _ => cases h
  | map k v =>
      cases step with
      | key | value => cases h; rfl
      | _ => cases h
  | choice name ts =>
      cases step with
      | alternative i =>
          have hb : ts[i]? = some b := h
          simp only [describeIn, describeWith, innerDescriptor?, describeAllWith_eq_map, List.getElem?_map, hb,
            Option.map_some]
      | _ => cases h
  | _ => cases step <;> cases h

theorem findSome?_rowType? (name : String) (describe : Ty → Value) (fields : List (String × Field)) :
    (fields.map fun entry => entry.2.row entry.1 (describe entry.2.ty)).findSome? (rowType? name) =
      (Entries.find? name fields).map fun f => describe f.ty := by
  induction fields with
  | nil => rfl
  | cons entry fields ih =>
      obtain ⟨n, f⟩ := entry
      rw [List.map_cons, List.findSome?_cons, rowType?_row, Entries.find?]
      by_cases hn : n = name
      · rw [if_pos hn, if_pos hn]
        rfl
      · rw [if_neg hn, if_neg hn]
        exact ih

theorem innerDescriptor?_field (hv : d.Path visiting) {id : StructId} {name field : String} {f : Field}
    (hid : id ∉ visiting) (hf : Entries.find? field (d.fields id) = some f) :
    innerDescriptor? (describeIn d visiting (.struct id name)) (.field field) =
      some (describeIn d (id :: visiting) f.ty) := by
  rw [describeIn_struct hv hid]
  have hrow := findSome?_rowType? field (describeIn d (id :: visiting)) (Value.sortByKey (d.fields id))
  rw [Value.find?_sortByKey, hf] at hrow
  exact hrow

/-- What stands in the descriptor where the type occurs is its descriptor inside the structs around it. -/
theorem Occurs.descriptorAt? {t a : Ty} {p : List Step} (h : Occurs d t p visiting a) :
    d.Path visiting ∧ Ty.descriptorAt? (t.descriptor d) p = some (describeIn d visiting a) := by
  induction h with
  | root => exact ⟨⟨List.nodup_nil, by simp⟩, rfl⟩
  | inner _ hstep ih => exact ⟨ih.1, by rw [descriptorAt?_append ih.2, innerDescriptor?_of_inner? hstep]⟩
  | field _ hid hf ih =>
      exact ⟨ih.1.cons (Declarations.finished_of_mem (Entries.mem_of_find? hf)) hid,
        by rw [descriptorAt?_append ih.2, innerDescriptor?_field ih.1 hid hf]⟩

/-! ## The descriptor -/

/-- Describing a type ends, with its descriptor and no struct left that is being described, and it ends in no other way.
Where a struct occurs in the type, its descriptor is its name alone exactly if the struct is being spelled out around that
place; elsewhere it has a row for each field. -/
theorem descriptor_cuts (d : Declarations) (t : Ty) :
    (∀ v s, Describes d ∅ t v s ↔ v = t.descriptor d ∧ s = ∅) ∧
    ∀ p visiting id name, Occurs d t p visiting (.struct id name) →
      ∃ v, descriptorAt? (t.descriptor d) p = some v ∧ (v = shortForm name ↔ id ∈ visiting) ∧
        (id ∉ visiting → ∃ rows, v = .sequence [.string "Struct", .string name, .sequence rows] ∧
          List.Forall₂ (fun entry row => ∃ type, row = Field.row entry.1 entry.2 type)
            (Value.sortByKey (d.fields id)) rows) := by
  have hpath : d.Path [] := ⟨List.nodup_nil, by simp⟩
  refine ⟨fun v s => ⟨fun h => h.eq hpath rfl, ?_⟩, fun p visiting id name h => ?_⟩
  · rintro ⟨rfl, rfl⟩
    exact describes_describeIn (d.finished.length + 1) (Nat.le_refl _) hpath t
  · obtain ⟨hv, hat⟩ := h.descriptorAt?
    refine ⟨_, hat, ?_⟩
    by_cases hid : id ∈ visiting
    · exact ⟨iff_of_true (describeIn_mention hv hid) hid, fun hnew => absurd hid hnew⟩
    · rw [describeIn_struct hv hid]
      refine ⟨iff_of_false (by simp [shortForm]) hid, fun _ => ⟨_, rfl, ?_⟩⟩
      exact List.forall₂_map_right_iff.mpr (List.forall₂_same.mpr fun entry _ => ⟨_, rfl⟩)

/-- A struct with two others of one name; the first of these leads back to it, and stands in a list as well. -/
def crossing : Declarations where
  next := 3
  finished := [
    (1, [("back", ⟨.map .string (.struct 0 "A"), false, none⟩)]),
    (2, [("text", ⟨.string, true, none⟩)]),
    (0, [("b", ⟨.struct 1 "B", true, none⟩), ("other", ⟨.struct 2 "B", false, none⟩),
      ("all", ⟨.list (.struct 1 "B"), false, none⟩)])]

theorem descriptor_cuts_crossing :
    Describes crossing ∅ (.struct 0 "A") ((Ty.struct 0 "A").descriptor crossing) ∅ ∧
    (∃ v, descriptorAt? ((Ty.struct 0 "A").descriptor crossing) [.field "b", .field "back", .value] = some v ∧
      v = shortForm "A") ∧
    ∃ v, descriptorAt? ((Ty.struct 0 "A").descriptor crossing) [.field "all", .element] = some v ∧
      v ≠ shortForm "B" := by
  obtain ⟨hrun, hplaces⟩ := descriptor_cuts crossing (.struct 0 "A")
  have hroot : Occurs crossing (.struct 0 "A") [] [] (.struct 0 "A") := .root
  have hback : Occurs crossing (.struct 0 "A") [.field "b", .field "back", .value] [1, 0] (.struct 0 "A") :=
    .inner (.field (f := ⟨.map .string (.struct 0 "A"), false, none⟩)
      (.field (f := ⟨.struct 1 "B", true, none⟩) hroot (by decide) rfl) (by decide) rfl) rfl
  have hall : Occurs crossing (.struct 0 "A") [.field "all", .element] [0] (.struct 1 "B") :=
    .inner (.field (f := ⟨.list (.struct 1 "B"), false, none⟩) hroot (by decide) rfl) rfl
  obtain ⟨v, hv, hshort, -⟩ := hplaces _ _ _ _ hback
  obtain ⟨w, hw, hfull, -⟩ := hplaces _ _ _ _ hall
  exact ⟨(hrun _ _).mpr ⟨rfl, rfl⟩, ⟨v, hv, hshort.mpr (by decide)⟩, w, hw, fun h => absurd (hfull.mp h) (by decide)⟩

end Ty

end TypedTemplate
