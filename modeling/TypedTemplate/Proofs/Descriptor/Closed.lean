import TypedTemplate.Proofs.Descriptor.Form

/-!
# Closed forms

In the form of a type, a struct is mentioned by name only inside its own description: the bound on the nesting of
struct types is never reached.
-/

namespace TypedTemplate

/-- Structs are mentioned only inside their own description or by one of the given names, and the fields of a struct
stand in the order of their names. -/
inductive Form.Closed : List String → Form → Prop
  | leaf {names t scalar} : Closed names (.leaf t scalar)
  | list {names f} : Closed names f → Closed names (.list f)
  | map {names k v} : Closed names k → Closed names v → Closed names (.map k v)
  | choice {names name fs} : (∀ f ∈ fs, Closed names f) → Closed names (.choice name fs)
  | struct {names name fields} : (fields.map Prod.fst).Nodup →
      (fields.map Prod.fst).Pairwise (fun a b => (compare a b).isLE) →
      (∀ entry ∈ fields, Closed (name :: names) entry.2.2) → Closed names (.struct name fields)
  | mention {names name} : name ∈ names → Closed names (.mention name)

namespace Ty

variable {form : StructId → String → Form} {names : List String}

mutual

theorem formWith_closed : (t : Ty) → (∀ s ∈ t.structs, (form s.1 s.2).Closed names) → (t.formWith form).Closed names
  | .string, _ | .integer, _ | .float, _ | .boolean, _ | .enum _ _, _ => by
      rw [formWith]
      exact .leaf
  | .list element, h => by
      rw [formWith]
      exact .list (element.formWith_closed h)
  | .map key value, h => by
      simp only [structs, List.mem_append] at h
      rw [formWith]
      exact .map (key.formWith_closed fun s hs => h s (.inl hs)) (value.formWith_closed fun s hs => h s (.inr hs))
  | .struct id name, h => h (id, name) (by simp [structs])
  | .choice name alternatives, h => by
      rw [formWith]
      exact .choice (formsWith_closed alternatives h)

theorem formsWith_closed : (ts : List Ty) → (∀ s ∈ allStructs ts, (form s.1 s.2).Closed names) →
    ∀ f ∈ formsWith form ts, f.Closed names
  | [], _ => by simp [formsWith]
  | t :: rest, h => by
      simp only [allStructs, List.mem_append] at h
      have ht := t.formWith_closed fun s hs => h s (.inl hs)
      have hrest := formsWith_closed rest fun s hs => h s (.inr hs)
      rw [formsWith]
      simpa using ⟨ht, hrest⟩

end

end Ty

namespace Declarations

variable {d : Declarations}

def Finished (d : Declarations) (id : StructId) : Prop := ∃ fields, Entries.find? id d.finished = some fields

/-- Struct types that nest in each other, all of them finished. -/
structure Path (d : Declarations) (visiting : List StructId) : Prop where
  nodup : visiting.Nodup
  finished : ∀ id ∈ visiting, d.Finished id

theorem Path.length_le {visiting : List StructId} (h : d.Path visiting) : visiting.length ≤ d.finished.length := by
  have hsub : visiting ⊆ d.finished.map Prod.fst := by
    intro id hid
    obtain ⟨fields, hfields⟩ := h.finished id hid
    exact List.mem_map.mpr ⟨_, Entries.mem_of_find? hfields, rfl⟩
  simpa using (h.nodup.subperm hsub).length_le

theorem Path.cons {visiting : List StructId} (h : d.Path visiting) {id : StructId} (hid : d.Finished id)
    (hnew : id ∉ visiting) : d.Path (id :: visiting) :=
  ⟨List.nodup_cons.mpr ⟨hnew, h.nodup⟩, by simpa using ⟨hid, h.finished⟩⟩

theorem finished_of_mem {id : StructId} {entry : String × Field} (h : entry ∈ d.fields id) : d.Finished id := by
  cases hfind : Entries.find? id d.finished with
  | none => simp [fields, hfind] at h
  | some fields => exact ⟨fields, hfind⟩

end Declarations

section

variable {d : Declarations} {t : Ty}

theorem Ty.WellDeclared.formStruct_closed (ht : t.WellDeclared d) (fuel : Nat) {visiting : List StructId} {id : StructId}
    {name : String} {names : List String} (hfuel : d.finished.length < fuel + visiting.length)
    (hpath : d.Path visiting) (hnames : ∀ v ∈ visiting, ∀ n, t.Reaches d v n → n ∈ names)
    (hid : t.Reaches d id name) : (d.formStruct fuel visiting id name).Closed names := by
  induction fuel generalizing visiting id name names with
  | zero =>
      have := hpath.length_le
      omega
  | succ fuel ih =>
      rw [Declarations.formStruct]
      split
      · exact .mention (hnames id ‹_› name hid)
      · rename_i hnew
        have hfields : ∀ entries : List (String × Field), (entries.map fun entry => (entry.1, entry.2.required,
            entry.2.ty.formWith (d.formStruct fuel (id :: visiting)))).map Prod.fst = entries.map Prod.fst := by
          simp [Function.comp_def]
        refine .struct ?_ ?_ ?_
        · rw [hfields]
          exact ((List.mergeSort_perm _ _).map _).nodup_iff.mpr (ht.nodup id name hid)
        · rw [hfields]
          exact Value.pairwise_sortByKey _
        · intro entry he
          obtain ⟨⟨field, f⟩, hf, rfl⟩ := List.mem_map.mp he
          have hentry : (field, f) ∈ d.fields id := Value.mem_sortByKey.mp hf
          apply Ty.formWith_closed
          intro s hs
          refine ih (by simp only [List.length_cons]; omega) (hpath.cons (Declarations.finished_of_mem hentry) hnew) ?_
            (.field hid hentry hs)
          intro v hv n hn
          rcases List.mem_cons.mp hv with rfl | hv
          · simp [ht.named v n name hn hid]
          · exact List.mem_cons_of_mem _ (hnames v hv n hn)

/-- The form of a type mentions structs only inside their own description. -/
theorem Ty.WellDeclared.form_closed (ht : t.WellDeclared d) : (t.form d).Closed [] :=
  t.formWith_closed fun _ hs => ht.formStruct_closed _ (by simp) ⟨List.nodup_nil, by simp⟩ (by simp) (.here hs)

end

end TypedTemplate
