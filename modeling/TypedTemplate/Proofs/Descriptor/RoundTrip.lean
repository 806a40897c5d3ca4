import Mathlib
import TypedTemplate.Proofs.Descriptor.Reading

/-!
# Types rebuilt from their descriptors

A type can be rebuilt from its descriptor always, but the type that comes out has the same descriptor only if the
structs that the descriptor mentions are still being read where it mentions them.
-/

namespace TypedTemplate

open Reading

/-! ## What is made follows the reading -/

theorem Ty.describeWith_scalar {t : Ty} (ht : t.isScalar) (s s' : StructId → String → Value) :
    t.describeWith s = t.describeWith s' := by
  cases t with
  | string | integer | float | boolean | enum _ _ => simp only [describeWith]
  | list _ | map _ _ | struct _ _ | choice _ _ => cases ht

theorem Reading.Matches.struct {D : Dictionary} {path : List StructId} {id : StructId} {declared : List (String × Field)}
    {vs : List Value} {result : Option (List StructId × Reading)}
    (h : Matches (id :: path) D (Declarations.describeFields declared) vs result) (hnew : ¬ D.declarations.Finished id)
    (hnodup : (declared.map Prod.fst).Nodup)
    (hsorted : (declared.map Prod.fst).Pairwise fun a b => (compare a b).isLE) (hid : id ∉ path) (name : String) :
    Matches path (D.finishStruct ⟨id, .struct id name⟩ declared) (fun s => (Ty.struct id name).describeWith s)
      (.sequence [.string "Struct", .string name, .sequence vs])
      (result.map fun (mentioned, σ) => (mentioned.filter (· ≠ id), σ)) := by
  have hfinish : (D.finishStruct ⟨id, .struct id name⟩ declared).declarations = D.declarations.finish id declared := by
    simp [Dictionary.finishStruct, Entries.ofList_of_nodup hnodup]
  simp only [Ty.describeWith]
  cases result with
  | none =>
      rw [Option.map_none, Matches, hfinish]
      exact Declarations.Differs.struct h hnew hsorted hid name
  | some result =>
      obtain ⟨hσ, hsub, hshows⟩ := h
      refine ⟨hσ.finishStruct _ _, ?_, hfinish ▸ hshows.struct hnew hsorted name⟩
      intro v hv
      simp only [List.mem_filter, decide_eq_true_eq] at hv
      exact (List.mem_cons.mp (hsub hv.1)).resolve_left hv.2

namespace Form

variable {D D' : Dictionary} {names : List String} {h : Handle}

theorem Makes.grows {f : Form} (hf : f.Closed names) (hknown : ∀ name ∈ names, (D.structure? name).isSome)
    (h' : f.Makes D h D') : D.Grows D' := by
  obtain ⟨_, _, hmakes, hgrows⟩ := makes_of_closed f hf D hknown
  rw [(h'.unique hmakes).2]
  exact hgrows

theorem MakesEach.grows {fs : List Form} (hfs : ∀ f ∈ fs, f.Closed names)
    (hknown : ∀ name ∈ names, (D.structure? name).isSome) {ts : List Ty} (h' : MakesEach fs D ts D') : D.Grows D' := by
  obtain ⟨_, _, hmakes, hgrows⟩ := makesEach_of_closed fs hfs D hknown
  rw [(h'.unique hmakes).2]
  exact hgrows

theorem MakesFields.grows {struct : String} {fields : List (String × Bool × Form)}
    (hfields : ∀ entry ∈ fields, entry.2.2.Closed names) (hknown : ∀ name ∈ names, (D.structure? name).isSome)
    {declared : List (String × Field)} (h' : MakesFields struct fields D declared D') : D.Grows D' := by
  obtain ⟨_, _, hmakes, hgrows⟩ := makesFields_of_closed struct fields hfields D hknown
  rw [(h'.unique hmakes).2]
  exact hgrows

theorem MakesFields.map_fst {struct : String} {fields : List (String × Bool × Form)}
    {declared : List (String × Field)} (h' : MakesFields struct fields D declared D') :
    declared.map Prod.fst = fields.map Prod.fst := by
  induction fields generalizing D declared with
  | nil => simp [(makesFields_nil.mp h').1]
  | cons entry rest ih =>
      obtain ⟨e, D₁, -, declared', hrest, rfl⟩ := makesFields_cons.mp h'
      simp [ih hrest]

theorem leaf_toValue_ne {t : Ty} (ht : t.isScalar) (name : String) : (Form.leaf t ht).toValue ≠ Ty.shortForm name := by
  cases t with
  | string | integer | float | boolean | enum _ _ => simp [toValue, Ty.describeWith, Ty.shortForm, Value.string]
  | list _ | map _ _ | struct _ _ | choice _ _ => cases ht

mutual

/-- What is made from a form comes to the descriptor with it where the reading has a result, and differs elsewhere. -/
theorem read_matches : (f : Form) → {names : List String} → {path : List StructId} → {σ : Reading} →
    {D D' : Dictionary} → {h : Handle} → f.Closed names → D.Reads names path → σ.Follows D → f.Makes D h D' →
    Matches path D' (fun s => h.ty.describeWith s) f.toValue (f.read path σ)
  | .leaf t ht, _, path, σ, D, D', h, _, hreads, hσ, hmakes => by
      rw [read]
      refine Matches.remember (leaf_toValue_ne ht) hreads hσ ((makes_leaf ht).mp hmakes) ?_
      rintro D₁ ⟨rfl, rfl⟩
      refine ⟨hσ.skip, List.nil_subset _, (Declarations.shows_const _ ()).congr fun s => ?_⟩
      simp only [toValue, iff_true]
      exact Ty.describeWith_scalar ht _ _
  | .list f, _, path, σ, D, D', h, hf, hreads, hσ, hmakes => by
      rw [read]
      refine Matches.remember (by simp [toValue, Ty.shortForm, Value.string]) hreads hσ (makes_list.mp hmakes) ?_
      rintro D₂ ⟨e, D₁, he, rfl, rfl⟩
      cases hf with
      | list hf => exact (read_matches f hf hreads hσ he).skipped fun s => by simp [toValue, Ty.describeWith]
  | .map k v, _, path, σ, D, D', h, hf, hreads, hσ, hmakes => by
      rw [read]
      refine Matches.remember (by simp [toValue, Ty.shortForm]) hreads hσ (makes_map.mp hmakes) ?_
      rintro D₃ ⟨key, D₁, hkey, value, D₂, hvalue, rfl, rfl⟩
      cases hf with
      | map hk hv =>
          have hreads' := hreads.grows (hkey.grows hk hreads.known)
          have hext := (hvalue.grows hv hreads'.known).kept
          have hboth : Matches path D₂ (fun s => (key.ty.describeWith s, value.ty.describeWith s))
              (k.toValue, v.toValue) (both (k.read path σ) (v.read path)) :=
            (read_matches k hk hreads hσ hkey).both hext (fun σ' hσ' => read_matches v hv hreads' hσ' hvalue)
              fun s => by simp
          exact hboth.skipped fun s => by simp [toValue, Ty.describeWith]
  | .choice name fs, _, path, σ, D, D', h, hf, hreads, hσ, hmakes => by
      rw [read]
      refine Matches.remember (by simp [toValue, Ty.shortForm]) hreads hσ (makes_choice.mp hmakes) ?_
      rintro D₂ ⟨ts, D₁, hts, rfl, rfl⟩
      cases hf with
      | choice hfs => exact (readEach_matches fs hfs hreads hσ hts).skipped fun s => by simp [toValue, Ty.describeWith]
  | .struct name fields, _, path, σ, D, D', h, hf, hreads, hσ, hmakes => by
      rw [read]
      refine Matches.remember (by simp [toValue, Ty.shortForm]) hreads hσ (makes_struct.mp hmakes) ?_
      rintro D₂ ⟨rfl, declared, D₁, hdeclared, rfl⟩
      cases hf with
      | struct hnodup hsorted hfields =>
          -- The fields are read with the struct on the path, and it leaves the path when it is finished.
          have hmatches := readFields_matches name fields hfields (hreads.enter name) (hσ.enter name) hdeclared
          have hgrows := hdeclared.grows hfields (hreads.enter name).known
          have hnew := ((hreads.enter name).grows hgrows).unfinished _ List.mem_cons_self
          have hid : D.declarations.next ∉ path := fun hid => Nat.lt_irrefl _ (hreads.lt _ hid)
          rw [← hdeclared.map_fst] at hnodup hsorted
          rw [hσ.next]
          exact hmatches.struct hnew hnodup hsorted hid name
  | .mention name, _, path, σ, D, D', h, hf, hreads, hσ, hmakes => by
      rw [read]
      rcases makes_mention.mp hmakes with ⟨hmemo, rfl⟩ | ⟨-, hh, rfl⟩
      · -- Only descriptors in full are remembered, never a name alone.
        rcases hσ.seen? (mention name).toValue_discrete with ⟨-, hmemo'⟩ | ⟨_, _, -, -, hlong, -⟩
        · exact absurd (hmemo.symm.trans hmemo') (by simp)
        · exact absurd rfl (hlong name)
      · rw [hσ.last] at hh
        obtain ⟨id, hlast, rfl⟩ := Option.map_eq_some_iff.mp hh
        simp only [hlast, toValue, Ty.describeWith]
        split
        · exact ⟨hσ, by simpa using ‹id ∈ path›, Declarations.shows_mention _ id name⟩
        · exact Declarations.differs_mention _ ‹_› name
termination_by structural x => x

theorem readEach_matches : (fs : List Form) → {names : List String} → {path : List StructId} → {σ : Reading} →
    {D D' : Dictionary} → {ts : List Ty} → (∀ f ∈ fs, f.Closed names) → D.Reads names path → σ.Follows D →
    MakesEach fs D ts D' → Matches path D' (fun s => Ty.describeAllWith s ts) (formValues fs) (readEach path fs σ)
  | [], _, path, σ, D, D', ts, _, _, hσ, hmakes => by
      obtain ⟨rfl, rfl⟩ := makesEach_nil.mp hmakes
      rw [readEach]
      exact ⟨hσ, List.nil_subset _, (Declarations.shows_const _ ()).congr fun s => by simp [Ty.describeAllWith, formValues]⟩
  | f :: rest, _, path, σ, D, D', ts, hfs, hreads, hσ, hmakes => by
      obtain ⟨e, D₁, he, types, hrest, rfl⟩ := makesEach_cons.mp hmakes
      have hfirst := hfs f (by simp)
      have hothers := fun f hf => hfs f (List.mem_cons_of_mem _ hf)
      have hreads' := hreads.grows (he.grows hfirst hreads.known)
      have hext := (hrest.grows hothers hreads'.known).kept
      rw [readEach]
      refine (read_matches f hfirst hreads hσ he).both hext
        (fun σ' hσ' => readEach_matches rest hothers hreads' hσ' hrest) fun s => ?_
      simp [Ty.describeAllWith, formValues]
termination_by structural x => x

theorem readFields_matches (struct : String) : (fields : List (String × Bool × Form)) → {names : List String} →
    {path : List StructId} → {σ : Reading} → {D D' : Dictionary} → {declared : List (String × Field)} →
    (∀ entry ∈ fields, entry.2.2.Closed names) → D.Reads names path → σ.Follows D →
    MakesFields struct fields D declared D' →
    Matches path D' (Declarations.describeFields declared) (fieldFormValues fields) (readFields path fields σ)
  | [], _, path, σ, D, D', declared, _, _, hσ, hmakes => by
      obtain ⟨rfl, rfl⟩ := makesFields_nil.mp hmakes
      rw [readFields]
      exact ⟨hσ, List.nil_subset _, (Declarations.shows_const _ ()).congr fun s => by
        simp [Declarations.describeFields, fieldFormValues]⟩
  | (name, required, f) :: rest, _, path, σ, D, D', declared, hfields, hreads, hσ, hmakes => by
      obtain ⟨e, D₁, he, fields, hrest, rfl⟩ := makesFields_cons.mp hmakes
      have hfirst := hfields (name, required, f) (by simp)
      have hothers := fun entry hentry => hfields entry (List.mem_cons_of_mem _ hentry)
      have hreads' := hreads.grows (he.grows hfirst hreads.known)
      have hext := (hrest.grows hothers hreads'.known).kept
      rw [readFields]
      refine (read_matches f hfirst hreads hσ he).both hext
        (fun σ' hσ' => readFields_matches struct rest hothers hreads' hσ' hrest) fun s => ?_
      simp [Declarations.describeFields, fieldFormValues, Field.describeWith]
termination_by structural x => x

end

end Form

/-! ## Rebuilding a type -/

/-- A type without defaults can be rebuilt from its descriptor. What comes out has the same descriptor exactly if the
descriptor mentions only structs that are still being read. -/
theorem Ty.reify_descriptor_iff {d : Declarations} (hd : d.Bounded) {t : Ty} (ht : t.WellDeclared d) :
    ∃ h D, (Registry.builtins.reify (t.descriptor d)).Runs { declarations := d } h D ∧
      (h.ty.descriptor D.declarations = t.descriptor d ↔ (t.form d).Faithful d.next) := by
  have hreads : Dictionary.Reads { declarations := d } [] [] := ⟨hd, by simp, by simp, by simp⟩
  have hfollows : Reading.Follows ⟨d.next, [], []⟩ { declarations := d } := ⟨rfl, fun _ => rfl, .nil⟩
  obtain ⟨h, D, hmakes, -⟩ := Form.makes_of_closed (t.form d) ht.form_closed { declarations := d } hreads.known
  have hmatches := Form.read_matches (t.form d) ht.form_closed hreads hfollows hmakes
  rw [Form.Makes, ht.toValue_form] at hmakes
  refine ⟨h, D, hmakes, ?_⟩
  rw [ht.toValue_form] at hmatches
  have hpath : D.declarations.Path [] := ⟨List.nodup_nil, by simp⟩
  rw [Form.Faithful]
  cases hread : (t.form d).read [] ⟨d.next, [], []⟩ with
  | none =>
      rw [hread] at hmatches
      exact iff_of_false (hmatches D.declarations (.refl _) hpath) (by simp)
  | some result =>
      rw [hread] at hmatches
      obtain ⟨-, hsub, hshows⟩ := hmatches
      exact iff_of_true ((hshows D.declarations (.refl _) [] hpath (by simp)).mpr hsub) rfl

/-- A struct `A` with a struct of the same name in its first field, and a list of `A` in its second. -/
def shadowed : Declarations where
  next := 2
  finished := [
    (1, [("z", ⟨.string, false, none⟩)]),
    (0, [("x", ⟨.struct 1 "A", false, none⟩), ("y", ⟨.list (.struct 0 "A"), false, none⟩)])]

/-- The list comes out as one of the inner struct. -/
theorem Ty.reify_descriptor_shadowed :
    ∃ h D, (Registry.builtins.reify ((Ty.struct 0 "A").descriptor shadowed)).Runs { declarations := shadowed } h D ∧
      (h.ty.descriptor D.declarations == (Ty.struct 0 "A").descriptor shadowed) = false :=
  ⟨_, _, by unfold Making.Runs; cbv, by cbv⟩

def recursive : Declarations where
  next := 1
  finished := [(0, [("left", ⟨.struct 0 "Tree", false, none⟩), ("rest", ⟨.list (.struct 0 "Tree"), false, none⟩)])]

theorem Ty.reify_descriptor_recursive :
    ∃ h D, (Registry.builtins.reify ((Ty.struct 0 "Tree").descriptor recursive)).Runs { declarations := recursive } h D ∧
      h.ty.descriptor D.declarations = (Ty.struct 0 "Tree").descriptor recursive := by
  have hd : recursive.Bounded := Declarations.bounded_of_lt (by decide)
  have ht : (Ty.struct 0 "Tree").WellDeclared recursive :=
    Ty.wellDeclared_of_subset [(0, "Tree")] (by decide) (by decide) (by decide)
  obtain ⟨h, D, hruns, hiff⟩ := Ty.reify_descriptor_iff hd ht
  exact ⟨h, D, hruns, hiff.mpr (by unfold Form.Faithful; cbv)⟩

end TypedTemplate
