import TypedTemplate.Proofs.Choice.OpenText
import TypedTemplate.Proofs.Decimal.Reading
import TypedTemplate.Proofs.Object.Inert
import TypedTemplate.Proofs.Object.Inhabits
import TypedTemplate.Proofs.Object.MapLookup
import TypedTemplate.Proofs.Object.Missing
import TypedTemplate.Proofs.Template.Unbound

/-!
# Reloading what was dumped

What an object comes to without leaving references is canonical: its scalars are as its type converts them, and its
fields are those that are declared, in their order. The plain data of a canonical object make an object with the same
plain data again: scalars that are converted already stay as they are, keys are read back from their texts, and
fields are assigned where they were.
-/

namespace TypedTemplate

/-! ## Placeholders in plain data -/

namespace Value

mutual

/-- Whether a placeholder stands in a text of the value, or in the key of a mapping. -/
def holdsPlaceholder : Value → Bool
  | scalar (.string text) => hasPlaceholder text
  | scalar _ => false
  | sequence elements => elementsHoldPlaceholder elements
  | mapping entries => entriesHoldPlaceholder entries

def elementsHoldPlaceholder : List Value → Bool
  | [] => false
  | v :: rest => v.holdsPlaceholder || elementsHoldPlaceholder rest

def entriesHoldPlaceholder : List (String × Value) → Bool
  | [] => false
  | (k, v) :: rest => hasPlaceholder k || v.holdsPlaceholder || entriesHoldPlaceholder rest

end

theorem holdsPlaceholder_sequence {vs : List Value} :
    (sequence vs).holdsPlaceholder = false ↔ ∀ v ∈ vs, v.holdsPlaceholder = false := by
  rw [holdsPlaceholder]
  induction vs with
  | nil => simp [elementsHoldPlaceholder]
  | cons v rest ih => simp [elementsHoldPlaceholder, ih]

theorem holdsPlaceholder_mapping {entries : List (String × Value)} : (mapping entries).holdsPlaceholder = false ↔
    ∀ entry ∈ entries, hasPlaceholder entry.1 = false ∧ entry.2.holdsPlaceholder = false := by
  rw [holdsPlaceholder]
  induction entries with
  | nil => simp [entriesHoldPlaceholder]
  | cons entry rest ih => simp [entriesHoldPlaceholder, ih, and_assoc]

end Value

variable {d : Declarations}

namespace Ty

/-! ## Types whose values can be reloaded -/

/-- The values of the type are read back from their texts: those of texts, integers, truth values and enumerations. -/
def isReadable : Ty → Bool
  | string | integer | boolean | enum .. => true
  | _ => false

/-- The second type is the first one or stands in it, perhaps in the fields of a struct. -/
inductive Contains (d : Declarations) : Ty → Ty → Prop
  | self {t} : Contains d t t
  | element {t u} : Contains d t u → Contains d (.list t) u
  | key {k v u} : Contains d k u → Contains d (.map k v) u
  | value {k v u} : Contains d v u → Contains d (.map k v) u
  | field {id name entry u} : entry ∈ d.fields id → Contains d entry.2.ty u → Contains d (.struct id name) u
  | alternative {name alternatives t u} : t ∈ alternatives → Contains d t u → Contains d (.choice name alternatives) u

theorem Contains.trans {s t u : Ty} (h : s.Contains d t) (h' : t.Contains d u) : s.Contains d u := by
  induction h with
  | self => exact h'
  | element _ ih => exact .element (ih h')
  | key _ ih => exact .key (ih h')
  | value _ ih => exact .value (ih h')
  | field hentry _ ih => exact .field hentry (ih h')
  | alternative hm _ ih => exact .alternative hm (ih h')

/-- There are no choices in the type, the keys of its maps are read back from their texts, and no field of its structs
comes twice or has a default. -/
structure Reloadable (d : Declarations) (t : Ty) : Prop where
  noChoice : ∀ name alternatives, ¬ t.Contains d (.choice name alternatives)
  keys : ∀ key value, t.Contains d (.map key value) → key.isReadable = true
  nodup : ∀ id name, t.Contains d (.struct id name) → ((d.fields id).map Prod.fst).Nodup
  noDefault : ∀ id name, t.Contains d (.struct id name) → ∀ entry ∈ d.fields id, entry.2.default = none

theorem Reloadable.of_contains {t u : Ty} (h : t.Reloadable d) (hu : t.Contains d u) : u.Reloadable d where
  noChoice name alternatives hc := h.noChoice name alternatives (hu.trans hc)
  keys key value hc := h.keys key value (hu.trans hc)
  nodup id name hc := h.nodup id name (hu.trans hc)
  noDefault id name hc := h.noDefault id name (hu.trans hc)

/-- There are no choices in the type, and the keys of its maps are read back from their texts; the fields of structs are
left aside. -/
def isReloadable : Ty → Bool
  | list t => t.isReloadable
  | map k v => k.isReadable && v.isReloadable
  | choice .. => false
  | _ => true

theorem Contains.isReloadable {t u : Ty} (h : t.Contains d u) (ht : t.isReloadable = true)
    (hd : ∀ id, ∀ entry ∈ d.fields id, entry.2.ty.isReloadable = true) : u.isReloadable = true := by
  induction h with
  | self => exact ht
  | element _ ih => exact ih ht
  | @key k v _ _ ih =>
      rw [Ty.isReloadable, Bool.and_eq_true] at ht
      cases k with
      | string | integer | boolean | enum => exact ih rfl
      | float | list | map | struct | choice => cases ht.1
  | value _ ih =>
      rw [Ty.isReloadable, Bool.and_eq_true] at ht
      exact ih ht.2
  | field hentry _ ih => exact ih (hd _ _ hentry)
  | alternative => cases ht

/-- It is enough to look at the type and at all fields that are declared. -/
theorem reloadable_of_isReloadable {t : Ty} (ht : t.isReloadable = true)
    (hd : ∀ entry ∈ d.finished, (entry.2.map Prod.fst).Nodup ∧
      ∀ field ∈ entry.2, field.2.ty.isReloadable = true ∧ field.2.default = none) : t.Reloadable d := by
  have hfields : ∀ id, ∀ entry ∈ d.fields id, entry.2.ty.isReloadable = true ∧ entry.2.default = none := by
    intro id entry hentry
    obtain ⟨fields, hfields⟩ := Declarations.finished_of_mem hentry
    rw [Declarations.fields, hfields] at hentry
    exact (hd _ (Entries.mem_of_find? hfields)).2 entry hentry
  have hcontains : ∀ u, t.Contains d u → u.isReloadable = true :=
    fun u hu => hu.isReloadable ht fun id entry he => (hfields id entry he).1
  constructor
  · intro name alternatives hc
    cases hcontains _ hc
  · intro key value hc
    have hmap := hcontains _ hc
    rw [isReloadable, Bool.and_eq_true] at hmap
    exact hmap.1
  · exact fun id _ _ => Declarations.nodup_fields (fun entry he => (hd entry he).1) id
  · exact fun id _ _ entry he => (hfields id entry he).2

/-! ## Scalars -/

/-- What was converted stays as it is. -/
theorem coerce_coerce {t : Ty} {s s' : Scalar} (h : t.coerce s = .ok s') : t.coerce s' = .ok s' := by
  cases coerce_inhabits (d := {}) h with
  | string | integer | float | boolean => rfl
  | enum hm => simp [coerce, hm]
  | choice => cases h

/-- What was converted is read back from its text. -/
theorem coerce_toString {t : Ty} (ht : t.isReadable = true) {s : Scalar} (h : t.coerce s = .ok s) :
    t.coerce (.string s.toString) = .ok s := by
  cases coerce_inhabits (d := {}) h with
  | string => rfl
  | integer => simp [coerce, Scalar.asInteger?, Scalar.toString, Decimal.int64?_integerText]
  | float => cases ht
  | @boolean b => cases b <;> decide
  | enum hm => simp [coerce, Scalar.toString, hm]
  | choice => cases ht

theorem construct_scalar {t : Ty} {s s' : Scalar} (h : t.coerce s = .ok s')
    (hplain : (Value.scalar s).holdsPlaceholder = false) :
    t.construct d (Value.scalar s).toInput = .ok (.ofPayload t (.scalar s')) := by
  have hconstruct : t.construct d (Value.scalar s).toInput = t.constructScalar s := by
    cases t with
    | list | map | struct | choice => cases h
    | _ => simp only [Value.toInput, construct, constructDraft]
  rw [hconstruct]
  unfold constructScalar
  split
  · rw [Value.holdsPlaceholder] at hplain
    rw [hplain, h]
    rfl
  · rw [h]
    rfl

/-- A scalar is refused because it cannot be converted, or because a placeholder in it cannot be read. -/
theorem constructScalar_error {t : Ty} {s : Scalar} {e : Error} (h : t.constructScalar s = .error e) :
    (∃ cause, e = { Error.typeCoercion s.toString t.name with cause := cause }) ∨
      (Value.scalar s).holdsPlaceholder = true ∧
        ∃ address cause, e = { Error.invalidRef address with cause := cause } := by
  unfold constructScalar at h
  split at h
  · split at h
    · rename_i text hplaceholder
      rcases Except.bind_error h with h | ⟨_, -, h⟩
      · exact .inr ⟨by rwa [Value.holdsPlaceholder], Fragment.ofPieces_error h⟩
      · cases h
    · rcases Except.bind_error h with h | ⟨_, -, h⟩
      · exact .inl (coerce_error h)
      · cases h
  · rcases Except.bind_error h with h | ⟨_, -, h⟩
    · exact .inl (coerce_error h)
    · cases h

end Ty

/-! ## Canonical objects -/

/-- The object is one that plain data without placeholders make: its scalars are as its type converts them, and its
fields are those that are declared, in their order. -/
inductive Object.Canonical (d : Declarations) : Ty → Object → Prop
  | scalar {t s} : t.coerce s = .ok s → Canonical d t (.ofPayload t (.scalar s))
  | list {element elements} : (∀ o ∈ elements, Canonical d element o) →
      Canonical d (.list element) (.ofPayload (.list element) (.list elements))
  | map {key value pairs} : (∀ k v, (k, v) ∈ pairs → Canonical d key k) →
      (∀ k v, (k, v) ∈ pairs → Canonical d value v) →
      Canonical d (.map key value) (.ofPayload (.map key value) (.map pairs))
  | struct {id name fields} : fields.map Prod.fst = (d.fields id).map Prod.fst →
      (∀ field o f, (field, some o) ∈ fields → Entries.find? field (d.fields id) = some f → Canonical d f.ty o) →
      Canonical d (.struct id name) (.ofPayload (.struct id name) (.struct fields))

namespace Object

theorem Canonical.inert {t : Ty} {o : Object} (h : o.Canonical d t) : o.Inert := by
  induction h with
  | scalar _ => exact .scalar
  | list _ ih => exact .list ih
  | map _ _ ihk ihv => exact .map ihk ihv
  | struct hnames _ ih =>
      refine .struct fun field o hm => ?_
      have hfield : field ∈ (d.fields _).map Prod.fst := hnames ▸ List.mem_map.mpr ⟨_, hm, rfl⟩
      obtain ⟨f, hf⟩ := Entries.exists_find?_of_mem hfield
      exact ih field o f hm hf

/-- What the object comes to, if nothing is left of it, is canonical. -/
def ComesCanonical (d : Declarations) (eval : Nat → Object → Interpolated) (depth : Nat) (t : Ty) (o : Object) : Prop :=
  t.Reloadable d → ∀ {outer r}, interpolateIn d eval depth outer o = .ok (r, []) → r.Canonical d t

/-- The fields are those that are declared, in their order, and come to what is canonical where there are no defaults. -/
structure FieldsComeCanonical (d : Declarations) (eval : Nat → Object → Interpolated) (depth : Nat) (id : StructId)
    (fields : List (String × Option Object)) : Prop where
  names : fields.map Prod.fst = (d.fields id).map Prod.fst
  comes : (∀ entry ∈ d.fields id, entry.2.default = none) → ∀ field o f, (field, some o) ∈ fields →
    Entries.find? field (d.fields id) = some f → ComesCanonical d eval depth f.ty o

/-- What is constructed of plain data comes to canonical objects. -/
theorem assembles_comesCanonical (eval : Nat → Object → Interpolated) (depth : Nat) :
    Ty.Assembles d (fun _ => False) (ComesCanonical d eval depth) (FieldsComeCanonical d eval depth) where
  scalar := by
    intro t s o _ h _ outer r hr
    rcases Ty.constructScalar_ok h with ⟨s', hs', rfl⟩ | ⟨text, rfl⟩
    · obtain rfl := interpolateIn_scalar hr
      exact .scalar (Ty.coerce_coerce hs')
    · rcases interpolateIn_template hr with ⟨_, s', hs', rfl⟩ | ⟨_, -, hrefs⟩
      · exact .scalar (Ty.coerce_coerce hs')
      · exact absurd rfl hrefs
  list := by
    intro element elements h ht outer r hr
    obtain ⟨others, rfl, hothers⟩ := interpolateIn_list hr
    refine .list fun r hr => ?_
    obtain ⟨o, ho, hcomes⟩ := Entries.exists_of_forall₂_right hothers hr
    exact h o ho (ht.of_contains (.element .self)) hcomes.eq_ok
  map := by
    intro key value pairs h ht outer r hr
    obtain ⟨others, rfl, hothers⟩ := interpolateIn_map hr
    have hpair : ∀ k v, (k, v) ∈ others → k.Canonical d key ∧ v.Canonical d value := by
      intro k v hm
      obtain ⟨⟨k', v'⟩, hm', hk, hv⟩ := Entries.exists_of_forall₂_right hothers hm
      obtain ⟨hkey, hvalue⟩ := h k' v' hm'
      exact ⟨hkey (ht.of_contains (.key .self)) hk.eq_ok, hvalue (ht.of_contains (.value .self)) hv.eq_ok⟩
    exact .map (fun k v hm => (hpair k v hm).1) fun k v hm => (hpair k v hm).2
  defaults id := by
    refine ⟨by simp [Ty.defaults, Function.comp_def], fun hnone field o f hm _ => ?_⟩
    obtain ⟨entry, hentry, heq⟩ := List.mem_map.mp hm
    have hdefault : entry.2.default = some o := (Prod.mk.inj heq).2
    rw [hnone entry hentry] at hdefault
    cases hdefault
  insert := by
    intro id fields name f value hfields hf hvalue
    have hname : name ∈ fields.map Prod.fst := hfields.names ▸ List.mem_map.mpr ⟨_, Entries.mem_of_find? hf, rfl⟩
    refine ⟨(Entries.map_fst_insert value hname).trans hfields.names, fun hnone field o f' hm hf' => ?_⟩
    rcases Entries.eq_or_mem_of_mem_insert hm with heq | hm
    · cases heq
      obtain rfl : f = f' := Option.some.inj (hf.symm.trans hf')
      exact hvalue o rfl
    · exact hfields.comes hnone field o f' hm hf'
  struct := by
    intro id name fields hfields ht outer r hr
    obtain ⟨others, rfl, hothers⟩ := interpolateIn_struct hr
    refine .struct ((Entries.map_fst_forall₂ hothers).symm.trans hfields.names) fun field o f hm hf => ?_
    obtain ⟨⟨field', value⟩, hm', heq, hvalue⟩ := Entries.exists_of_forall₂_right hothers hm
    obtain rfl : field' = field := heq
    cases hvalue with
    | some hcomes =>
        exact hfields.comes (ht.noDefault id name .self) field' _ f hm' hf
          (ht.of_contains (.field (Entries.mem_of_find? hf) .self)) hcomes.eq_ok
  draft _ ht := absurd .self (ht.noChoice _ _)
  typed h := h.elim

end Object

/-! ## Reloading -/

/-- The type makes a canonical object of the plain value, from which the value is read off again. -/
def Ty.Restores (d : Declarations) (t : Ty) (v : Value) : Prop :=
  ∃ o, t.construct d v.toInput = .ok o ∧ o.Canonical d t ∧ o.toValue = v

namespace Ty

theorem restores_scalar {t : Ty} {s : Scalar} (h : t.coerce s = .ok s)
    (hplain : (Value.scalar s).holdsPlaceholder = false) : t.Restores d (.scalar s) :=
  ⟨_, construct_scalar h hplain, .scalar h, rfl⟩

theorem constructElements_restores {element : Ty} {vs : List Value} (h : ∀ v ∈ vs, element.Restores d v) (i : Nat) :
    ∃ os, constructElements d element i (elementInputs vs) = .ok os ∧ (∀ o ∈ os, o.Canonical d element) ∧
      elementValues os = vs := by
  induction vs generalizing i with
  | nil => exact ⟨[], rfl, by simp, rfl⟩
  | cons v rest ih =>
      rw [List.forall_mem_cons] at h
      obtain ⟨o, ho, hcanonical, rfl⟩ := h.1
      obtain ⟨os, hos, hrest, rfl⟩ := ih h.2 (i + 1)
      refine ⟨o :: os, ?_, List.forall_mem_cons.mpr ⟨hcanonical, hrest⟩, rfl⟩
      rw [elementInputs, constructElements, ho, hos]
      rfl

theorem restores_sequence {element : Ty} {vs : List Value} (h : ∀ v ∈ vs, element.Restores d v) :
    (list element).Restores d (.sequence vs) := by
  obtain ⟨os, hos, hcanonical, rfl⟩ := constructElements_restores h 0
  refine ⟨_, ?_, .list hcanonical, rfl⟩
  rw [Value.toInput, construct, constructDraft, hos]
  rfl

/-- The type makes a canonical object of the key, which has the key as its text. -/
def RestoresKey (d : Declarations) (t : Ty) (key : String) : Prop :=
  ∃ o, t.construct d (.ofText key) = .ok o ∧ o.Canonical d t ∧ o.toString = key

theorem constructPairs_restores {key value : Ty} {entries : List (String × Value)}
    (h : ∀ entry ∈ entries, key.RestoresKey d entry.1 ∧ value.Restores d entry.2) :
    ∃ pairs, constructPairs d key value (entryInputs entries) = .ok pairs ∧
      (∀ k v, (k, v) ∈ pairs → k.Canonical d key ∧ v.Canonical d value) ∧ pairValues pairs = entries := by
  induction entries with
  | nil => exact ⟨[], rfl, by simp, rfl⟩
  | cons entry rest ih =>
      obtain ⟨text, v⟩ := entry
      rw [List.forall_mem_cons] at h
      obtain ⟨⟨⟨k, hk, hkey, rfl⟩, o, ho, hvalue, rfl⟩, hrest⟩ := h
      obtain ⟨pairs, hpairs, hcanonical, rfl⟩ := ih hrest
      refine ⟨(k, o) :: pairs, ?_, fun k' v' hm => ?_, rfl⟩
      · rw [Input.ofText] at hk
        rw [entryInputs, constructPairs, hk, ho, hpairs]
        rfl
      · rcases List.mem_cons.mp hm with heq | hm
        · cases heq
          exact ⟨hkey, hvalue⟩
        · exact hcanonical k' v' hm

theorem restores_mapping {key value : Ty} {entries : List (String × Value)}
    (h : ∀ entry ∈ entries, key.RestoresKey d entry.1 ∧ value.Restores d entry.2)
    (hnodup : (entries.map Prod.fst).Nodup) : (map key value).Restores d (.mapping entries) := by
  obtain ⟨pairs, hpairs, hcanonical, rfl⟩ := constructPairs_restores h
  refine ⟨_, ?_, .map (fun k v hm => (hcanonical k v hm).1) fun k v hm => (hcanonical k v hm).2, ?_⟩
  · rw [Value.toInput, construct, constructDraft, hpairs]
    rfl
  · simp only [Object.ofPayload, Object.toValue, Payload.toValue, Entries.ofList_of_nodup hnodup]

theorem toInput_ne_empty (v : Value) : v.toInput ≠ .draft .empty := by
  cases v <;> simp [Value.toInput]

/-- Assigning the values of the fields that are left to those that are still empty gives the fields back. -/
theorem assign_restores {t : Ty} {declared : List (String × Field)} (hnodup : (declared.map Prod.fst).Nodup)
    {fields : List (String × Option Object)} (done : List (String × Option Object))
    (hnames : (done ++ fields).map Prod.fst = declared.map Prod.fst)
    (h : ∀ field o f, (field, some o) ∈ fields → Entries.find? field declared = some f → f.ty.Restores d o.toValue) :
    ∃ others, assign d t declared (done ++ fields.map fun field => (field.1, none)) (entryInputs (fieldValues fields)) =
        .ok (done ++ others) ∧ others.map Prod.fst = fields.map Prod.fst ∧
      (∀ field o f, (field, some o) ∈ others → Entries.find? field declared = some f → o.Canonical d f.ty) ∧
      fieldValues others = fieldValues fields := by
  induction fields generalizing done with
  | nil => exact ⟨[], rfl, rfl, by simp, rfl⟩
  | cons field rest ih =>
      obtain ⟨name, value⟩ := field
      have hrest := fun field o f hm => h field o f (List.mem_cons_of_mem _ hm)
      have hdone : ∀ first : Option Object,
          ((done ++ [(name, first)]) ++ rest).map Prod.fst = declared.map Prod.fst := by
        intro first
        simpa using hnames
      cases value with
      | none =>
          obtain ⟨others, hothers, hmap, hcanonical, hvalues⟩ := ih (done ++ [(name, none)]) (hdone none) hrest
          refine ⟨(name, none) :: others, ?_, by simp [hmap], fun field o f hm hf => ?_, ?_⟩
          · simpa [fieldValues] using hothers
          · exact hcanonical field o f ((List.mem_cons.mp hm).resolve_left (by simp)) hf
          · rw [fieldValues, fieldValues, hvalues]
      | some o =>
          have hname : name ∈ declared.map Prod.fst := hnames ▸ by simp
          obtain ⟨f, hf⟩ := Entries.exists_find?_of_mem hname
          obtain ⟨o', ho', hcanonical', hvalue⟩ := h name o f (by simp) hf
          obtain ⟨others, hothers, hmap, hcanonical, hvalues⟩ := ih (done ++ [(name, some o')]) (hdone _) hrest
          refine ⟨(name, some o') :: others, ?_, by simp [hmap], fun field p g hm hg => ?_, ?_⟩
          · have hfresh : name ∉ done.map Prod.fst := by
              rw [← hnames, List.map_append, List.map_cons, List.nodup_append] at hnodup
              exact fun hm => hnodup.2.2 _ hm _ (by simp) rfl
            rw [fieldValues, entryInputs, List.map_cons,
              assign.eq_3 d t declared _ _ _ _ (toInput_ne_empty o.toValue)]
            simp only [fieldName, bind, Except.bind, hf, ho', atPath, Entries.insert_append_cons hfresh]
            simpa using hothers
          · rcases List.mem_cons.mp hm with heq | hm
            · cases heq
              obtain rfl : f = g := Option.some.inj (hf.symm.trans hg)
              exact hcanonical'
            · exact hcanonical field p g hm hg
          · rw [fieldValues, fieldValues, hvalue, hvalues]

theorem restores_struct {id : StructId} {name : String} {fields : List (String × Option Object)}
    (hnames : fields.map Prod.fst = (d.fields id).map Prod.fst) (hnodup : ((d.fields id).map Prod.fst).Nodup)
    (hnone : ∀ entry ∈ d.fields id, entry.2.default = none)
    (h : ∀ field o f, (field, some o) ∈ fields → Entries.find? field (d.fields id) = some f →
      f.ty.Restores d o.toValue) : (struct id name).Restores d (.mapping (fieldValues fields)) := by
  obtain ⟨others, hothers, hmap, hcanonical, hvalues⟩ := assign_restores (t := struct id name) hnodup [] hnames h
  have hdefaults : defaults (d.fields id) = fields.map fun field => (field.1, none) := by
    calc defaults (d.fields id)
        = (d.fields id).map fun entry => (entry.1, none) :=
          List.map_congr_left fun entry he => Prod.ext rfl (hnone entry he)
      _ = ((d.fields id).map Prod.fst).map fun name => (name, none) := by rw [List.map_map]; rfl
      _ = fields.map fun field => (field.1, none) := by rw [← hnames, List.map_map]; rfl
  refine ⟨_, ?_, .struct (hmap.trans hnames) hcanonical, ?_⟩
  · rw [List.nil_append, List.nil_append, ← hdefaults] at hothers
    simp only [Value.toInput, construct, constructDraft, hothers]
    rfl
  · simp only [Object.ofPayload, Object.toValue, Payload.toValue, hvalues]

end Ty

namespace Object

theorem Canonical.restoresKey {key : Ty} {k : Object} (h : k.Canonical d key) (hkey : key.isReadable = true)
    (hplain : hasPlaceholder k.toString = false) : key.RestoresKey d k.toString := by
  cases h with
  | @scalar _ s hs =>
      have htext : (ofPayload key (.scalar s)).toString = s.toString := by simp only [ofPayload, toString]
      rw [htext] at hplain ⊢
      exact ⟨_, Ty.construct_scalar (Ty.coerce_toString hkey hs) hplain, .scalar hs, htext⟩
  | list | map | struct => cases hkey

/-- The plain data of a canonical object make such an object again, as long as there are no placeholders in them. -/
theorem Canonical.restores {t : Ty} {o : Object} (h : o.Canonical d t) (ht : t.Reloadable d)
    (hplain : o.toValue.holdsPlaceholder = false) : t.Restores d o.toValue := by
  induction h with
  | scalar hs => exact Ty.restores_scalar hs hplain
  | list _ ih =>
      simp only [ofPayload, toValue, Payload.toValue] at hplain ⊢
      refine Ty.restores_sequence fun v hv => ?_
      have hvplain := Value.holdsPlaceholder_sequence.mp hplain v hv
      obtain ⟨o, ho, rfl⟩ := mem_elementValues hv
      exact ih o ho (ht.of_contains (.element .self)) hvplain
  | @map key value pairs hkeys _ _ ih =>
      simp only [ofPayload, toValue, Payload.toValue] at hplain ⊢
      refine Ty.restores_mapping (fun entry he => ?_) (Entries.nodup_ofList _)
      obtain ⟨hkplain, hvplain⟩ := Value.holdsPlaceholder_mapping.mp hplain entry he
      obtain ⟨text, v⟩ := entry
      obtain ⟨⟨k, o⟩, hm, rfl, rfl⟩ := mem_pairValues (Entries.mem_of_mem_ofList he)
      exact ⟨(hkeys k o hm).restoresKey (ht.keys key value .self) hkplain,
        ih k o hm (ht.of_contains (.value .self)) hvplain⟩
  | @struct id name fields hnames _ ih =>
      simp only [ofPayload, toValue, Payload.toValue] at hplain ⊢
      refine Ty.restores_struct hnames (ht.nodup id name .self) (ht.noDefault id name .self) fun field o f hm hf => ?_
      have hentry : (field, o.toValue) ∈ fieldValues fields := mem_fieldValues_of_mem hm
      exact ih field o f hm hf (ht.of_contains (.field (Entries.mem_of_find? hf) .self))
        (Value.holdsPlaceholder_mapping.mp hplain _ hentry).2

theorem interpolate_bindAll_of_construct {t : Ty} {w : Value} {o : Object} (ho : t.construct d w.toInput = .ok o)
    (scopes : List Scope) : (o.bindAll scopes).interpolate d =
      interpolateIn d (interpolateWithin d (budget - 1)) 0 scopes.reverse o := by
  have hscopes : o.scopes = [] := by
    cases w <;> exact congrArg Object.scopes (Ty.constructDraft_payload ho).1
  rw [bindAll_of_scopes hscopes, interpolate_inScopeAll]

/-- What is dumped of an object that was constructed from a plain value, bound to any scopes, makes an object from which
the same is dumped, if no placeholders are left in it. -/
theorem get_reload {t : Ty} (ht : t.Reloadable d) {w : Value} {o : Object} (ho : t.construct d w.toInput = .ok o)
    {scopes : List Scope} {v : Value} (hv : (o.bindAll scopes).get d = .ok v) (hplain : v.holdsPlaceholder = false) :
    ∃ o', t.construct d v.toInput = .ok o' ∧ o'.get d = .ok v := by
  obtain ⟨resolved, hresolved, rfl⟩ := get_eq_ok_iff.mp hv
  rw [interpolate_bindAll_of_construct ho] at hresolved
  have hcomes : ComesCanonical d (interpolateWithin d (budget - 1)) 0 t o :=
    (assembles_comesCanonical _ _).of_construct t _ (by simp [Value.toInput_objects]) ho
  obtain ⟨o', ho', hcanonical, hvalue⟩ := (hcomes ht hresolved).restores ht hplain
  have hself : o'.interpolate d = .ok (o', []) := by rw [interpolate_eq, hcanonical.inert.interpolateIn]
  exact ⟨o', ho', get_eq_ok_iff.mpr ⟨o', hself, hvalue.symm⟩⟩

/-- An account with flags under numbers, and with accounts inside it. -/
def accounts : Declarations where
  next := 1
  finished := [(0, [("name", ⟨.string, true, none⟩), ("flags", ⟨.map .integer .boolean, false, none⟩),
    ("parts", ⟨.list (.struct 0 "Account"), false, none⟩)])]

def accountValue : Value := .mapping [
  ("parts", .sequence [.mapping [("name", .string "\x7b\x7bsuper.name\x7d\x7d!")]]),
  ("flags", .mapping [("\x7b\x7bn\x7d\x7d0", .string "true"), ("+10", .scalar (.integer 0))]),
  ("name", .string "a\x7b\x7bn\x7d\x7d")]

def accountDump : Value := .mapping [("name", .string "a1"), ("flags", .mapping [("10", .scalar (.bool false))]),
  ("parts", .sequence [.mapping [("name", .string "a1!")]])]

/-- Two flags of an account come to stand under one key, which is read back like everything else. -/
theorem get_reload_account : ∃ o o', (Ty.struct 0 "Account").construct accounts accountValue.toInput = .ok o ∧
    (o.bindAll [.environment ⟨[(.ofName "n", .text "1")]⟩]).get accounts = .ok accountDump ∧
    (Ty.struct 0 "Account").construct accounts accountDump.toInput = .ok o' ∧ o'.get accounts = .ok accountDump := by
  have ht : (Ty.struct 0 "Account").Reloadable accounts := Ty.reloadable_of_isReloadable rfl (by decide)
  obtain ⟨o, ho, hget⟩ : ∃ o, (Ty.struct 0 "Account").construct accounts accountValue.toInput = .ok o ∧
      (o.bindAll [.environment ⟨[(.ofName "n", .text "1")]⟩]).get accounts = .ok accountDump := ⟨_, by cbv, by cbv⟩
  obtain ⟨o', ho', hget'⟩ := get_reload ht ho hget (by cbv)
  exact ⟨o, o', ho, hget, ho', hget'⟩

end Object

end TypedTemplate
