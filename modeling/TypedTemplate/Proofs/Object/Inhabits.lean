import Mathlib
import TypedTemplate.Proofs.Descriptor.Form
import TypedTemplate.Proofs.Object.Parts
import TypedTemplate.Proofs.Object.Shaped

/-!
# The values of a type

Where an object is made from a plain value, what it comes to is a value of its type, whatever it is resolved against:
a scalar is converted when it is constructed, or when nothing is left to resolve in its text, and a choice settles for
what one of its alternatives makes of its draft.
-/

namespace TypedTemplate

variable {d : Declarations}

/-- The value is one of the type. Of maps only the values count, and in a struct any field may be missing. -/
inductive Value.Inhabits (d : Declarations) : Ty → Value → Prop
  | string {s} : Inhabits d .string (.scalar (.string s))
  | integer {i} : Inhabits d .integer (.scalar (.integer i))
  | float {x} : Inhabits d .float (.scalar (.float x))
  | boolean {b} : Inhabits d .boolean (.scalar (.bool b))
  | enum {name values s} : s ∈ values → Inhabits d (.enum name values) (.scalar (.string s))
  | list {element vs} : (∀ v ∈ vs, Inhabits d element v) → Inhabits d (.list element) (.sequence vs)
  | map {key value entries} : (∀ k v, (k, v) ∈ entries → Inhabits d value v) →
      Inhabits d (.map key value) (.mapping entries)
  | struct {id name entries} : (∀ entry ∈ entries, (Entries.find? entry.1 (d.fields id)).isSome) →
      (∀ k v f, (k, v) ∈ entries → Entries.find? k (d.fields id) = some f → Inhabits d f.ty v) →
      Inhabits d (.struct id name) (.mapping entries)
  | choice {name alternatives t v} : t ∈ alternatives → Inhabits d t v → Inhabits d (.choice name alternatives) v

/-- A scalar that has been converted is a value of the type. -/
theorem Ty.coerce_inhabits {t : Ty} {s s' : Scalar} (h : t.coerce s = .ok s') : (Value.scalar s').Inhabits d t := by
  cases t with
  | string =>
      cases hs : s.asText? with
      | none => simp [coerce, hs] at h
      | some text =>
          obtain rfl : .string text = s' := by simpa [coerce, hs] using h
          exact .string
  | integer =>
      cases hs : s.asInteger? with
      | none => simp [coerce, hs] at h
      | some i =>
          obtain rfl : .integer i = s' := by simpa [coerce, hs] using h
          exact .integer
  | float =>
      cases hs : s.asFloat? with
      | none => simp [coerce, hs] at h
      | some x =>
          obtain rfl : .float x = s' := by simpa [coerce, hs] using h
          exact .float
  | boolean =>
      cases hs : s.asBool? with
      | none => simp [coerce, hs] at h
      | some b =>
          obtain rfl : .bool b = s' := by simpa [coerce, hs] using h
          exact .boolean
  | enum name values =>
      cases s with
      | string text =>
          simp only [coerce] at h
          split at h
          · cases h
            exact .enum ‹_›
          · cases h
      | _ => cases h
  | list | map | struct | choice => cases h

namespace Object

/-! ## Plain data in objects -/

theorem mem_elementValues {os : List Object} {v : Value} (h : v ∈ elementValues os) : ∃ o ∈ os, o.toValue = v := by
  induction os with
  | nil => cases h
  | cons o rest ih =>
      rcases List.mem_cons.mp h with rfl | hm
      · exact ⟨o, by simp, rfl⟩
      · obtain ⟨o', hm', hv⟩ := ih hm
        exact ⟨o', by simp [hm'], hv⟩

theorem mem_pairValues {pairs : List (Object × Object)} {k : String} {v : Value} (h : (k, v) ∈ pairValues pairs) :
    ∃ pair ∈ pairs, pair.1.toString = k ∧ pair.2.toValue = v := by
  induction pairs with
  | nil => cases h
  | cons pair rest ih =>
      rcases List.mem_cons.mp h with heq | hm
      · cases heq
        exact ⟨pair, by simp, rfl, rfl⟩
      · obtain ⟨pair', hm', hv⟩ := ih hm
        exact ⟨pair', by simp [hm'], hv⟩

theorem mem_fieldValues {fields : List (String × Option Object)} {name : String} {v : Value}
    (h : (name, v) ∈ fieldValues fields) : ∃ o, (name, some o) ∈ fields ∧ o.toValue = v := by
  induction fields with
  | nil => cases h
  | cons field rest ih =>
      obtain ⟨name', value⟩ := field
      cases value with
      | none =>
          obtain ⟨o, hm, hv⟩ := ih h
          exact ⟨o, by simp [hm], hv⟩
      | some o =>
          rcases List.mem_cons.mp h with heq | hm
          · cases heq
            exact ⟨o, by simp, rfl⟩
          · obtain ⟨o', hm', hv⟩ := ih hm
            exact ⟨o', by simp [hm'], hv⟩

theorem mem_fieldValues_of_mem {fields : List (String × Option Object)} {name : String} {o : Object}
    (h : (name, some o) ∈ fields) : (name, o.toValue) ∈ fieldValues fields := by
  induction fields with
  | nil => cases h
  | cons field rest ih =>
      obtain ⟨name', value⟩ := field
      rcases List.mem_cons.mp h with heq | hm
      · cases heq
        simp [fieldValues]
      · cases value with
        | none => exact ih hm
        | some p => exact List.mem_cons_of_mem _ (ih hm)

end Object

/-! ## Defaults -/

/-- The first declarations are an earlier stage of the second ones. -/
def Declarations.Before (d' d : Declarations) : Prop := ∀ id, d'.fields id = d.fields id ∨ d'.fields id = []

namespace Ty

/-- No struct in the type declares a field twice, and each default was constructed from a plain value by the type of
its field. -/
structure PlainDefaults (d : Declarations) (t : Ty) : Prop where
  nodup : ∀ id name, t.Reaches d id name → ((d.fields id).map Prod.fst).Nodup
  default : ∀ id name entry o, t.Reaches d id name → entry ∈ d.fields id → entry.2.default = some o →
    ∃ (d' : Declarations) (w : Value), d'.Before d ∧ entry.2.ty.construct d' w.toInput = .ok o

theorem plainDefaults_of_noDefaults (t : Ty)
    (h : ∀ entry ∈ d.finished, (entry.2.map Prod.fst).Nodup ∧ ∀ f ∈ entry.2, f.2.default = none) : t.PlainDefaults d := by
  have hd : d.Plain := Declarations.built_of_noDefaults h
  refine ⟨fun id _ _ => hd.nodup id, fun id name entry o _ he ho => ?_⟩
  obtain ⟨fields, hfields⟩ := Declarations.finished_of_mem he
  rw [Declarations.fields, hfields] at he
  rw [(h _ (Entries.mem_of_find? hfields)).2 entry he] at ho
  cases ho

theorem PlainDefaults.of_structs {s t : Ty} (h : t.PlainDefaults d) (hs : ∀ p ∈ s.structs, t.Reaches d p.1 p.2) :
    s.PlainDefaults d := by
  have hreaches : ∀ id name, s.Reaches d id name → t.Reaches d id name := by
    intro id name hid
    induction hid with
    | here hid => exact hs _ hid
    | field _ hentry hinner ih => exact .field ih hentry hinner
  exact ⟨fun id name hid => h.nodup id name (hreaches id name hid),
    fun id name entry o hid => h.default id name entry o (hreaches id name hid)⟩

theorem PlainDefaults.element {t : Ty} (h : (list t).PlainDefaults d) : t.PlainDefaults d :=
  h.of_structs fun _ hp => .here (by simpa only [structs] using hp)

theorem PlainDefaults.key {k v : Ty} (h : (map k v).PlainDefaults d) : k.PlainDefaults d :=
  h.of_structs fun _ hp => .here (by simpa only [structs] using List.mem_append_left _ hp)

theorem PlainDefaults.value {k v : Ty} (h : (map k v).PlainDefaults d) : v.PlainDefaults d :=
  h.of_structs fun _ hp => .here (by simpa only [structs] using List.mem_append_right _ hp)

theorem PlainDefaults.field {id : StructId} {name : String} (h : (struct id name).PlainDefaults d)
    {entry : String × Field} (he : entry ∈ d.fields id) : entry.2.ty.PlainDefaults d := by
  have hid : (struct id name).Reaches d id name := .here (by simp [structs])
  exact h.of_structs fun _ hp => .field hid he hp

theorem PlainDefaults.alternative {name : String} {alternatives : List Ty}
    (h : (choice name alternatives).PlainDefaults d) {t : Ty} (ht : t ∈ alternatives) : t.PlainDefaults d :=
  h.of_structs fun _ hp => .here (by simpa only [structs] using structs_subset_allStructs ht hp)

end Ty

namespace Object

/-! ## Construction -/

/-- The scalars in the object are values of their types. -/
def ScalarsFit (d : Declarations) (o : Object) : Prop :=
  ∀ p, o.Holds p → ∀ s, p.payload = .scalar s → (Value.scalar s).Inhabits d p.ty

theorem ScalarsFit.of_parts {o : Object} (ho : ∀ s, o.payload ≠ .scalar s)
    (hparts : ∀ p ∈ o.payload.parts, p.ScalarsFit d) : o.ScalarsFit d :=
  forall_holds.mpr ⟨fun s hs => absurd hs (ho s), hparts⟩

variable {d' : Declarations} {n : Nat}

/-- What is built at an earlier stage is built at the later one, unless the struct was open then and has no fields. -/
theorem FieldsBuilt.later {Q : Field → Object → Prop} {id : StructId} {fields : List (String × Option Object)}
    (hd' : d'.Before d) (h : ((d'.fields id).map Prod.fst).Nodup → FieldsBuilt Q (d'.fields id) fields)
    (hnodup : ((d.fields id).map Prod.fst).Nodup) : FieldsBuilt Q (d.fields id) fields := by
  rcases hd' id with heq | hnone
  · rw [heq] at h
    exact h hnodup
  · rw [hnone] at h
    have hknown := (h List.nodup_nil).known
    exact ⟨(h List.nodup_nil).nodup, fun entry he => absurd (hknown entry he) (by simp [Entries.find?]),
      fun field o f hm _ => absurd (hknown _ hm) (by simp [Entries.find?])⟩

/-- Construction gives plain objects with fitting scalars, as far as it does in the defaults, which are smaller than
what they stand in. -/
theorem inductive_of_smaller (hd' : d'.Before d) (ih : ∀ (d' : Declarations) (w : Value) (t : Ty) (o : Object),
      d'.Before d → t.PlainDefaults d → t.construct d' w.toInput = .ok o → sizeOf o < n →
      o.Plain d t ∧ o.ScalarsFit d) :
    Ty.Inductive d' (fun _ => False) fun t o => t.PlainDefaults d → sizeOf o < n + 1 →
      o.Plain d t ∧ o.ScalarsFit d where
  scalar := by
    intro t s o ht h _ _
    rcases Ty.constructScalar_ok h with ⟨s', hs', rfl⟩ | ⟨text, rfl⟩
    · refine ⟨.scalar ht, forall_holds.mpr ⟨fun s'' hs'' => ?_, by rintro _ ⟨⟩⟩⟩
      cases hs''
      exact Ty.coerce_inhabits hs'
    · exact ⟨.template ht, .of_parts (by rintro _ ⟨⟩) (by rintro _ ⟨⟩)⟩
  list := by
    intro element elements h ht hsize
    have hparts : ∀ o ∈ elements, o.Plain d element ∧ o.ScalarsFit d := by
      intro o ho
      have hlt : sizeOf o < sizeOf (ofPayload (.list element) (.list elements)) := sizeOf_lt_of_mem_parts ho
      exact h o ho ht.element (Nat.lt_trans hlt hsize)
    exact ⟨.list fun o ho => (hparts o ho).1, .of_parts (by rintro _ ⟨⟩) fun o ho => (hparts o ho).2⟩
  map := by
    intro key value pairs h ht hsize
    have hlt : ∀ k v, (k, v) ∈ pairs → sizeOf k < n + 1 ∧ sizeOf v < n + 1 := by
      intro k v hm
      have hk : sizeOf k < sizeOf (ofPayload (.map key value) (.map pairs)) :=
        sizeOf_lt_of_mem_parts (Payload.mem_parts_map.mpr ⟨k, v, hm, .inl rfl⟩)
      have hv : sizeOf v < sizeOf (ofPayload (.map key value) (.map pairs)) :=
        sizeOf_lt_of_mem_parts (Payload.mem_parts_map.mpr ⟨k, v, hm, .inr rfl⟩)
      exact ⟨Nat.lt_trans hk hsize, Nat.lt_trans hv hsize⟩
    have hkey := fun k v hm => (h k v hm).1 ht.key (hlt k v hm).1
    have hvalue := fun k v hm => (h k v hm).2 ht.value (hlt k v hm).2
    refine ⟨.map (fun k v hm => (hkey k v hm).1) fun k v hm => (hvalue k v hm).1, .of_parts (by rintro _ ⟨⟩) ?_⟩
    intro p hp
    obtain ⟨k, v, hm, rfl | rfl⟩ := Payload.mem_parts_map.mp hp
    · exact (hkey _ v hm).2
    · exact (hvalue k _ hm).2
  struct := by
    intro id name fields h ht hsize
    have hnodup : ((d.fields id).map Prod.fst).Nodup := ht.nodup id name (.here (by simp [Ty.structs]))
    have hfields := FieldsBuilt.later hd' h hnodup
    have hfield : ∀ field o f, (field, some o) ∈ fields → Entries.find? field (d.fields id) = some f →
        o.Plain d f.ty ∧ o.ScalarsFit d := by
      intro field o f hm hf
      have hlt : sizeOf o < sizeOf (ofPayload (.struct id name) (.struct fields)) :=
        sizeOf_lt_of_mem_parts (Payload.mem_parts_struct.mpr ⟨field, hm⟩)
      have hentry := Entries.mem_of_find? hf
      rcases hfields.built field o f hm hf with ho | hdefault
      · exact ho (ht.field hentry) (Nat.lt_trans hlt hsize)
      · obtain ⟨d'', w, hd'', ho⟩ := ht.default id name _ o (.here (by simp [Ty.structs])) hentry hdefault
        exact ih d'' w f.ty o hd'' (ht.field hentry) ho (by omega)
    refine ⟨.struct hfields.nodup hfields.known fun field o f hm hf => (hfield field o f hm hf).1,
      .of_parts (by rintro _ ⟨⟩) fun p hp => ?_⟩
    obtain ⟨field, hm⟩ := Payload.mem_parts_struct.mp hp
    obtain ⟨f, hf⟩ := Option.isSome_iff_exists.mp (hfields.known _ hm)
    exact (hfield field p f hm hf).2
  draft := by
    intro name alternatives draft h _ _
    exact ⟨.draft h, .of_parts (by rintro _ ⟨⟩) (by rintro _ ⟨⟩)⟩
  typed h := h.elim

theorem construct_smaller (n : Nat) : ∀ (d' : Declarations) (w : Value) (t : Ty) (o : Object), d'.Before d →
    t.PlainDefaults d → t.construct d' w.toInput = .ok o → sizeOf o < n → o.Plain d t ∧ o.ScalarsFit d := by
  induction n with
  | zero => exact fun _ _ _ _ _ _ _ hsize => absurd hsize (Nat.not_lt_zero _)
  | succ n ih =>
      intro d' w t o hd' ht h hsize
      exact (inductive_of_smaller hd' ih).of_construct t _ (by simp [Value.toInput_objects]) h ht hsize

/-- What is constructed from a plain value is plain, and its scalars fit. -/
theorem construct_fit {t : Ty} (ht : t.PlainDefaults d) {w : Value} {o : Object} (h : t.construct d w.toInput = .ok o) :
    o.Plain d t ∧ o.ScalarsFit d :=
  construct_smaller (sizeOf o + 1) d w t o (fun _ => .inl rfl) ht h (Nat.lt_succ_self _)

theorem constructDraft_fit {t : Ty} (ht : t.PlainDefaults d) {draft : Draft} (hdraft : ∀ o ∈ draft.objects, False)
    {o : Object} (h : t.constructDraft d draft = .ok o) : o.Plain d t ∧ o.ScalarsFit d :=
  (inductive_of_smaller (fun _ => .inl rfl) (construct_smaller (sizeOf o))).of_draft t draft hdraft h ht
    (Nat.lt_succ_self _)

/-! ## Interpolation -/

/-- Where evaluating a plain object leaves nothing, it gives a value of its type. -/
def Sound (d : Declarations) (eval : Object → Interpolated) : Prop :=
  ∀ (t : Ty) (o : Object) (scopes : List Scope) (r : Object), t.PlainDefaults d → o.Plain d t → o.ScalarsFit d →
    eval (o.inScopeAll scopes) = .ok (r, []) → r.toValue.Inhabits d t

/-- A choice comes to a value of one of its alternatives. -/
theorem settleChoice_inhabits {eval : Object → Interpolated} (heval : Sound d eval) {scopes : List Scope} {t : Ty}
    {draft : Draft} (hdraft : ∀ o ∈ draft.objects, False) {ts : List Ty} (hts : ∀ t ∈ ts, t.PlainDefaults d)
    {r : Object} (h : settleChoice d eval scopes t draft ts = .ok (r, [])) :
    ∃ alternative ∈ ts, r.toValue.Inhabits d alternative := by
  induction ts with
  | nil => cases h
  | cons alternative rest ih =>
      have hrest : settleChoice d eval scopes t draft rest = .ok (r, []) →
          ∃ a ∈ alternative :: rest, r.toValue.Inhabits d a := by
        intro h
        obtain ⟨a, ha, hr⟩ := ih (fun t ht => hts t (by simp [ht])) h
        exact ⟨a, by simp [ha], hr⟩
      simp only [settleChoice] at h
      split at h
      · exact hrest h
      · rename_i candidate hcandidate
        obtain ⟨hplain, hfit⟩ := constructDraft_fit (hts alternative (by simp)) hdraft hcandidate
        split at h
        · rename_i resolved left hresolved
          split at h
          · cases h
          · cases h
            have hr := heval alternative candidate scopes resolved (hts alternative (by simp)) hplain hfit hresolved
            exact ⟨alternative, by simp, by simpa only [ofPayload, toValue, Payload.toValue] using hr⟩
        · split at h
          · exact hrest h
          · cases h

/-- What interpolation comes to when it leaves nothing is a value of the type. -/
theorem interpolateIn_inhabits {eval : Nat → Object → Interpolated} {depth : Nat} (heval : Sound d (eval depth)) {t : Ty}
    {o : Object} (ho : o.Plain d t) (ht : t.PlainDefaults d) (hfit : o.ScalarsFit d) {outer : List Scope} {r : Object}
    (h : interpolateIn d eval depth outer o = .ok (r, [])) : r.toValue.Inhabits d t := by
  induction ho generalizing outer r with
  | scalar _ =>
      obtain rfl := interpolateIn_scalar h
      simpa only [ofPayload, toValue, Payload.toValue] using hfit _ .self _ rfl
  | template _ =>
      rcases interpolateIn_template h with ⟨joined, s, hs, rfl⟩ | ⟨joined, rfl, hleft⟩
      · simpa only [ofPayload, toValue, Payload.toValue] using Ty.coerce_inhabits hs
      · exact absurd rfl hleft
  | @list element elements _ ih =>
      obtain ⟨others, rfl, hothers⟩ := interpolateIn_list h
      simp only [ofPayload, toValue, Payload.toValue]
      refine .list fun v hv => ?_
      obtain ⟨r, hr, rfl⟩ := mem_elementValues hv
      obtain ⟨o, ho, hcomes⟩ := Entries.exists_of_forall₂_right hothers hr
      exact ih o ho ht.element ((forall_holds.mp hfit).2 o ho) hcomes.eq_ok
  | @map key value pairs _ _ _ ihv =>
      obtain ⟨others, rfl, hothers⟩ := interpolateIn_map h
      simp only [ofPayload, toValue, Payload.toValue]
      refine .map fun k v hkv => ?_
      obtain ⟨⟨key', r⟩, hr, -, rfl⟩ := mem_pairValues (Entries.mem_of_mem_ofList hkv)
      obtain ⟨⟨k', o⟩, ho, -, hcomes⟩ := Entries.exists_of_forall₂_right hothers hr
      exact ihv k' o ho ht.value ((forall_holds.mp hfit).2 o (Payload.mem_parts_map.mpr ⟨k', o, ho, .inr rfl⟩))
        hcomes.eq_ok
  | @struct id name fields _ hknown _ ih =>
      obtain ⟨others, rfl, hothers⟩ := interpolateIn_struct h
      simp only [ofPayload, toValue, Payload.toValue]
      have hfrom : ∀ k v, (k, v) ∈ fieldValues others → ∃ o r, (k, some o) ∈ fields ∧ r.toValue = v ∧
          interpolateIn d eval depth (structScopes fields ([] ++ outer)) o = .ok (r, []) := by
        intro k v hkv
        obtain ⟨r, hr, rfl⟩ := mem_fieldValues hkv
        obtain ⟨⟨k', value⟩, ho, rfl, hvalue⟩ := Entries.exists_of_forall₂_right hothers hr
        cases hvalue with
        | @some o _ hcomes => exact ⟨o, r, ho, rfl, hcomes.eq_ok⟩
      refine .struct (fun entry he => ?_) fun k v f hkv hf => ?_
      · obtain ⟨o, r, ho, -, -⟩ := hfrom entry.1 entry.2 he
        exact hknown _ ho
      · obtain ⟨o, r, ho, rfl, hr⟩ := hfrom k v hkv
        exact ih k o f ho hf (ht.field (Entries.mem_of_find? hf))
          ((forall_holds.mp hfit).2 o (Payload.mem_parts_struct.mpr ⟨k, ho⟩)) hr
  | draft hdraft =>
      obtain ⟨left, h, hsubset⟩ := interpolateIn_ok h
      obtain rfl := List.subset_nil.mp hsubset
      obtain ⟨alternative, ha, hr⟩ := settleChoice_inhabits heval hdraft (fun t ht' => ht.alternative ht') h
      exact .choice ha hr
  | same hgiven | settled hgiven => exact hgiven.elim

theorem interpolateWithin_sound (n depth : Nat) : Sound d (interpolateWithin d n depth) := by
  induction n generalizing depth with
  | zero =>
      intro t o scopes r _ _ _ h
      cases h
  | succ n ih =>
      intro t o scopes r ht ho hfit h
      rw [interpolateWithin, interpolateIn_inScopeAll] at h
      exact interpolateIn_inhabits (ih depth) ho ht hfit h

/-- Getting the value of an object that is made from a plain value gives a value of its type, whatever scopes it is
bound to. -/
theorem get_inhabits {t : Ty} (ht : t.PlainDefaults d) {w : Value} {o : Object}
    (ho : t.construct d w.toInput = .ok o) {scopes : List Scope} {v : Value}
    (hv : (o.bindAll scopes).get d = .ok v) : v.Inhabits d t := by
  obtain ⟨⟨r, refs⟩, h, hv⟩ := Except.bind_ok hv
  dsimp only at hv
  split at hv
  · cases hv
    rename_i hrefs
    obtain rfl := List.isEmpty_iff.mp hrefs
    obtain ⟨hplain, hfit⟩ := construct_fit ht ho
    have hbound : o.bindAll scopes = o.inScopeAll scopes.reverse := by simp [bindAll, inScopeAll, hplain.scopes]
    rw [hbound] at h
    exact interpolateWithin_sound budget 0 t o scopes.reverse r ht hplain hfit h
  · cases hv

/-- A server, whose port depends on a number unless it is given, with targets that are numbers or texts. -/
def server : Declarations where
  next := 1
  finished := [
    (0, [("port", ⟨.integer, false, some (.ofPayload .integer (.template "8\x7b\x7bn\x7d\x7d"))⟩),
      ("level", ⟨.enum "Level" ["low", "high"], true, none⟩),
      ("targets", ⟨.list (.choice "Target" [.integer, .string]), true, none⟩)])]

def serverValue : Value := .mapping [("level", .string "\x7b\x7bl\x7d\x7d"),
  ("targets", .sequence [.string "\x7b\x7bn\x7d\x7d", .string "x"])]

def serverScope : Scope := .environment ⟨[(.ofName "n", .text "0"), (.ofName "l", .text "high")]⟩

def serverResult : Value := .mapping [("port", .scalar (.integer 80)), ("level", .string "high"),
  ("targets", .sequence [.scalar (.integer 0), .string "x"])]

/-- A default and an element of a choice become numbers once the number that they mention is bound. -/
theorem get_inhabits_server : ∃ o, (Ty.struct 0 "Server").construct server serverValue.toInput = .ok o ∧
    (o.bindAll [serverScope]).get server = .ok serverResult ∧ serverResult.Inhabits server (.struct 0 "Server") := by
  have ht : (Ty.struct 0 "Server").PlainDefaults server := by
    have hreaches : ∀ id name, (Ty.struct 0 "Server").Reaches server id name → (id, name) = (0, "Server") :=
      fun id name h => List.mem_singleton.mp (Ty.mem_of_reaches (by decide) (by decide) h)
    refine ⟨fun id name h => ?_, fun id name entry o h he ho => ?_⟩
    · cases hreaches id name h
      decide
    · cases hreaches id name h
      have hentry : entry ∈ server.fields 0 := he
      simp only [server, Declarations.fields, Entries.find?, ↓reduceIte, Option.getD_some, List.mem_cons,
        List.not_mem_nil, or_false] at hentry
      rcases hentry with rfl | rfl | rfl
      · cases ho
        exact ⟨server, .string "8\x7b\x7bn\x7d\x7d", fun _ => .inl rfl, by cbv⟩
      · cases ho
      · cases ho
  obtain ⟨o, ho, hget⟩ : ∃ o, (Ty.struct 0 "Server").construct server serverValue.toInput = .ok o ∧
      (o.bindAll [serverScope]).get server = .ok serverResult := ⟨_, by cbv, by cbv⟩
  exact ⟨o, ho, hget, get_inhabits ht ho hget⟩

end Object

end TypedTemplate
