import Mathlib
import TypedTemplate.Proofs.Object.Budget
import TypedTemplate.Proofs.Object.Parts
import TypedTemplate.Proofs.Object.Shaped
import TypedTemplate.Proofs.Scope.Lookup
import TypedTemplate.Proofs.Template.Passes

/-!
# What `super` reaches

A struct inside another one sees three kinds of scopes behind `super`: the views that the enclosing struct has of the
scopes bound outside, the enclosing struct itself, and once more the scopes outside. They come in this order, so
that a binding from outside hides the field of the enclosing struct.
-/

namespace TypedTemplate

variable (d : Declarations) (eval : Nat → Object → Interpolated)

/-! ## Views -/

namespace Environment

variable {e : Environment}

/-- No bound reference starts with the name. -/
def Avoids (e : Environment) (name : String) : Prop :=
  ∀ entry ∈ e.table, entry.1.components.head? ≠ some (.dereference name)

theorem get?_under (outer r : Ref) : (e.under outer).get? (outer.concat r) = e.get? r := by
  obtain ⟨table⟩ := e
  unfold get? under
  dsimp only
  induction table with
  | nil => rfl
  | cons entry rest ih =>
      obtain ⟨key, b⟩ := entry
      have hkey : outer.concat key = outer.concat r ↔ key = r := by
        obtain ⟨components⟩ := key
        obtain ⟨components'⟩ := r
        simp [Ref.concat]
      simp only [List.map_cons, Entries.find?, hkey, ih]

theorem text?_under (outer r : Ref) : (e.under outer).text? (outer.concat r) = e.text? r := by
  simp only [text?, get?_under]

theorem TextOnly.under (h : e.TextOnly) (outer : Ref) : (e.under outer).TextOnly := by
  intro entry he
  obtain ⟨⟨key, b⟩, hb, rfl⟩ := List.mem_map.mp he
  obtain ⟨s, hs⟩ := h (key, b) hb
  exact ⟨s, hs⟩

theorem Avoids.text? {name : String} (h : e.Avoids name) (rest : List Component) :
    e.text? ⟨.dereference name :: rest⟩ = none := by
  cases ht : e.text? ⟨.dereference name :: rest⟩ with
  | none => rfl
  | some s => exact absurd rfl (h _ (mem_of_text? ht))

end Environment

def superRef (f : String) : Ref := (Ref.ofName "super").concat (.ofName f)

/-- The first text that is bound to a reference in a list of environments. -/
def firstText (es : List Environment) (r : Ref) : Option String := es.findSome? (·.text? r)

theorem lookupBy_views {es : List Environment} (h : ∀ e ∈ es, e.TextOnly) {depth : Nat} (hdepth : depth < maxDepth)
    (f : String) (rest : List Scope) :
    lookupBy d eval depth ((es.map Scope.environment).map Scope.asSuper ++ rest) (superRef f) =
      match firstText es (.ofName f) with
      | some s => .ok (some s)
      | none => lookupBy d eval depth rest (superRef f) := by
  induction es with
  | nil => rfl
  | cons e es ih =>
      have htext := ((h e (by simp)).under (.ofName "super")).findBy (r := superRef f) d
        (Object.snapshotBy (eval depth))
      rw [superRef, Environment.text?_under, ← superRef] at htext
      rw [List.map_cons, List.map_cons, List.cons_append, firstText, List.findSome?_cons]
      cases ht : e.text? (.ofName f) with
      | some s =>
          rw [ht] at htext
          rw [lookupBy_cons_ok (s := Scope.asSuper (.environment e)) d eval htext, Binding.renderBy_text eval hdepth]
          rfl
      | none =>
          rw [ht] at htext
          rw [lookupBy_cons_missing (s := Scope.asSuper (.environment e)) d eval htext rfl]
          exact ih fun e he => h e (by simp [he])

/-! ## Fields as bindings -/

theorem mem_fieldBindings {fields : List (String × Option Object)} {entry : Ref × Binding}
    (h : entry ∈ fieldBindings fields) : ∃ name o, entry = (.ofName name, .object o) ∧ (name, some o) ∈ fields := by
  induction fields with
  | nil => cases h
  | cons first rest ih =>
      obtain ⟨name, value⟩ := first
      cases value with
      | none =>
          obtain ⟨name', o, heq, hm⟩ := ih h
          exact ⟨name', o, heq, by simp [hm]⟩
      | some o =>
          rcases List.mem_cons.mp h with rfl | h
          · exact ⟨name, o, rfl, by simp⟩
          · obtain ⟨name', o', heq, hm⟩ := ih h
            exact ⟨name', o', heq, by simp [hm]⟩

theorem find?_fieldBindings {fields : List (String × Option Object)} {name : String} {o : Object}
    (h : Entries.find? name fields = some (some o)) :
    Entries.find? (.ofName name) (fieldBindings fields) = some (.object o) := by
  induction fields with
  | nil => cases h
  | cons first rest ih =>
      obtain ⟨k, value⟩ := first
      by_cases hk : k = name
      · subst hk
        simp only [Entries.find?, ↓reduceIte, Option.some.injEq] at h
        subst h
        simp [fieldBindings, Entries.find?]
      · simp only [Entries.find?, hk, ↓reduceIte] at h
        cases value with
        | none => exact ih h
        | some v => simpa [fieldBindings, Entries.find?, Ref.ofName, hk] using ih h

/-- The struct type declares no field that is named like one of the views. -/
def Declarations.NoViews (id : StructId) : Prop := ∀ entry ∈ d.fields id, entry.1 ≠ "self" ∧ entry.1 ≠ "super"

instance (id : StructId) : Decidable (d.NoViews id) :=
  inferInstanceAs (Decidable (∀ entry ∈ d.fields id, entry.1 ≠ "self" ∧ entry.1 ≠ "super"))

variable {d}

/-- A struct's own scopes miss a reference that begins with none of its values, neither bare nor behind `self`. -/
theorem structScopes_miss_of {fields : List (String × Option Object)} {r : Ref}
    (hself : ∀ name o, (name, some o) ∈ fields → ¬ [.dereference "self", .dereference name] <+: r.components)
    (hbare : ∀ name o, (name, some o) ∈ fields → ¬ [.dereference name] <+: r.components)
    (snapshot : Object → Except Error Value) :
    ∀ s ∈ [Scope.environment ((Environment.mk (fieldBindings fields)).under (.ofName "self")),
      Scope.environment ⟨fieldBindings fields⟩], s.Misses d snapshot r := by
  intro s hs
  simp only [List.mem_cons, List.not_mem_nil, or_false] at hs
  rcases hs with rfl | rfl
  · refine ⟨_, Environment.findBy_of_no_prefix d snapshot fun entry he => ?_, rfl⟩
    obtain ⟨⟨key, b⟩, hb, rfl⟩ := List.mem_map.mp he
    obtain ⟨name, o, heq, hm⟩ := mem_fieldBindings hb
    cases heq
    exact hself name o hm
  · refine ⟨_, Environment.findBy_of_no_prefix d snapshot fun entry he => ?_, rfl⟩
    obtain ⟨name, o, rfl, hm⟩ := mem_fieldBindings he
    exact hbare name o hm

/-- A struct's own scopes miss every reference that begins with another name than those of its fields. -/
theorem structScopes_miss {fields : List (String × Option Object)} {name : String} (hself : name ≠ "self")
    (hfields : ∀ entry ∈ fields, entry.1 ≠ name) (rest : List Component) (snapshot : Object → Except Error Value) :
    ∀ s ∈ [Scope.environment ((Environment.mk (fieldBindings fields)).under (.ofName "self")),
      Scope.environment ⟨fieldBindings fields⟩], s.Misses d snapshot ⟨.dereference name :: rest⟩ := by
  refine structScopes_miss_of (fun field o _ => ?_) (fun field o hm => ?_) snapshot
  · simp [hself.symm]
  · simp [hfields _ hm]

theorem structScopes_miss_super {id : StructId} (hid : d.NoViews id) {fields : List (String × Option Object)}
    (hknown : ∀ entry ∈ fields, (Entries.find? entry.1 (d.fields id)).isSome)
    (snapshot : Object → Except Error Value) (f : String) :
    ∀ s ∈ [Scope.environment ((Environment.mk (fieldBindings fields)).under (.ofName "self")),
      Scope.environment ⟨fieldBindings fields⟩], s.Misses d snapshot (superRef f) := by
  refine structScopes_miss (by decide) (fun entry hm => ?_) [.dereference f] snapshot
  obtain ⟨field, hfield⟩ := Option.isSome_iff_exists.mp (hknown entry hm)
  exact (hid _ (Entries.mem_of_find? hfield)).2

/-- What a field of an inner struct finds behind `super`: a text from outside if there is one, and else the field of
the enclosing struct. -/
theorem lookupBy_super {inner fields : List (String × Option Object)} {cid pid : StructId} (hC : d.NoViews cid)
    (hinner : ∀ entry ∈ inner, (Entries.find? entry.1 (d.fields cid)).isSome) (hP : d.NoViews pid)
    (hfields : ∀ entry ∈ fields, (Entries.find? entry.1 (d.fields pid)).isSome) (es : List Environment)
    (hes : ∀ e ∈ es, e.TextOnly ∧ e.Avoids "super") {f : String} {o : Object}
    (hf : Entries.find? f fields = some (some o)) (depth : Nat) (hdepth : depth < maxDepth) :
    lookupBy d eval depth (structScopes inner (structScopes fields (es.map .environment))) (superRef f) =
      match firstText es (.ofName f) with
      | some s => .ok (some s)
      | none => ((Binding.object o).renderBy eval depth).map some := by
  let own : Environment := ⟨fieldBindings fields⟩
  have hout : ∀ s ∈ es.map Scope.environment, s.Misses d (Object.snapshotBy (eval depth)) (superRef f) := by
    intro s hs
    obtain ⟨e, he, rfl⟩ := List.mem_map.mp hs
    have hfind := (hes e he).1.findBy (r := superRef f) d (Object.snapshotBy (eval depth))
    rw [superRef, Ref.concat, Ref.ofName, List.singleton_append, (hes e he).2.text?] at hfind
    exact ⟨_, hfind, rfl⟩
  have hself : (Scope.environment ((own.under (.ofName "self")).under (.ofName "super"))).Misses d
      (Object.snapshotBy (eval depth)) (superRef f) := by
    refine ⟨_, Environment.findBy_of_no_prefix d _ ?_, rfl⟩
    intro entry he hprefix
    obtain ⟨⟨key, b⟩, hb, rfl⟩ := List.mem_map.mp he
    obtain ⟨⟨key', b'⟩, hb', heq⟩ := List.mem_map.mp hb
    obtain ⟨name, o', heq', -⟩ := mem_fieldBindings hb'
    cases heq'
    cases heq
    exact absurd hprefix.length_le (by simp [Ref.concat, Ref.ofName, superRef])
  have hown : (own.under (.ofName "super")).findBy d (Object.snapshotBy (eval depth)) (superRef f)
      = .ok (.object o) := by
    unfold Environment.findBy
    rw [superRef, Environment.get?_under, Environment.get?, find?_fieldBindings hf]
  have hchain : structScopes inner (structScopes fields (es.map .environment)) =
      [.environment ((Environment.mk (fieldBindings inner)).under (.ofName "self")),
        .environment ⟨fieldBindings inner⟩] ++
      ([.environment (own.under (.ofName "self")), .environment own] ++
      (es.map .environment ++ ((es.map .environment).map Scope.asSuper ++
      (.environment ((own.under (.ofName "self")).under (.ofName "super")) ::
      .environment (own.under (.ofName "super")) ::
      (es.map Scope.environment ++ (es.map Scope.environment).map Scope.asSuper).map Scope.asSuper)))) := by
    simp [structScopes, Scope.asSuper, own]
  -- Up to the views of the scopes outside, all of them miss the reference.
  rw [hchain, lookupBy_append_missing d eval (structScopes_miss_super hC hinner _ f),
    lookupBy_append_missing d eval (structScopes_miss_super hP hfields _ f), lookupBy_append_missing d eval hout,
    lookupBy_views d eval (fun e he => (hes e he).1) hdepth]
  cases firstText es (.ofName f) with
  | some s => rfl
  | none =>
      obtain ⟨e, he, hlookup⟩ := hself
      rw [lookupBy_cons_missing d eval he hlookup, lookupBy_cons_ok (s := .environment _) d eval hown]

/-! ## Rendering a field that mentions `super` -/

namespace Object

/-- The value of a field as it stands. -/
def present? (o : Object) (name : String) : Option Object :=
  match o.payload with
  | .struct fields => (Entries.find? name fields).join
  | _ => none

theorem struct_of_present? {o value : Object} {name : String} (h : o.present? name = some value) :
    ∃ fields, o.payload = .struct fields ∧ Entries.find? name fields = some (some value) := by
  unfold present? at h
  split at h
  · rename_i fields hp
    exact ⟨fields, hp, by simpa [Option.join_eq_some_iff] using h⟩
  · cases h

variable (d)

/-- The texts that an object's own scopes have for references. -/
def lookup (o : Object) : Template.Lookup := lookupBy d (interpolateWithin d (budget - 1)) 0 o.scopes

theorem render_template {o : Object} {text : String} (ht : o.ty = .string) (hp : o.payload = .template text) :
    o.render d = (Template.resolve (o.lookup d) text).map Prod.fst := by
  obtain ⟨ty, payload, scopes, provided⟩ := o
  cases ht
  cases hp
  rw [render, interpolate_eq, interpolateIn, interpolatePayload, List.append_nil, resolveTemplate, lookup]
  cases Template.resolve (lookupBy d (interpolateWithin d (budget - 1)) 0 scopes) text with
  | error e => rfl
  | ok result =>
      obtain ⟨joined, unbound⟩ := result
      cases unbound <;> rfl

theorem render_placeholder {o : Object} {r : Ref} {text : String} (ht : o.ty = .string)
    (hp : o.payload = .template r.placeholder) (hr : Ref.parse r.address = .ok r)
    (hl : o.lookup d r = .ok (some text)) :
    o.render d = (Template.resolveWithin (Template.maxPasses - 1) (o.lookup d) text).map Prod.fst := by
  rw [render_template d ht hp, Template.resolve_eq]
  exact congrArg _ (Template.resolveWithin_placeholder hr hl (Template.maxPasses - 1))

theorem enter_struct {o : Object} {fields : List (String × Option Object)} (h : o.payload = .struct fields) (r : Ref)
    (go : Object → Except Error Object) : enter d r go o = go o := enter_eq d (by rw [h]; rfl) r go

theorem step_struct {o value : Object} {fields : List (String × Option Object)} (h : o.payload = .struct fields)
    {name : String} (hf : Entries.find? name fields = some (some value)) (snapshot : Object → Except Error Value) :
    step d snapshot (.dereference name) o = .ok (value.inScopeAll (structScopes fields o.scopes)) := by
  simp only [step, h, hf]

/-- The field of the inner struct sees its own struct, the enclosing one, and the scopes that are bound outside. -/
theorem find_inner {p co go : Object} {fields inner : List (String × Option Object)} {c g : String}
    (hfields : p.payload = .struct fields) (hc : Entries.find? c fields = some (some co))
    (hinner : co.payload = .struct inner) (hg : Entries.find? g inner = some (some go)) :
    p.find d ⟨[.dereference c, .dereference g]⟩ =
      .ok (go.inScopeAll (structScopes inner (co.scopes ++ structScopes fields p.scopes))) := by
  rw [find, findBy, findFrom.eq_3 _ _ _ _ _ (by simp), enter_struct d hfields, step_struct d hfields hc]
  have hnamable : (co.inScopeAll (structScopes fields p.scopes)).isNamable = true := by
    obtain ⟨ty, payload, scopes, provided⟩ := co
    cases hinner
    rfl
  have hpayload : (co.inScopeAll (structScopes fields p.scopes)).payload = .struct inner := hinner
  simp only [Except.bind, descend, hnamable, ↓reduceIte, findFrom]
  rw [enter_struct d hpayload, step_struct d hpayload hg]
  rfl

variable {d} {p fo co go : Object} {pid cid : StructId} {pname cname f c g : String} {cf gf : Field} {w : Value}
  {s : Scalar} {es : List Environment}

/-- In a struct made from a plain value, a field that mentions a field of the enclosing struct behind `super` comes to
that field exactly if nothing bound outside under its name comes to anything else. -/
theorem find_super_render_iff (hd : d.Plain) (hP : d.NoViews pid) (hC : d.NoViews cid)
    (hcf : Entries.find? c (d.fields pid) = some cf) (hcty : cf.ty = .struct cid cname)
    (hgf : Entries.find? g (d.fields cid) = some gf) (hgty : gf.ty = .string)
    (hp : (Ty.struct pid pname).construct d w.toInput = .ok p)
    (hf : p.present? f = some fo) (hs : fo.payload = .scalar s) (hplain : hasPlaceholder s.toString = false)
    (hc : p.present? c = some co) (hg : co.present? g = some go)
    (htext : go.payload = .template (superRef f).placeholder)
    (hr : Ref.parse (superRef f).address = .ok (superRef f))
    (hes : ∀ e ∈ es, e.TextOnly ∧ e.Avoids "self" ∧ e.Avoids "super") :
    (p.find d (.ofName f)).bind (render d) = .ok s.toString ∧
    ∃ o, (p.bindAll (es.map .environment)).find d ⟨[.dereference c, .dereference g]⟩ = .ok o ∧
      (o.render d = .ok s.toString ↔ ∀ text, firstText es.reverse (.ofName f) = some text →
        ∃ left, Template.resolveWithin (Template.maxPasses - 1) (o.lookup d) text = .ok (s.toString, left)) := by
  have hpplain : p.Plain d (.struct pid pname) := Ty.construct_built hd _ _ (by simp [w.toInput_objects]) hp
  obtain ⟨fields, hfields, hff⟩ := struct_of_present? hf
  obtain ⟨fields', hfields', hcc⟩ := struct_of_present? hc
  obtain rfl : fields = fields' := by simpa [hfields] using hfields'
  obtain ⟨inner, hinner, hgg⟩ := struct_of_present? hg
  have hpf := hpplain.fields hfields
  have hcplain : co.Plain d cf.ty := hpf.built c co cf (Entries.mem_of_find? hcc) hcf
  rw [hcty] at hcplain
  have hcof := hcplain.fields hinner
  have hgplain : go.Plain d gf.ty := hcof.built g go gf (Entries.mem_of_find? hgg) hgf
  constructor
  · rw [find, findBy, Ref.ofName, findFrom, enter_struct d hfields, step_struct d hfields hff]
    exact render_scalar d (by exact hs)
  · refine ⟨_, find_inner d (p := p.bindAll (es.map .environment)) hfields hcc hinner hgg, ?_⟩
    have hchain : (p.bindAll (es.map .environment)).scopes = es.reverse.map .environment := by
      simp [bindAll, hpplain.scopes]
    rw [hcplain.scopes, List.nil_append, hchain]
    generalize ho : go.inScopeAll (structScopes inner (structScopes fields (es.reverse.map .environment))) = o
    have hscopes : o.scopes = structScopes inner (structScopes fields (es.reverse.map .environment)) := by
      simp [← ho, inScopeAll, hgplain.scopes]
    have hfound := lookupBy_super (interpolateWithin d (budget - 1)) hC hcof.known hP hpf.known es.reverse
      (fun e he => ⟨(hes e (by simpa using he)).1, (hes e (by simpa using he)).2.2⟩) hff 0 (by decide)
    rw [← hscopes] at hfound
    have hoty : o.ty = .string := by rw [← ho]; exact hgplain.ty_eq.trans hgty
    have hotext : o.payload = .template (superRef f).placeholder := by rw [← ho]; exact htext
    cases ht : firstText es.reverse (.ofName f) with
    | some text =>
        rw [ht] at hfound
        rw [render_placeholder d hoty hotext hr hfound]
        rw [Except.map_fst_eq_ok]
        simp
    | none =>
        have hrender : (Binding.object fo).renderBy (interpolateWithin d (budget - 1)) 0 = .ok s.toString := by
          obtain ⟨ty, payload, scopes, provided⟩ := fo
          cases hs
          rfl
        rw [ht, hrender] at hfound
        have hsettled : Template.resolveWithin (Template.maxPasses - 1) (o.lookup d) s.toString = .ok (s.toString, []) :=
          Template.resolveWithin_of_noPlaceholder hplain (Template.maxPasses - 2)
        rw [render_placeholder d hoty hotext hr hfound, Except.map_fst_eq_ok]
        simpa using ⟨[], hsettled⟩

def nested : Declarations where
  next := 2
  finished := [
    (0, [("g", ⟨.string, true, none⟩)]),
    (1, [("f", ⟨.string, true, none⟩), ("c", ⟨.struct 0 "C", true, none⟩)])]

def nestedValue : Value :=
  .mapping [("f", .string "inner"), ("c", .mapping [("g", .string "\x7b\x7bsuper.f\x7d\x7d")])]

def nestedText : Object := .ofPayload .string (.template "\x7b\x7bsuper.f\x7d\x7d")

def nestedChild : Object := .ofPayload (.struct 0 "C") (.struct [("g", some nestedText)])

def nestedParent : Object := .ofPayload (.struct 1 "P")
  (.struct [("f", some (.ofPayload .string (.scalar (.string "inner")))), ("c", some nestedChild)])

theorem construct_nested : (Ty.struct 1 "P").construct nested nestedValue.toInput = .ok nestedParent := by cbv

/-- Where the name of the enclosing struct's field is bound outside, `super` reaches that binding instead. -/
theorem find_super_render_outer :
    (nestedParent.find nested (.ofName "f")).bind (render nested) = .ok "inner" ∧
    ((nestedParent.bindAll [.environment ⟨[(.ofName "f", .text "outer")]⟩]).find nested
      ⟨[.dereference "c", .dereference "g"]⟩).bind (render nested) = .ok "outer" :=
  ⟨by cbv, by cbv⟩

theorem nested_plain : nested.Plain := Declarations.built_of_noDefaults (by decide)

theorem find_super_render_elsewhere :
    ∃ o, (nestedParent.bindAll [.environment ⟨[(.ofName "k", .text "outer")]⟩]).find nested
      ⟨[.dereference "c", .dereference "g"]⟩ = .ok o ∧ o.render nested = .ok "inner" := by
  have hf : nestedParent.present? "f" = some (.ofPayload .string (.scalar (.string "inner"))) := rfl
  have hc : nestedParent.present? "c" = some nestedChild := rfl
  have hg : nestedChild.present? "g" = some nestedText := rfl
  have hes : ∀ e ∈ [Environment.mk [(.ofName "k", .text "outer")]],
      e.TextOnly ∧ e.Avoids "self" ∧ e.Avoids "super" := by
    simp [Environment.TextOnly, Environment.Avoids, Ref.ofName]
  obtain ⟨-, o, ho, hiff⟩ := find_super_render_iff nested_plain (by decide) (by decide) rfl rfl rfl rfl construct_nested
    hf rfl (by cbv) hc hg (by cbv) (by cbv) hes
  exact ⟨o, ho, hiff.mpr fun text ht => by cases ht⟩

end Object

end TypedTemplate
