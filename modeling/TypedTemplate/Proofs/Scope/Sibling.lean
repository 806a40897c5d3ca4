import TypedTemplate.Object.Struct
import TypedTemplate.Proofs.Object.FindResolved
import TypedTemplate.Proofs.Object.Inhabits
import TypedTemplate.Proofs.Object.Together
import TypedTemplate.Proofs.Scope.Super

/-!
# What a placeholder makes of a sibling

A field that mentions another field of its struct takes over that field's text as it is without the scopes of the
struct, and resolves what is left of it in its own scopes. A lookup of the same reference goes to the same place, but
hands out the scopes along the way.
-/

namespace TypedTemplate

variable {d : Declarations}

namespace Object

/-! ## Lookup and scopes -/

/-- The objects differ in their scopes alone. -/
def Alike (o o' : Object) : Prop := o.ty = o'.ty ∧ o.payload = o'.payload

theorem alike_inScopeAll (o : Object) (scopes scopes' : List Scope) :
    (o.inScopeAll scopes).Alike (o.inScopeAll scopes') := ⟨rfl, rfl⟩

section

variable {snapshot : Object → Except Error Value}

theorem step_alike {o o' : Object} (h : o.Alike o') (c : Component) :
    Alongside Alike (step d snapshot c o) (step d snapshot c o') := by
  obtain ⟨t, payload, scopes, provided⟩ := o
  obtain ⟨t', payload', scopes', provided'⟩ := o'
  obtain ⟨rfl, rfl⟩ := h
  have hfound (scopes scopes' : List Scope) (p q : Object) (h : p = q) :
      (p.inScopeAll scopes).Alike (q.inScopeAll scopes') := h ▸ p.alike_inScopeAll scopes scopes'
  cases payload with
  | list elements => exact step_list_alongside rfl (List.forall₂_same.mpr fun _ _ => rfl) (hfound _ _) c
  | map pairs =>
      cases t with
      | map keyType valueType =>
          refine step_map_alongside (R := Eq) rfl (fun token => (Together.refl _).imp ?_) (hfound _ _) c
          rintro key _ rfl
          cases findPair d snapshot key pairs with
          | error e => exact .error
          | ok found => exact .ok (Entries.rel_self fun _ _ => rfl)
      | _ => cases c <;> exact .error
  | struct fields =>
      refine step_struct_alongside (R := Eq) rfl ?_ (fun _ p q _ => hfound _ _ p q) c
      exact List.forall₂_same.mpr fun _ _ => ⟨rfl, Entries.rel_self fun _ _ => rfl⟩
  | scalar | template | typed | untyped => cases c <;> exact .error

theorem core_alike (outer outer' : List Scope) : (o : Object) → (o.core outer).Alike (o.core outer')
  | ⟨_, .typed inner, scopes, _⟩ => by
      simp only [core]
      exact core_alike (scopes ++ outer) (scopes ++ outer') inner
  | ⟨_, .scalar _, _, _⟩ | ⟨_, .template _, _, _⟩ | ⟨_, .list _, _, _⟩ | ⟨_, .map _, _, _⟩ | ⟨_, .struct _, _, _⟩
  | ⟨_, .untyped _, _, _⟩ => by
      simp only [core]
      exact ⟨rfl, rfl⟩

theorem Alike.core {o o' : Object} (h : o.Alike o') : (o.core []).Alike (o'.core []) := by
  obtain ⟨t, payload, scopes, provided⟩ := o
  obtain ⟨t', payload', scopes', provided'⟩ := o'
  obtain ⟨rfl, rfl⟩ := h
  cases payload with
  | typed inner =>
      simp only [Object.core]
      exact core_alike _ _ inner
  | _ =>
      simp only [Object.core]
      exact ⟨rfl, rfl⟩

theorem Alike.isNamable {o o' : Object} (h : o.Alike o') : o'.isNamable = o.isNamable := by
  obtain ⟨t, payload, scopes, provided⟩ := o
  obtain ⟨t', payload', scopes', provided'⟩ := o'
  obtain ⟨rfl, rfl⟩ := h
  cases payload <;> simp only [Object.isNamable]

variable {go go' : Object → Except Error Object}

theorem tryAlternatives_alike (hg : ∀ o, Alongside Alike (go o) (go' o)) (missing : Error) (draft : Draft)
    (ts : List Ty) :
    Alongside Alike (tryAlternatives d go missing draft ts) (tryAlternatives d go' missing draft ts) := by
  refine tryAlternatives_alongside (G := (· = ·)) (Ty.alike_eq d) ?_ ?_ missing ts
    (List.forall₂_same.mpr fun _ _ => rfl)
  · rintro t _ rfl
    exact .refl _
  · rintro o _ rfl
    exact hg o

theorem enter_alike (hg : ∀ o o', o.Alike o' → Alongside Alike (go o) (go' o')) (r : Ref) {o o' : Object}
    (h : o.Alike o') : Alongside Alike (enter d r go o) (enter d r go' o') := by
  unfold enter
  obtain ⟨hty, hpayload⟩ := h.core
  dsimp only
  rw [typeName, typeName, ← hty, ← hpayload]
  split
  · exact tryAlternatives_alike (fun candidate => hg _ _ (alike_inScopeAll candidate _ _)) _ _ _
  · exact hg _ _ ⟨hty, hpayload⟩

theorem findNothing_alike {o o' : Object} (h : o.Alike o') : Alongside Alike o.findNothing o'.findNothing := by
  obtain ⟨e, he⟩ := o.findNothing_error
  have heq : o'.findNothing = o.findNothing := by
    unfold findNothing
    rw [typeName, typeName, ← h.1, ← h.2]
  rw [heq, he]
  exact .error

/-- What a lookup finds does not depend on scopes, but for the scopes that it is seen through. -/
theorem findFrom_alike (path : List Component) {o o' : Object} (h : o.Alike o') :
    Alongside Alike (findFrom d snapshot path o) (findFrom d snapshot path o') := by
  induction path generalizing o o' with
  | nil =>
      simp only [findFrom]
      exact enter_alike (fun _ _ h => findNothing_alike h) _ h
  | cons c rest ih =>
      cases rest with
      | nil =>
          simp only [findFrom]
          exact enter_alike (fun _ _ h => step_alike h c) _ h
      | cons c' rest =>
          simp only [findFrom]
          refine enter_alike (fun o o' h => (step_alike h c).bind fun found found' hfound => ?_) _ h
          simp only [descend, hfound.isNamable, typeName, hfound.1]
          split
          · exact ih hfound
          · exact .error

end

/-! ## Fields as siblings see them -/

/-- The object that the rest of a reference leads to, seen through none of the scopes on the way to the first one. -/
def bare (d : Declarations) (o : Object) (rest : List Component) : Except Error Object :=
  if rest.isEmpty then .ok o else o.findBy d (snapshotBy (interpolateWithin d (budget - 1) 0)) ⟨rest⟩

end Object

theorem subscope_ofName (name a : String) (rest : List Component) :
    (Ref.ofName name).subscope ⟨.dereference a :: rest⟩ = if name = a ∧ rest ≠ [] then some ⟨rest⟩ else none := by
  cases rest with
  | nil => simp [Ref.subscope, Ref.ofName, Ref.length]
  | cons c rest => simp [Ref.subscope, Ref.ofName, Ref.length]

theorem filterMap_fieldBindings {fields : List (String × Option Object)} (hnodup : (fields.map Prod.fst).Nodup)
    (a : String) {rest : List Component} (hrest : rest ≠ []) :
    ((fieldBindings fields).filterMap fun
      | (key, .object o) => (key.subscope ⟨.dereference a :: rest⟩).map fun rest => (key, o, rest)
      | (_, .text _) => none) =
      (Entries.find? a fields).join.toList.map fun o => (Ref.ofName a, o, ⟨rest⟩) := by
  induction fields with
  | nil => rfl
  | cons field others ih =>
      obtain ⟨name, value⟩ := field
      rw [List.map_cons, List.nodup_cons] at hnodup
      have hothers : name = a → Entries.find? a others = none := by
        rintro rfl
        cases hfind : Entries.find? name others with
        | none => rfl
        | some v => exact absurd (List.mem_map.mpr ⟨_, Entries.mem_of_find? hfind, rfl⟩) hnodup.1
      simp only [Entries.find?]
      cases value with
      | none =>
          rw [fieldBindings, ih hnodup.2]
          split
          · rename_i hname
            rw [hothers hname]
            rfl
          · rfl
      | some o =>
          rw [fieldBindings, List.filterMap_cons]
          simp only [subscope_ofName]
          rw [ih hnodup.2]
          by_cases hname : name = a
          · rw [if_pos ⟨hname, hrest⟩, if_pos hname, hothers hname, hname]
            rfl
          · rw [if_neg fun h => hname h.1, if_neg hname]
            rfl

namespace Object

variable {o : Object} {fields : List (String × Option Object)} {a : String} {rest : List Component}

theorem candidates_fieldBindings (hnodup : (fields.map Prod.fst).Nodup) (ha : Entries.find? a fields = some (some o))
    (hrest : rest ≠ []) :
    (Environment.mk (fieldBindings fields)).candidates ⟨.dereference a :: rest⟩ = [(o, ⟨rest⟩)] := by
  have hinside := filterMap_fieldBindings hnodup a hrest
  rw [ha] at hinside
  refine (congrArg (fun inside : List (Ref × Object × Ref) =>
    (inside.mergeSort fun a b => (Ref.cmp b.1 a.1).isLE).map Prod.snd) hinside).trans ?_
  simp

theorem get?_fieldBindings (hrest : rest ≠ []) :
    (Environment.mk (fieldBindings fields)).get? ⟨.dereference a :: rest⟩ = none := by
  cases hget : (Environment.mk (fieldBindings fields)).get? ⟨.dereference a :: rest⟩ with
  | none => rfl
  | some b =>
      obtain ⟨name, o, heq, -⟩ := mem_fieldBindings (Entries.mem_of_find? hget)
      simp only [Ref.ofName, Prod.mk.injEq, Ref.mk.injEq, List.cons.injEq] at heq
      exact absurd heq.1.2 hrest

/-- Among the fields of a struct a reference leads to the one that it starts with, and from there along the rest. -/
theorem findBy_fieldBindings (hnodup : (fields.map Prod.fst).Nodup) (ha : Entries.find? a fields = some (some o))
    (hbare : ∀ e, o.bare d rest = .error e → e.isLookup = false) :
    (Environment.mk (fieldBindings fields)).findBy d (snapshotBy (interpolateWithin d (budget - 1) 0))
      ⟨.dereference a :: rest⟩ = (o.bare d rest).map .object := by
  unfold Environment.findBy
  cases rest with
  | nil =>
      have hget : (Environment.mk (fieldBindings fields)).get? ⟨[.dereference a]⟩ = some (.object o) :=
        find?_fieldBindings ha
      rw [hget]
      rfl
  | cons c rest =>
      have hc : c :: rest ≠ [] := by simp
      rw [get?_fieldBindings hc, candidates_fieldBindings hnodup ha hc]
      unfold bare at hbare ⊢
      simp only [List.isEmpty_cons, Bool.false_eq_true, ↓reduceIte, Environment.findAmong] at hbare ⊢
      cases hfound : o.findBy d (snapshotBy (interpolateWithin d (budget - 1) 0)) ⟨c :: rest⟩ with
      | ok found => rfl
      | error e => simp [hbare e hfound, Except.map]

/-- The text that the fields of a struct find for a reference to one of them. -/
theorem lookupBy_sibling (hnodup : (fields.map Prod.fst).Nodup) (ha : Entries.find? a fields = some (some o))
    (hself : a ≠ "self") (hbare : ∀ e, o.bare d rest = .error e → e.isLookup = false) (outer : List Scope) :
    lookupBy d (interpolateWithin d (budget - 1)) 0 (structScopes fields outer) ⟨.dereference a :: rest⟩ =
      (o.bare d rest >>= fun b => (Binding.object b).renderBy (interpolateWithin d (budget - 1)) 0).map some := by
  have hmiss : ((Environment.mk (fieldBindings fields)).under (.ofName "self")).findBy d
      (snapshotBy (interpolateWithin d (budget - 1) 0)) ⟨.dereference a :: rest⟩ =
      .error (Error.notFound (Ref.address ⟨.dereference a :: rest⟩) "Environment") := by
    refine Environment.findBy_of_no_prefix d _ ?_
    intro entry he
    obtain ⟨⟨key, b⟩, hb, rfl⟩ := List.mem_map.mp he
    simp [Ref.concat, Ref.ofName, Ne.symm hself]
  have hown := findBy_fieldBindings hnodup ha hbare
  rw [structScopes, lookupBy_cons_missing (s := .environment _) d _ hmiss rfl]
  cases hb : o.bare d rest with
  | ok b =>
      rw [hb] at hown
      rw [lookupBy_cons_ok (s := .environment _) d _ hown]
      rfl
  | error e =>
      rw [hb] at hown
      rw [lookupBy, Scope.findBy, hown]
      simp [Except.map, hbare e hb, bind, Except.bind]

/-- What is found from the outside is what the fields find among each other, up to scopes, unless the budget runs out. -/
theorem bare_of_find {p f : Object} (hp : p.payload = .struct fields) (ha : Entries.find? a fields = some (some o))
    (hf : p.find d ⟨.dereference a :: rest⟩ = .ok f) :
    (∀ e, o.bare d rest = .error e → e.isLookup = false) ∧ ∀ b, o.bare d rest = .ok b → b.Alike f := by
  have hstep := step_struct d hp ha (snapshotBy (interpolate d))
  rw [find, findBy] at hf
  cases rest with
  | nil =>
      rw [findFrom, enter_struct d hp, hstep] at hf
      cases hf
      refine ⟨fun e he => ?_, fun b hb => ?_⟩
      · cases he
      · cases hb
        exact ⟨rfl, rfl⟩
  | cons c rest =>
      rw [findFrom.eq_3 _ _ _ _ _ (by simp), enter_struct d hp, hstep] at hf
      simp only [Except.bind, descend] at hf
      split at hf
      · have halike : Alongside Alike
            (findFrom d (snapshotBy (interpolate d)) (c :: rest) (o.inScopeAll (structScopes fields p.scopes)))
            (findFrom d (snapshotBy (interpolate d)) (c :: rest) o) := findFrom_alike (c :: rest) ⟨rfl, rfl⟩
        have hsmaller : Approximates (o.bare d (c :: rest)) (findFrom d (snapshotBy (interpolate d)) (c :: rest) o) :=
          findFrom_approximates d (snapshotBy_approximates (interpolateWithin_approximates d (Nat.sub_le _ _) 0)) _ o
        rw [hf] at halike
        generalize findFrom d (snapshotBy (interpolate d)) (c :: rest) o = x at halike hsmaller
        cases halike with
        | @ok _ b hb =>
            rcases hsmaller with ⟨e, he, hk⟩ | heq
            · rw [he]
              refine ⟨fun e' he' => ?_, fun b' hb' => ?_⟩
              · cases he'
                simp [Error.isLookup, hk]
              · cases hb'
            · rw [heq]
              refine ⟨fun e' he' => ?_, fun b' hb' => ?_⟩
              · cases he'
              · cases hb'
                exact ⟨hb.1.symm, hb.2.symm⟩
      · cases hf

/-- The text of a field is what it comes to in its struct. -/
theorem field_iff_render {p co : Object} {id : StructId} {name c s : String} (hty : p.ty = .struct id name)
    (hp : p.payload = .struct fields) (hknown : (Entries.find? c (d.fields id)).isSome)
    (hc : Entries.find? c fields = some (some co)) : (∃ x, p.field d c = .ok (some x) ∧ x.toString = s) ↔
      (co.inScopeAll (structScopes fields p.scopes)).render d = .ok s := by
  have hfields : p.structFields d = .ok (fields, d.fields id) := by rw [structFields, hp, hty]
  rw [field, hfields, render]
  simp only [bind, Except.bind, Entries.contains, hknown, hc, Bool.not_true, Bool.false_eq_true, ↓reduceIte]
  cases interpolate d (co.inScopeAll (structScopes fields p.scopes)) with
  | error e => simp [Except.map]
  | ok result => simp [Except.map, pure, Except.pure]

theorem render_placeholder_iff {g : Object} {r : Ref} {x : Except Error String} {s : String} (hty : g.ty = .string)
    (hp : g.payload = .template r.placeholder) (hr : Ref.parse r.address = .ok r) (hl : g.lookup d r = x.map some) :
    g.render d = .ok s ↔
      ∃ text left, x = .ok text ∧ Template.resolveWithin (Template.maxPasses - 1) (g.lookup d) text = .ok (s, left) := by
  cases x with
  | error e =>
      rw [render_template d hty hp, Template.resolve_placeholder_error hr hl]
      simp [Except.map]
  | ok text =>
      rw [render_placeholder d hty hp hr hl, Except.map_fst_eq_ok]
      simp

/-- In a struct made from a plain value, a field that is nothing but a placeholder of another field comes to what the
bare text of that field is resolved to in the scopes of the first one. -/
theorem field_sibling_iff {p co ao f : Object} {id : StructId} {name c : String} {cf : Field} {w : Value}
    (hd : (Ty.struct id name).PlainDefaults d) (hp : (Ty.struct id name).construct d w.toInput = .ok p)
    (scopes : List Scope) (hcf : Entries.find? c (d.fields id) = some cf) (hcty : cf.ty = .string)
    (hc : p.present? c = some co) (htext : co.payload = .template (Ref.mk (.dereference a :: rest)).placeholder)
    (hr : Ref.parse (Ref.mk (.dereference a :: rest)).address = .ok (Ref.mk (.dereference a :: rest)))
    (ha : p.present? a = some ao) (hself : a ≠ "self")
    (hf : (p.bindAll scopes).find d (Ref.mk (.dereference a :: rest)) = .ok f) :
    (∀ b, ao.bare d rest = .ok b → b.Alike f) ∧
    ∃ g, (p.bindAll scopes).find d (.ofName c) = .ok g ∧ ∀ s,
      (∃ x, (p.bindAll scopes).field d c = .ok (some x) ∧ x.toString = s) ↔
        ∃ b text left, ao.bare d rest = .ok b ∧
          (Binding.object b).renderBy (interpolateWithin d (budget - 1)) 0 = .ok text ∧
          Template.resolveWithin (Template.maxPasses - 1) (g.lookup d) text = .ok (s, left) := by
  obtain ⟨hplain, -⟩ := construct_fit hd hp
  obtain ⟨fields, hfields, hcc⟩ := struct_of_present? hc
  obtain ⟨fields', hfields', haa⟩ := struct_of_present? ha
  obtain rfl : fields = fields' := by simpa [hfields] using hfields'
  have hpf := hplain.fields hfields
  have hcplain : co.Plain d cf.ty := hpf.built c co cf (Entries.mem_of_find? hcc) hcf
  have hbound : (p.bindAll scopes).payload = .struct fields := hfields
  obtain ⟨hbare, halike⟩ := bare_of_find hbound haa hf
  refine ⟨halike, co.inScopeAll (structScopes fields (p.bindAll scopes).scopes), ?_, fun s => ?_⟩
  · rw [find, findBy, Ref.ofName, findFrom, enter_struct d hbound, step_struct d hbound hcc]
  · have hlookup := lookupBy_sibling hpf.nodup haa hself hbare (p.bindAll scopes).scopes
    have hscopes : (co.inScopeAll (structScopes fields (p.bindAll scopes).scopes)).scopes =
        structScopes fields (p.bindAll scopes).scopes := by simp [inScopeAll, hcplain.scopes]
    rw [← hscopes] at hlookup
    have htype : (co.inScopeAll (structScopes fields (p.bindAll scopes).scopes)).ty = .string :=
      hcplain.ty_eq.trans hcty
    have hbty : (p.bindAll scopes).ty = .struct id name := hplain.ty_eq
    rw [field_iff_render hbty hbound (by simp [hcf]) hcc, render_placeholder_iff htype htext hr hlookup]
    constructor
    · rintro ⟨text, left, hbt, hresolve⟩
      obtain ⟨b, hb, hrender⟩ := Except.bind_ok hbt
      exact ⟨b, text, left, hb, hrender, hresolve⟩
    · rintro ⟨b, text, left, hb, hrender, hresolve⟩
      exact ⟨text, left, by rw [hb]; exact hrender, hresolve⟩

/-- A struct in which one field takes over a text from inside another one. -/
def relay : Declarations where
  next := 2
  finished := [
    (0, [("b", ⟨.string, true, none⟩)]),
    (1, [("k", ⟨.string, true, none⟩), ("a", ⟨.struct 0 "A", true, none⟩), ("c", ⟨.string, true, none⟩)])]

def relayValue (text : String) : Value := .mapping [("k", .string "inner"), ("a", .mapping [("b", .string text)]),
  ("c", .string "\x7b\x7ba.b\x7d\x7d")]

def relayInner (b : Payload) : Object := .ofPayload (.struct 0 "A") (.struct [("b", some (.ofPayload .string b))])

def relayPlaceholder : Object := .ofPayload .string (.template (Ref.mk [.dereference "a", .dereference "b"]).placeholder)

def relayObject (b : Payload) : Object := .ofPayload (.struct 1 "P")
  (.struct [("k", some (.ofPayload .string (.scalar (.string "inner")))), ("a", some (relayInner b)),
    ("c", some relayPlaceholder)])

/-- What is left behind `super` in a sibling is resolved when the sibling is looked up, but not when it is mentioned. -/
theorem field_sibling_super :
    (Ty.struct 1 "P").construct relay (relayValue "\x7b\x7bsuper.k\x7d\x7d").toInput =
      .ok (relayObject (.template "\x7b\x7bsuper.k\x7d\x7d")) ∧
    (∃ f g, (relayObject (.template "\x7b\x7bsuper.k\x7d\x7d")).find relay ⟨[.dereference "a", .dereference "b"]⟩ =
      .ok f ∧ f.interpolate relay = .ok (g, []) ∧ f.render relay = .ok "inner") ∧
    ∃ x, (relayObject (.template "\x7b\x7bsuper.k\x7d\x7d")).field relay "c" = .ok (some x) ∧
      x.toString = "\x7b\x7bsuper.k\x7d\x7d" :=
  ⟨by cbv, ⟨_, _, by cbv, by cbv, by cbv⟩, _, by cbv, by cbv⟩

/-- A sibling in which nothing is left to resolve is taken over as it is. -/
theorem field_sibling_plain : ∃ x, ((relayObject (.scalar (.string "x"))).bindAll
    [.environment ⟨[(.ofName "k", .text "outer")]⟩]).field relay "c" = .ok (some x) ∧ x.toString = "x" := by
  have hp : (Ty.struct 1 "P").construct relay (relayValue "x").toInput = .ok (relayObject (.scalar (.string "x"))) := by
    cbv
  have hd : (Ty.struct 1 "P").PlainDefaults relay := Ty.plainDefaults_of_noDefaults _ (by decide)
  obtain ⟨f, hf⟩ : ∃ f, ((relayObject (.scalar (.string "x"))).bindAll
      [.environment ⟨[(.ofName "k", .text "outer")]⟩]).find relay ⟨[.dereference "a", .dereference "b"]⟩ = .ok f :=
    ⟨_, by cbv⟩
  have ha : (relayObject (.scalar (.string "x"))).present? "a" = some (relayInner (.scalar (.string "x"))) := rfl
  have hc : (relayObject (.scalar (.string "x"))).present? "c" = some relayPlaceholder := rfl
  obtain ⟨-, g, -, hiff⟩ := field_sibling_iff hd hp [.environment ⟨[(.ofName "k", .text "outer")]⟩] rfl rfl hc rfl
    (by cbv) ha (by decide) hf
  have hsettled : Template.resolveWithin (Template.maxPasses - 1) (g.lookup relay) "x" = .ok ("x", []) :=
    Template.resolveWithin_of_noPlaceholder (by cbv) 98
  exact (hiff "x").mpr ⟨_, "x", [], by cbv, by cbv, hsettled⟩

end Object

end TypedTemplate
