import Mathlib
import TypedTemplate.Proofs.Object.Budget
import TypedTemplate.Proofs.Object.Parts
import TypedTemplate.Proofs.Object.Shaped
import TypedTemplate.Proofs.Object.Step

/-!
# Lookup in what an object comes to

Where every place in an object is fixed before it is interpolated, it does not matter whether a reference is followed
first or the object is interpolated first: the scopes that a lookup hands out along its way are those that
interpolation passes down.
-/

namespace TypedTemplate

namespace Object

variable {d : Declarations}

/-! ## Fixed places -/

/-- No key of a map in the object is left to resolve. -/
def KeysSettled (o : Object) : Prop :=
  ∀ p, o.Holds p → ∀ pairs, p.payload = .map pairs → ∀ k v, (k, v) ∈ pairs → ∀ text, k.payload ≠ .template text

theorem KeysSettled.of_parts {o : Object} (ho : ∀ pairs, o.payload ≠ .map pairs)
    (hparts : ∀ p ∈ o.payload.parts, p.KeysSettled) : o.KeysSettled :=
  forall_holds.mpr ⟨fun pairs hpairs => absurd hpairs (ho pairs), hparts⟩

/-- As far as the key can be interpolated in some scopes, it comes there to what it is compared by as it stands. -/
def Stays (d : Declarations) (k : Object) : Prop :=
  ∀ scopes r refs, (k.inScopeAll scopes).interpolate d = .ok (r, refs) →
    snapshotBy (interpolate d) r = snapshotBy (interpolate d) k

/-- If the object is a map in which something can be looked up, its keys stay what they are. -/
def KeysStay (d : Declarations) (o : Object) : Prop :=
  ∀ key value pairs, o.ty = .map key value → o.payload = .map pairs → ∀ token made,
    key.construct d (.ofText token) = .ok made → ∀ k v, (k, v) ∈ pairs → k.Stays d

/-- The places in the object are those in what it comes to. -/
structure Fixed (d : Declarations) (o : Object) : Prop where
  choiceless : o.Choiceless
  keys : ∀ p, o.Holds p → p.KeysStay d

theorem Fixed.part {o p : Object} (h : o.Fixed d) (hp : p ∈ o.payload.parts) : p.Fixed d :=
  ⟨(choiceless_iff.mp h.choiceless).2 p hp, (forall_holds.mp h.keys).2 p hp⟩

theorem Fixed.inScopeAll {o : Object} (h : o.Fixed d) (scopes : List Scope) : (o.inScopeAll scopes).Fixed d :=
  ⟨h.choiceless.inScopeAll scopes, forall_holds.mpr ⟨h.keys o .self, (forall_holds.mp h.keys).2⟩⟩

theorem Fixed.isChoice {o : Object} (h : o.Fixed d) : o.payload.isChoice = false := h.choiceless o .self

theorem snapshotBy_scalar {o : Object} {s : Scalar} (h : o.payload = .scalar s) :
    snapshotBy (interpolate d) o = .ok (.scalar s) := by
  obtain ⟨t, payload, own, provided⟩ := o
  cases h
  rfl

theorem stays_scalar {k : Object} {s : Scalar} (h : k.payload = .scalar s) : k.Stays d := by
  intro scopes r refs hr
  obtain ⟨t, payload, own, provided⟩ := k
  cases h
  rw [interpolate_eq] at hr
  obtain rfl := interpolateIn_scalar hr
  rw [snapshotBy_scalar (s := s) rfl, snapshotBy_scalar (s := s) rfl]

theorem isScalar_of_constructText {t : Ty} (ht : t.NoChoice d) {text : String} {o : Object}
    (h : t.construct d (.ofText text) = .ok o) : t.isScalar = true := by
  cases t with
  | list | map | struct => cases h
  | choice => exact absurd ht Ty.not_noChoice_choice
  | _ => rfl

/-- The keys by which something can be found are scalars, and are left as they are. -/
theorem Fixed.of_shaped {o : Object} (ho : o.Shaped d) (hchoice : o.ty.NoChoice d) (hkeys : o.KeysSettled) :
    o.Fixed d where
  choiceless := ho.choiceless hchoice
  keys := by
    intro p hp key value pairs hty hpairs token made hmade k v hm
    obtain ⟨hshaped, hnone⟩ := ho.holds hchoice hp
    have hpart : k ∈ p.payload.parts := hpairs ▸ Payload.mem_parts_map.mpr ⟨k, v, hm, .inl rfl⟩
    have hkey : k.Shaped d := hshaped.part hpart
    have hscalar : k.ty.isScalar = true := by
      obtain ⟨t, payload, own, provided⟩ := p
      cases hty
      cases hpairs
      cases hshaped with
      | map hsame _ _ => rw [Ty.isScalar_of_same (hsame k v hm).1, isScalar_of_constructText hnone.key hmade]
    cases hkey with
    | scalar _ => exact stays_scalar rfl
    | template _ => exact absurd rfl (hkeys p hp pairs hpairs _ v hm _)
    | list | map | struct | typed | untyped => cases hscalar

/-- The second object is what interpolation makes of the first one, seen in some scopes. -/
def Becomes (d : Declarations) (o o' : Object) : Prop :=
  ∃ resolved refs scopes, o.interpolate d = .ok (resolved, refs) ∧ o' = resolved.inScopeAll scopes

theorem interpolate_inScopeAll (o : Object) (scopes : List Scope) :
    (o.inScopeAll scopes).interpolate d = interpolateIn d (interpolateWithin d (budget - 1)) 0 scopes o := by
  rw [interpolate_eq, interpolateIn_inScopeAll, List.append_nil]

/-- The second object is what interpolation makes of the first one, a part of a fixed object, among the scopes. -/
def PartComesTo (d : Declarations) (scopes : List Scope) (refs : List Ref) (p p' : Object) : Prop :=
  p.Fixed d ∧ p.ComesTo d (interpolateWithin d (budget - 1)) 0 scopes refs p'

theorem PartComesTo.found {p p' : Object} {scopes : List Scope} {refs : List Ref} (h : p.PartComesTo d scopes refs p')
    (scopes' : List Scope) :
    (p.inScopeAll scopes).Fixed d ∧ (p.inScopeAll scopes).Becomes d (p'.inScopeAll scopes') := by
  obtain ⟨hfixed, left, h, -⟩ := h
  exact ⟨hfixed.inScopeAll scopes, p', left, scopes', by rw [interpolate_inScopeAll, h], rfl⟩

theorem Becomes.alike {o o' : Object} (ho : o.Fixed d) (h : o.Becomes d o') :
    o'.ty = o.ty ∧ o'.payload.isChoice = false ∧ o'.isNamable = o.isNamable ∧ o'.findNothing = o.findNothing := by
  obtain ⟨resolved, refs, scopes, h, rfl⟩ := h
  rw [interpolate_eq] at h
  have hchoice := ho.isChoice
  obtain ⟨t, payload, own, provided⟩ := o
  cases payload with
  | scalar s =>
      obtain rfl := interpolateIn_scalar h
      exact ⟨rfl, rfl, rfl, rfl⟩
  | template text =>
      rcases interpolateIn_template h with ⟨_, _, _, rfl⟩ | ⟨_, rfl, _⟩ <;> exact ⟨rfl, rfl, rfl, rfl⟩
  | list elements =>
      obtain ⟨others, rfl, -⟩ := interpolateIn_list h
      exact ⟨rfl, rfl, rfl, rfl⟩
  | map pairs =>
      obtain ⟨others, rfl, -⟩ := interpolateIn_map h
      exact ⟨rfl, rfl, rfl, rfl⟩
  | struct fields =>
      obtain ⟨others, rfl, -⟩ := interpolateIn_struct h
      exact ⟨rfl, rfl, rfl, rfl⟩
  | typed | untyped => cases hchoice

/-! ## One step -/

theorem findPair_alongside {R : Object → Object → Prop} {snapshot : Object → Except Error Value} (key : Object)
    {pairs others : List (Object × Object)} (h : List.Forall₂ (fun pair pair' => pair'.1.ty = pair.1.ty ∧
      snapshot pair'.1 = snapshot pair.1 ∧ R pair.2 pair'.2) pairs others) :
    Alongside (Option.Rel R) (findPair d snapshot key pairs) (findPair d snapshot key others) := by
  induction h with
  | nil => exact .ok .none
  | @cons pair pair' rest rest' hpair _ ih =>
      obtain ⟨k, v⟩ := pair
      obtain ⟨k', v'⟩ := pair'
      obtain ⟨hty, hsnapshot, hv⟩ := hpair
      simp only [findPair, hsnapshot]
      rw [hty]
      split
      · cases snapshot k with
        | error e => exact .error
        | ok a =>
            cases snapshot key with
            | error e => exact .error
            | ok b =>
                simp only [bind, Except.bind]
                split
                · exact .ok (.some hv)
                · exact ih
      · exact ih

theorem Fixed.pairs_alike {key value : Ty} {pairs others : List (Object × Object)} {own provided : List Scope}
    {refs : List Ref} (ho : Fixed d ⟨.map key value, .map pairs, own, provided⟩) {token : String} {made : Object}
    (hmade : key.construct d (.ofText token) = .ok made)
    (h : List.Forall₂ (fun pair pair' => pair.1.ComesTo d (interpolateWithin d (budget - 1)) 0 own refs pair'.1 ∧
      pair.2.ComesTo d (interpolateWithin d (budget - 1)) 0 own refs pair'.2) pairs others) :
    List.Forall₂ (fun pair pair' => pair'.1.ty = pair.1.ty ∧
      snapshotBy (interpolate d) pair'.1 = snapshotBy (interpolate d) pair.1 ∧ pair.2.PartComesTo d own refs pair'.2)
      pairs others := by
  have hpairs : ∀ pair ∈ pairs, pair.1.Stays d ∧ pair.2.Fixed d := fun pair hm =>
    ⟨ho.keys _ .self key value pairs rfl rfl token made hmade _ _ hm,
      ho.part (Payload.mem_parts_map.mpr ⟨_, _, hm, .inr rfl⟩)⟩
  refine ((List.forall₂_and_left _ _).mpr ⟨hpairs, h⟩).imp fun pair pair' hpair => ?_
  obtain ⟨⟨hstays, hfixed⟩, ⟨left, hk, -⟩, hv⟩ := hpair
  exact ⟨interpolateIn_ty hk, hstays own _ left (by rw [interpolate_inScopeAll, hk]), hfixed, hv⟩

/-- A step leads from an object and from what it comes to into parts of which the same is true, or fails alike. -/
theorem step_alongside {o o' : Object} (ho : o.Fixed d) (h : o.Becomes d o') (c : Component) :
    Alongside (fun found found' => found.Fixed d ∧ found.Becomes d found')
      (step d (snapshotBy (interpolate d)) c o) (step d (snapshotBy (interpolate d)) c o') := by
  obtain ⟨resolved, refs, scopes, h, rfl⟩ := h
  rw [interpolate_eq] at h
  have hparts := fun p hp => ho.part (p := p) hp
  obtain ⟨t, payload, own, provided⟩ := o
  cases payload with
  | scalar s =>
      obtain rfl := interpolateIn_scalar h
      cases c <;> exact .error
  | template text =>
      rcases interpolateIn_template h with ⟨_, _, _, rfl⟩ | ⟨_, rfl, _⟩ <;> cases c <;> exact .error
  | list elements =>
      obtain ⟨others, rfl, hothers⟩ := interpolateIn_list h
      rw [List.append_nil] at hothers
      have helements : List.Forall₂ (PartComesTo d own refs) elements others :=
        (List.forall₂_and_left _ _).mpr ⟨hparts, hothers⟩
      exact step_list_alongside rfl helements (fun _ _ hfound => hfound.found _) c
  | map pairs =>
      obtain ⟨others, rfl, hothers⟩ := interpolateIn_map h
      rw [List.append_nil] at hothers
      cases t with
      | map key value =>
          refine step_map_alongside (R := PartComesTo d own refs) rfl (fun token => ?_) (fun _ _ h => h.found _) c
          refine (Together.refl _).and_ok.imp fun k _ hkey => ?_
          obtain ⟨rfl, hmade, -⟩ := hkey
          exact findPair_alongside k (ho.pairs_alike hmade hothers)
      | _ => cases c <;> exact .error
  | struct fields =>
      obtain ⟨others, rfl, hothers⟩ := interpolateIn_struct h
      rw [List.append_nil] at hothers
      refine step_struct_alongside rfl hothers (fun name value _ hfind hvalue => ?_) c
      have hfixed : value.Fixed d := hparts value (Payload.mem_parts_struct.mpr ⟨name, Entries.mem_of_find? hfind⟩)
      exact PartComesTo.found ⟨hfixed, hvalue⟩ _
  | typed | untyped => cases ho.isChoice

/-! ## The whole way -/

theorem findNothing_error (o : Object) : ∃ e, o.findNothing = .error e := by
  unfold findNothing
  split <;> exact ⟨_, rfl⟩

theorem findFrom_alongside (path : List Component) {o o' : Object} (ho : o.Fixed d) (h : o.Becomes d o') :
    Alongside (Becomes d) (findFrom d (snapshotBy (interpolate d)) path o)
      (findFrom d (snapshotBy (interpolate d)) path o') := by
  induction path generalizing o o' with
  | nil =>
      obtain ⟨-, hchoice, -, hnothing⟩ := h.alike ho
      obtain ⟨e, he⟩ := o.findNothing_error
      rw [findFrom, findFrom, enter_eq d ho.isChoice, enter_eq d hchoice, hnothing, he]
      exact .error
  | cons c rest ih =>
      obtain ⟨-, hchoice, -, -⟩ := h.alike ho
      have hstep := step_alongside ho h c
      cases rest with
      | nil =>
          rw [findFrom, findFrom, enter_eq d ho.isChoice, enter_eq d hchoice]
          exact hstep.imp fun _ _ hfound => hfound.2
      | cons c' rest =>
          rw [findFrom.eq_3 _ _ _ _ _ (by simp), findFrom.eq_3 _ _ _ _ _ (by simp), enter_eq d ho.isChoice,
            enter_eq d hchoice]
          refine hstep.bind fun found found' hfound => ?_
          obtain ⟨hty, -, hnamable, -⟩ := hfound.2.alike hfound.1
          simp only [descend, hnamable, typeName, hty]
          split
          · exact ih hfound.1 hfound.2
          · exact .error

/-- In an object without choices, in which no key of a map is left to resolve, a reference leads to the same place
before and after interpolation, or fails in the same way; what is found before comes to what is found after. -/
theorem find_interpolate {o resolved : Object} {refs : List Ref} (ho : o.Shaped d) (hchoice : o.ty.NoChoice d)
    (hkeys : o.KeysSettled) (h : o.interpolate d = .ok (resolved, refs)) (r : Ref) :
    ((∃ found, o.find d r = .ok found) ↔ ∃ found, resolved.find d r = .ok found) ∧
    (∀ e, o.find d r = .error e ↔ resolved.find d r = .error e) ∧
    ∀ found found', o.find d r = .ok found → resolved.find d r = .ok found' →
      ∃ g left, found.interpolate d = .ok (g, left) ∧ g.toValue = found'.toValue := by
  have hbecomes : o.Becomes d resolved := ⟨resolved, refs, [], h, (inScopeAll_nil resolved).symm⟩
  have halongside := findFrom_alongside r.components (.of_shaped ho hchoice hkeys) hbecomes
  simp only [find, findBy]
  generalize findFrom d (snapshotBy (interpolate d)) r.components o = x,
    findFrom d (snapshotBy (interpolate d)) r.components resolved = y at halongside ⊢
  cases halongside with
  | error => simp
  | @ok f f' hf =>
      obtain ⟨g, left, scopes, hg, rfl⟩ := hf
      refine ⟨by simp, by simp, fun found found' hfound hfound' => ?_⟩
      cases hfound
      cases hfound'
      refine ⟨g, left, hg, ?_⟩
      obtain ⟨t, payload, own, provided⟩ := g
      simp only [inScopeAll, toValue]

/-- A shop, whose items may mention its owner. -/
def shop : Declarations where
  next := 2
  finished := [
    (0, [("label", ⟨.string, true, none⟩)]),
    (1, [("owner", ⟨.string, true, none⟩), ("items", ⟨.map .string (.struct 0 "Item"), true, none⟩)])]

def shopValue : Value := .mapping [("owner", .string "Ann"),
  ("items", .mapping [("a", .mapping [("label", .string "\x7b\x7bsuper.owner\x7d\x7d: \x7b\x7bx\x7d\x7d")])])]

def shopItem : Object := .ofPayload (.struct 0 "Item")
  (.struct [("label", some (.ofPayload .string (.template "\x7b\x7bsuper.owner\x7d\x7d: \x7b\x7bx\x7d\x7d")))])

def shopItems : Object :=
  .ofPayload (.map .string (.struct 0 "Item")) (.map [(.ofPayload .string (.scalar (.string "a")), shopItem)])

def shopObject : Object := .ofPayload (.struct 1 "Shop")
  (.struct [("owner", some (.ofPayload .string (.scalar (.string "Ann")))), ("items", some shopItems)])

theorem construct_shop : (Ty.struct 1 "Shop").construct shop shopValue.toInput = .ok shopObject := by cbv

/-- A label deep in a shop comes to the one that stands in the interpolated shop. -/
theorem find_interpolate_shop : ∃ resolved refs found found' g left,
    shopObject.interpolate shop = .ok (resolved, refs) ∧
    shopObject.find shop ⟨[.dereference "items", .index "a", .dereference "label"]⟩ = .ok found ∧
    resolved.find shop ⟨[.dereference "items", .index "a", .dereference "label"]⟩ = .ok found' ∧
    found.interpolate shop = .ok (g, left) ∧ g.toValue = found'.toValue := by
  have hd : shop.Built (Shaped shop) := Declarations.built_of_noDefaults (by decide)
  have hshaped : shopObject.Shaped shop := construct_shaped hd (by simp [Value.toInput_objects]) construct_shop
  have hchoice : (Ty.struct 1 "Shop").NoChoice shop := Ty.noChoice_of_isChoiceFree rfl (by decide)
  have hscalar : ∀ text, (ofPayload .string (.scalar (.string text))).KeysSettled :=
    fun text => .of_parts (by rintro _ ⟨⟩) (by rintro _ ⟨⟩)
  have hitem : shopItem.KeysSettled := by
    refine .of_parts (by rintro _ ⟨⟩) fun p hp => ?_
    obtain rfl := List.mem_singleton.mp hp
    exact .of_parts (by rintro _ ⟨⟩) (by rintro _ ⟨⟩)
  have hitems : shopItems.KeysSettled := by
    refine forall_holds.mpr ⟨?_, fun p hp => ?_⟩
    · rintro pairs hp k v hm text
      cases hp
      cases List.mem_singleton.mp hm
      rintro ⟨⟩
    · obtain ⟨k, v, hm, hp⟩ := Payload.mem_parts_map.mp hp
      cases List.mem_singleton.mp hm
      rcases hp with rfl | rfl
      · exact hscalar "a"
      · exact hitem
  have hkeys : shopObject.KeysSettled := by
    refine .of_parts (by rintro _ ⟨⟩) fun p hp => ?_
    simp only [shopObject, ofPayload, Payload.parts, List.filterMap_cons, List.filterMap_nil, List.mem_cons,
      List.not_mem_nil, or_false] at hp
    rcases hp with rfl | rfl
    · exact hscalar "Ann"
    · exact hitems
  obtain ⟨resolved, refs, hresolved⟩ : ∃ resolved refs, shopObject.interpolate shop = .ok (resolved, refs) :=
    ⟨_, _, by cbv⟩
  obtain ⟨found, hfound⟩ : ∃ found,
      shopObject.find shop ⟨[.dereference "items", .index "a", .dereference "label"]⟩ = .ok found := ⟨_, by cbv⟩
  obtain ⟨hsuccess, -, hvalue⟩ := find_interpolate hshaped hchoice hkeys hresolved
    ⟨[.dereference "items", .index "a", .dereference "label"]⟩
  obtain ⟨found', hfound'⟩ := hsuccess.mp ⟨found, hfound⟩
  obtain ⟨g, left, hg, hvalue⟩ := hvalue found found' hfound hfound'
  exact ⟨resolved, refs, found, found', g, left, hresolved, hfound, hfound', hg, hvalue⟩

end Object

end TypedTemplate
