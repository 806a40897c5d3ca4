import TypedTemplate.Proofs.Object.FindResolved
import TypedTemplate.Proofs.Object.Inhabits
import TypedTemplate.Proofs.Object.Promised

/-!
# Lookup behind a lookup

Where no choice stands in an object, a reference that is made of two leads to what the second one leads to in what the
first one leads to: every step hands on the scopes of the object that it starts from, so that it does not matter where
the way is cut in two. In a choice this fails, as a longer reference may be looked up in another alternative.
-/

namespace TypedTemplate

variable {d d' : Declarations}

/-! ## Objects of a type -/

theorem Ty.ChoiceAt.later {n : Nat} {t : Ty} (h : t.ChoiceAt d' n) (hd : d'.Before d) : t.ChoiceAt d n := by
  induction h with
  | here => exact .here
  | element _ ih => exact .element ih
  | key _ ih => exact .key ih
  | value _ ih => exact .value ih
  | @field _ id _ _ hentry _ ih =>
      refine .field ?_ ih
      rcases hd id with heq | hnil
      · rwa [← heq]
      · rw [hnil] at hentry
        cases hentry

/-- In a type without choices there were none at an earlier stage. -/
theorem Ty.NoChoice.earlier {t : Ty} (h : t.NoChoice d) (hd : d'.Before d) : t.NoChoice d' :=
  fun n hn => h n (hn.later hd)

namespace Object

/-- The object has been put together as one of the type: its payload is of the kind of its type, and each of its parts
was taken as one of the type prescribed for it, perhaps when the fields of some structs were still to be declared. -/
inductive Accepted : Declarations → Ty → Object → Prop
  | scalar {d t s scopes provided} : t.isScalar = true → Accepted d t ⟨t, .scalar s, scopes, provided⟩
  | template {d t text scopes provided} : t.isScalar = true → Accepted d t ⟨t, .template text, scopes, provided⟩
  | list {d element elements scopes provided} : (∀ o ∈ elements, Accepted d element o) →
      Accepted d (.list element) ⟨.list element, .list elements, scopes, provided⟩
  | map {d key value pairs scopes provided} : (∀ k v, (k, v) ∈ pairs → Accepted d key k) →
      (∀ k v, (k, v) ∈ pairs → Accepted d value v) →
      Accepted d (.map key value) ⟨.map key value, .map pairs, scopes, provided⟩
  | struct {d id name fields scopes provided} : (∀ entry ∈ fields, (Entries.find? entry.1 (d.fields id)).isSome) →
      (∀ field o f, (field, some o) ∈ fields → Entries.find? field (d.fields id) = some f → Accepted d f.ty o) →
      Accepted d (.struct id name) ⟨.struct id name, .struct fields, scopes, provided⟩
  | typed {d name alternatives inner scopes provided} :
      Accepted d (.choice name alternatives) ⟨.choice name alternatives, .typed inner, scopes, provided⟩
  | untyped {d name alternatives draft scopes provided} :
      Accepted d (.choice name alternatives) ⟨.choice name alternatives, .untyped draft, scopes, provided⟩
  | same {d s t o} : Accepted d s o → s.same d t = true → Accepted d t o
  | later {d' d t o} : Accepted d' t o → d'.Before d → Accepted d t o

theorem Shaped.accepted {o : Object} (h : o.Shaped d) : o.Accepted d o.ty := by
  induction h with
  | scalar ht => exact .scalar ht
  | template ht => exact .template ht
  | list hsame _ ih => exact .list fun o hm => (ih o hm).same (hsame o hm)
  | map hsame _ _ ihk ihv =>
      exact .map (fun k v hm => (ihk k v hm).same (hsame k v hm).1) fun k v hm => (ihv k v hm).same (hsame k v hm).2
  | struct _ hknown hsame _ ih =>
      exact .struct hknown fun field o f hm hf => (ih field o hm).same (hsame field o f hm hf)
  | typed => exact .typed
  | untyped => exact .untyped

/-! ## Objects without choices -/

/-- What was taken as one of a type without choices holds none. -/
theorem Accepted.choiceless {t : Ty} {o : Object} (h : o.Accepted d t) (ht : t.NoChoice d) : o.Choiceless := by
  induction h with
  | scalar | template => exact choiceless_iff.mpr ⟨rfl, by rintro _ ⟨⟩⟩
  | list _ ih => exact choiceless_iff.mpr ⟨rfl, fun p hp => ih p hp ht.element⟩
  | map _ _ ihk ihv =>
      refine choiceless_iff.mpr ⟨rfl, fun p hp => ?_⟩
      obtain ⟨k, v, hm, rfl | rfl⟩ := Payload.mem_parts_map.mp hp
      · exact ihk _ v hm ht.key
      · exact ihv k _ hm ht.value
  | struct hknown _ ih =>
      refine choiceless_iff.mpr ⟨rfl, fun p hp => ?_⟩
      obtain ⟨field, hm⟩ := Payload.mem_parts_struct.mp hp
      obtain ⟨f, hf⟩ := Option.isSome_iff_exists.mp (hknown _ hm)
      exact ih field p f hm hf (ht.field (Entries.mem_of_find? hf))
  | typed | untyped => exact absurd ht Ty.not_noChoice_choice
  | same _ hsame ih => exact ih (ht.of_same hsame)
  | later _ hd ih => exact ih (ht.earlier hd)

/-! ## Two ways in a row -/

variable {snapshot : Object → Except Error Value}

theorem Choiceless.of_step {c : Component} {o found : Object} (ho : o.Choiceless)
    (h : step d snapshot c o = .ok found) : found.Choiceless := by
  obtain ⟨p, hp, rfl⟩ := mem_parts_of_step h
  exact ((choiceless_iff.mp ho).2 p hp).inScopeAll o.innerScopes

/-- In an object that is no choice, a lookup fails at its first step as it does before it is begun. -/
theorem findFrom_of_not_namable {o : Object} (hchoice : o.payload.isChoice = false) (h : o.isNamable = false)
    {path : List Component} (hpath : path ≠ []) :
    findFrom d snapshot path o = .error (Error.unnamable o.typeName) := by
  obtain ⟨c, rest, rfl⟩ := List.exists_cons_of_ne_nil hpath
  have hstep : step d snapshot c o = .error (Error.unnamable o.typeName) := by
    obtain ⟨t, payload, own, provided⟩ := o
    cases payload with
    | scalar | template => cases c <;> rfl
    | list | map | struct => simp [isNamable] at h
    | typed | untyped => cases hchoice
  rw [findFrom_of_isChoice hchoice]
  cases rest with
  | nil => exact hstep
  | cons c' rest =>
      rw [follow_cons c (List.cons_ne_nil c' rest), hstep]
      rfl

theorem Choiceless.descend_eq {o : Object} (ho : o.Choiceless) {path : List Component} (hpath : path ≠ []) :
    descend (findFrom d snapshot path) o = findFrom d snapshot path o := by
  rw [descend]
  split
  · rfl
  · rename_i hnamable
    exact (findFrom_of_not_namable (choiceless_iff.mp ho).1 (by simpa using hnamable) hpath).symm

theorem Choiceless.findFrom_append {o : Object} (ho : o.Choiceless) {path rest : List Component} (hpath : path ≠ [])
    (hrest : rest ≠ []) : findFrom d snapshot (path ++ rest) o =
      findFrom d snapshot path o >>= findFrom d snapshot rest := by
  induction path generalizing o with
  | nil => exact absurd rfl hpath
  | cons c others ih =>
      have hchoice := (choiceless_iff.mp ho).1
      rw [findFrom_of_isChoice hchoice, findFrom_of_isChoice hchoice, List.cons_append,
        follow_cons c (List.append_ne_nil_of_right_ne_nil others hrest)]
      cases hstep : step d snapshot c o with
      | error e =>
          cases others with
          | nil => simp only [follow, hstep, bind, Except.bind]
          | cons c' others => simp only [follow, hstep, bind, Except.bind]
      | ok found =>
          have hfound : found.Choiceless := ho.of_step hstep
          by_cases hothers : others = []
          · subst hothers
            simp only [follow, hstep, List.nil_append]
            exact hfound.descend_eq hrest
          · rw [follow_cons c hothers, hstep]
            simp only [Except.bind]
            rw [hfound.descend_eq hothers, hfound.descend_eq (List.append_ne_nil_of_left_ne_nil hothers rest)]
            exact ih hfound hothers

/-- In an object of a type without choices, whatever scopes it sees, a reference followed by another one leads to the
object, in the same scopes, that the second one leads to in what the first one leads to; if either lookup fails, both
ways fail with the same error. -/
theorem find_concat {t : Ty} {o : Object} (ho : o.Accepted d t) (ht : t.NoChoice d) {p q : Ref}
    (hp : p.components ≠ []) (hq : q.components ≠ []) :
    o.find d (p.concat q) = o.find d p >>= fun found => found.find d q :=
  (ho.choiceless ht).findFrom_append hp hq

/-- Where the item of a shop is. -/
def shopItemRef : Ref := ⟨[.dereference "items", .index "a"]⟩

/-- A shop that sees what its item mentions. -/
def openShop : Object := shopObject.inScopeAll [.environment ⟨[(.ofName "x", .text "new")]⟩]

/-- The label of an item is found in the item as it is found in the shop, and comes to the same. -/
theorem find_concat_shop : openShop.Accepted shop (.struct 1 "Shop") ∧ (Ty.struct 1 "Shop").NoChoice shop ∧
    ∃ item label, openShop.find shop shopItemRef = .ok item ∧ item.find shop (.ofName "label") = .ok label ∧
      openShop.find shop (shopItemRef.concat (.ofName "label")) = .ok label ∧
      label.render shop = .ok "Ann: new" := by
  have hd : shop.Built (Shaped shop) := Declarations.built_of_noDefaults (by decide)
  have hshaped : shopObject.Shaped shop := construct_shaped hd (by simp [Value.toInput_objects]) construct_shop
  have haccepted : openShop.Accepted shop (.struct 1 "Shop") := (hshaped.inScopeAll _).accepted
  have hchoice : (Ty.struct 1 "Shop").NoChoice shop := Ty.noChoice_of_isChoiceFree rfl (by decide)
  obtain ⟨item, label, hitem, hlabel, hrender⟩ : ∃ item label, openShop.find shop shopItemRef = .ok item ∧
      item.find shop (.ofName "label") = .ok label ∧ label.render shop = .ok "Ann: new" :=
    ⟨_, _, by cbv, by cbv, by cbv⟩
  have hconcat := find_concat haccepted hchoice (p := shopItemRef) (q := .ofName "label") (by decide) (by decide)
  rw [hitem] at hconcat
  exact ⟨haccepted, hchoice, item, label, hitem, hlabel, hconcat.trans hlabel, hrender⟩

end Object

end TypedTemplate
