import TypedTemplate.Proofs.Object.Budget
import TypedTemplate.Proofs.Object.Compare
import TypedTemplate.Proofs.Template.Met

/-!
# Fallback scopes

Scopes behind others are asked only for what the others do not know. Where a text is resolved and no reference is left
in it, none of those that it has met was unknown. So it resolves to the same with any scopes behind those that it sees,
and so does all that is built from such texts by lists and maps.
-/

namespace TypedTemplate

variable {d : Declarations}

/-! ## Types without structs and choices -/

namespace Ty

/-- Built from scalars, lists and maps only. -/
def isSimple : Ty → Bool
  | list element => element.isSimple
  | map key value => key.isSimple && value.isSimple
  | t => t.isScalar

theorem isSimple_of_beq {fuel fuel' : Nat} {visiting visiting' : List StructId} :
    (t : Ty) → t.isSimple = true → ∀ {s : Ty}, (s.describeWith (d.describeStruct fuel visiting) ==
      t.describeWith (d.describeStruct fuel' visiting')) = true → s.isSimple = true
  | list element, ht, s, h => by
      cases parallel_of_beq h with
      | scalar hs => cases hs
      | list helement =>
          rw [isSimple] at ht ⊢
          exact isSimple_of_beq element ht helement
  | map key value, ht, s, h => by
      cases parallel_of_beq h with
      | scalar hs => cases hs
      | map hkey hvalue =>
          rw [isSimple, Bool.and_eq_true] at ht ⊢
          exact ⟨isSimple_of_beq key ht.1 hkey, isSimple_of_beq value ht.2 hvalue⟩
  | struct .., ht, _, _ | choice .., ht, _, _ => by cases ht
  | string, ht, s, h | integer, ht, s, h | float, ht, s, h | boolean, ht, s, h | enum .., ht, s, h => by
      cases parallel_of_beq h with
      | scalar => exact ht

/-- A type that is interchangeable with one without structs and choices has none either. -/
theorem isSimple_of_same {s t : Ty} (ht : t.isSimple = true) (h : s.same d t = true) : s.isSimple = true :=
  isSimple_of_beq t ht h

end Ty

theorem Object.Shaped.isSimple_part {o p : Object} (h : o.Shaped d) (hsimple : o.ty.isSimple = true)
    (hp : p ∈ o.payload.parts) : p.ty.isSimple = true := by
  cases h with
  | scalar | template => cases hp
  | list hsame _ =>
      rw [Ty.isSimple] at hsimple
      exact Ty.isSimple_of_same hsimple (hsame p hp)
  | map hsame _ _ =>
      rw [Ty.isSimple, Bool.and_eq_true] at hsimple
      obtain ⟨k, v, hm, rfl | rfl⟩ := Payload.mem_parts_map.mp hp
      · exact Ty.isSimple_of_same hsimple.1 (hsame _ v hm).1
      · exact Ty.isSimple_of_same hsimple.2 (hsame k _ hm).2
  | struct | typed | untyped => cases hsimple

/-! ## Texts -/

variable {eval : Nat → Object → Interpolated} {depth : Nat} {scopes : List Scope}

/-- What is found for a reference is found with more scopes behind. -/
theorem lookupBy_append_of_some {r : Ref} {text : String} (h : lookupBy d eval depth scopes r = .ok (some text))
    (more : List Scope) : lookupBy d eval depth (scopes ++ more) r = .ok (some text) := by
  induction scopes with
  | nil => cases h
  | cons s rest ih =>
      rw [lookupBy] at h
      rw [List.cons_append, lookupBy]
      split at h
      · exact h
      · split at h
        · rename_i hlookup
          rw [if_pos hlookup]
          exact ih h
        · cases h

/-- A text from which all references are gone resolves to the same with more scopes behind. -/
theorem Template.resolve_append {text joined : String}
    (h : resolve (lookupBy d eval depth scopes) text = .ok (joined, [])) (more : List Scope) :
    resolve (lookupBy d eval depth (scopes ++ more)) text = .ok (joined, []) := by
  rw [← h]
  refine (resolve_congr fun r hr => ?_).symm
  obtain ⟨s, hs⟩ := bound_of_resolve h hr
  rw [hs, lookupBy_append_of_some hs]

namespace Object

variable {t : Ty} {resolved : Object}

theorem resolveTemplate_append {text : String} (h : resolveTemplate d eval depth scopes t text = .ok (resolved, []))
    (more : List Scope) : resolveTemplate d eval depth (scopes ++ more) t text = .ok (resolved, []) := by
  obtain ⟨⟨joined, unbound⟩, hjoined, hunbound⟩ := Except.bind_ok h
  obtain rfl : unbound = [] := by
    dsimp only at hunbound
    split at hunbound
    · exact List.isEmpty_iff.mp ‹_›
    · cases hunbound
      rfl
  rw [resolveTemplate, Template.resolve_append hjoined more, ← hjoined]
  exact h

/-! ## Objects -/

/-- Scopes behind all those that the templates in an object see change nothing where no reference is left. -/
theorem interpolateIn_append {o : Object} (ho : o.Shaped d) (hsimple : o.ty.isSimple = true) {outer : List Scope}
    (h : interpolateIn d eval depth outer o = .ok (resolved, [])) (more : List Scope) :
    interpolateIn d eval depth (outer ++ more) o = interpolateIn d eval depth outer o := by
  induction o using parts_induction generalizing outer resolved with
  | _ o ih =>
    have hpart : ∀ {scopes : List Scope} {p p' : Object}, p ∈ o.payload.parts →
        ComesTo d eval depth scopes [] p p' →
        interpolateIn d eval depth (scopes ++ more) p = interpolateIn d eval depth scopes p :=
      fun hp hcomes => ih _ hp (ho.part hp) (ho.isSimple_part hsimple hp) hcomes.eq_ok
    -- The scopes of the object itself stay in front, so that the parts see the additional ones last as well.
    rw [interpolateIn_eq, interpolateIn_eq, ← List.append_assoc]
    cases ho with
    | scalar => rfl
    | @template t text own provided =>
        obtain ⟨left, hleft, hnone⟩ := interpolateIn_ok h
        obtain rfl := List.subset_nil.mp hnone
        simp only [interpolatePayload] at hleft ⊢
        rw [resolveTemplate_append hleft, hleft]
    | @list element elements own provided =>
        obtain ⟨others, -, hothers⟩ := interpolateIn_list h
        have helements : interpolateElements d eval depth (own ++ outer ++ more) elements = _ :=
          interpolateElements_compare comparison_eq (List.forall₂_same.mpr fun p hp => by
            obtain ⟨p', -, hcomes⟩ := Entries.exists_of_forall₂ hothers hp
            exact hpart hp hcomes)
        simp only [interpolatePayload, helements]
    | @map key value pairs own provided =>
        obtain ⟨others, -, hothers⟩ := interpolateIn_map h
        have hpairs : interpolatePairs d eval depth (own ++ outer ++ more) pairs = _ :=
          interpolatePairs_compare comparison_eq (List.forall₂_same.mpr fun pair hm => by
            obtain ⟨pair', -, hk, hv⟩ := Entries.exists_of_forall₂ hothers hm
            exact ⟨hpart (Payload.mem_parts_map.mpr ⟨pair.1, pair.2, hm, .inl rfl⟩) hk,
              hpart (Payload.mem_parts_map.mpr ⟨pair.1, pair.2, hm, .inr rfl⟩) hv⟩)
        simp only [interpolatePayload, hpairs]
    | struct | typed | untyped => cases hsimple

/-- An object of a type without structs and choices that is interpolated with no reference left is interpolated to the
same with any scopes behind its own. -/
theorem interpolate_fallback (d : Declarations) {o resolved : Object} (ho : o.Shaped d) (hsimple : o.ty.isSimple = true)
    (h : o.interpolate d = .ok (resolved, [])) (scopes : List Scope) :
    (o.inScopeAll scopes).interpolate d = .ok (resolved, []) := by
  rw [interpolate_eq] at h ⊢
  rw [interpolateIn_inScopeAll, List.append_nil, ← h]
  exact interpolateIn_append ho hsimple h scopes

def namesScope (greeting name : String) : Scope :=
  .environment ⟨[(.ofName "greeting", .text greeting), (.ofName "name", .text name)]⟩

/-- A greeting that sees scopes of its own. -/
def greetingText (scopes : List Scope) : Object :=
  ⟨.string, .template "\x7b\x7bgreeting\x7d\x7d, \x7b\x7bname\x7d\x7d!", scopes, []⟩

def greetingList : Object :=
  .ofPayload (.list .string) (.list [greetingText [.environment ⟨[(.ofName "name", .text "Bob")]⟩], greetingText []])

def greetingMap : Object :=
  ⟨.map .string (.list .string), .map [(.ofPayload .string (.scalar (.string "all")), greetingList)],
    [namesScope "Hello" "Ann"], []⟩

/-- Other names behind those of the map are not asked for. -/
theorem interpolate_fallback_greetings : ∃ resolved,
    greetingMap.interpolate {} = .ok (resolved, []) ∧
    resolved.toValue = .mapping [("all", .sequence [.string "Hello, Bob!", .string "Hello, Ann!"])] ∧
    (greetingMap.inScopeAll [namesScope "Hi" "Eve"]).interpolate {} = .ok (resolved, []) := by
  have htext : ∀ scopes, (greetingText scopes).Shaped {} := fun scopes => .template rfl
  have hlist : greetingList.Shaped {} := by
    refine .list ?_ ?_ <;> rw [List.forall_mem_cons, List.forall_mem_singleton]
    · exact ⟨Ty.same_self {} _, Ty.same_self {} _⟩
    · exact ⟨htext _, htext _⟩
  have hmap : greetingMap.Shaped {} := by
    refine .map (fun k v hm => ?_) (fun k v hm => ?_) fun k v hm => ?_ <;> cases List.mem_singleton.mp hm
    · exact ⟨Ty.same_self {} _, Ty.same_self {} _⟩
    · exact .scalar rfl
    · exact hlist
  obtain ⟨resolved, hresolved, hvalue⟩ : ∃ resolved, greetingMap.interpolate {} = .ok (resolved, []) ∧
      resolved.toValue = .mapping [("all", .sequence [.string "Hello, Bob!", .string "Hello, Ann!"])] :=
    ⟨_, by cbv, by cbv⟩
  exact ⟨resolved, hresolved, hvalue, interpolate_fallback {} hmap rfl hresolved _⟩

end Object

end TypedTemplate
