import TypedTemplate.Proofs.Scope.Super
import TypedTemplate.Proofs.Scope.Unknown
import TypedTemplate.Proofs.Template.Later

/-!
# Scopes that are bound later

An environment of texts that is bound to an object shows up in the scopes of its parts again and again, behind ever
more `super`. Where its names and the references in its texts are unknown inside, it makes no difference whether it is
bound before the object is interpolated or to what is left of the object.
-/

namespace TypedTemplate

/-! ## Interleaved lists -/

/-- The third list consists of the first two, each in its order. -/
inductive Interleaves {α : Type} : List α → List α → List α → Prop
  | nil : Interleaves [] [] []
  | left {a xs ys zs} : Interleaves xs ys zs → Interleaves (a :: xs) ys (a :: zs)
  | right {a xs ys zs} : Interleaves xs ys zs → Interleaves xs (a :: ys) (a :: zs)

namespace Interleaves

variable {α β : Type} {xs xs' ys ys' zs zs' : List α}

theorem symm (h : Interleaves xs ys zs) : Interleaves ys xs zs := by
  induction h with
  | nil => exact .nil
  | left _ ih => exact .right ih
  | right _ ih => exact .left ih

theorem of_right (ys : List α) : Interleaves [] ys ys := by
  induction ys with
  | nil => exact .nil
  | cons y ys ih => exact .right ih

theorem append (h : Interleaves xs ys zs) (h' : Interleaves xs' ys' zs') :
    Interleaves (xs ++ xs') (ys ++ ys') (zs ++ zs') := by
  induction h with
  | nil => exact h'
  | left _ ih => exact .left ih
  | right _ ih => exact .right ih

theorem map (f : α → β) (h : Interleaves xs ys zs) : Interleaves (xs.map f) (ys.map f) (zs.map f) := by
  induction h with
  | nil => exact .nil
  | left _ ih => exact .left ih
  | right _ ih => exact .right ih

end Interleaves

variable {d : Declarations}

/-- Scopes that miss a reference are passed over, wherever they stand. -/
theorem lookupBy_interleaves {eval : Nat → Object → Interpolated} {depth : Nat} {inner outer scopes : List Scope}
    (h : Interleaves inner outer scopes) {r : Ref}
    (hmiss : ∀ s ∈ inner, s.Misses d (Object.snapshotBy (eval depth)) r) :
    lookupBy d eval depth scopes r = lookupBy d eval depth outer r := by
  induction h with
  | nil => rfl
  | @left s inner outer scopes _ ih =>
      obtain ⟨e, hs, he⟩ := hmiss s (by simp)
      rw [lookupBy_cons_missing d eval hs he, ih fun s hs => hmiss s (by simp [hs])]
  | @right s inner outer scopes _ ih =>
      have hrest := ih hmiss
      rw [lookupBy, lookupBy, hrest]

/-! ## Behind super -/

/-- The reference as it is read so many structs further in. -/
def Ref.behind (r : Ref) : Nat → Ref
  | 0 => r
  | k + 1 => (Ref.ofName "super").concat (r.behind k)

namespace Environment

/-- The environment as it is seen so many structs further in. -/
def behind (e : Environment) : Nat → Environment
  | 0 => e
  | k + 1 => (e.behind k).under (.ofName "super")

variable {e : Environment}

theorem TextOnly.behind (h : e.TextOnly) (k : Nat) : (e.behind k).TextOnly := by
  induction k with
  | zero => exact h
  | succ k ih => exact ih.under _

theorem mem_behind {k : Nat} {r : Ref} {b : Binding} (h : (r, b) ∈ (e.behind k).table) :
    ∃ r', (r', b) ∈ e.table ∧ r = r'.behind k := by
  induction k generalizing r with
  | zero => exact ⟨r, h, rfl⟩
  | succ k ih =>
      obtain ⟨⟨r', b'⟩, hm, heq⟩ := List.mem_map.mp h
      cases heq
      obtain ⟨r'', hm', rfl⟩ := ih hm
      exact ⟨r'', hm', rfl⟩

end Environment

/-- The views of an environment from so many structs further in. -/
def behindAll (e : Environment) (ks : List Nat) : List Scope := ks.map fun k => .environment (e.behind k)

theorem behindAll_asSuper (e : Environment) (ks : List Nat) :
    (behindAll e ks).map Scope.asSuper = behindAll e (ks.map (· + 1)) := by
  simp only [behindAll, List.map_map]
  rfl

theorem Interleaves.structScopes {e : Environment} {ks : List Nat} {inner outer : List Scope}
    (h : Interleaves (behindAll e ks) inner outer) (fields : List (String × Option Object)) :
    Interleaves (behindAll e (ks ++ ks.map (· + 1))) (structScopes fields inner) (structScopes fields outer) := by
  have hbehind : behindAll e (ks ++ ks.map (· + 1)) = behindAll e ks ++ (behindAll e ks).map Scope.asSuper := by
    rw [behindAll_asSuper]
    simp [behindAll]
  rw [hbehind]
  exact .right (.right (h.append (h.map Scope.asSuper)))

def textBehind? (e : Environment) (ks : List Nat) (r : Ref) : Option String :=
  ks.findSome? fun k => (e.behind k).text? r

theorem mem_of_textBehind? {e : Environment} {ks : List Nat} {r : Ref} {s : String} (h : textBehind? e ks r = some s) :
    ∃ k r', (r', .text s) ∈ e.table ∧ r = r'.behind k := by
  obtain ⟨k, -, hk⟩ := List.exists_of_findSome?_eq_some h
  exact ⟨k, Environment.mem_behind (Environment.mem_of_text? hk)⟩

section

variable {e : Environment} {eval : Nat → Object → Interpolated} {depth : Nat}

theorem misses_behind (he : e.TextOnly) {k : Nat} {r : Ref} (h : (e.behind k).text? r = none)
    (snapshot : Object → Except Error Value) : (Scope.environment (e.behind k)).Misses d snapshot r := by
  refine ⟨Error.notFound r.address "Environment", ?_, rfl⟩
  rw [Scope.findBy, (he.behind k).findBy, h]

theorem lookupBy_behindAll (he : e.TextOnly) (hdepth : depth < maxDepth) (ks : List Nat) (r : Ref) :
    lookupBy d eval depth (behindAll e ks) r = .ok (textBehind? e ks r) := by
  induction ks with
  | nil => rfl
  | cons k ks ih =>
      rw [textBehind?, List.findSome?_cons]
      cases htext : (e.behind k).text? r with
      | none =>
          obtain ⟨err, hs, herr⟩ := misses_behind (d := d) he htext (Object.snapshotBy (eval depth))
          rw [behindAll, List.map_cons, lookupBy_cons_missing d eval hs herr]
          exact ih
      | some s =>
          have hfound := (he.behind k).findBy (r := r) d (Object.snapshotBy (eval depth))
          rw [htext] at hfound
          rw [behindAll, List.map_cons, lookupBy_cons_ok (s := .environment (e.behind k)) d eval hfound,
            Binding.renderBy_text eval hdepth]
          rfl

end

/-! ## Three chains of scopes -/

/-- No scope knows the reference, however keys of maps compare. -/
def Unknown (d : Declarations) (scopes : List Scope) (r : Ref) : Prop :=
  ∀ s ∈ scopes, ∀ snapshot, s.Misses d snapshot r

/-- The environment binds live texts only. -/
structure Environment.LiveTexts (e : Environment) : Prop where
  texts : e.TextOnly
  live {r s} : (r, .text s) ∈ e.table → Template.Live s

/-- The scopes know neither what the environment binds nor what its texts mention. -/
structure Environment.Apart (d : Declarations) (e : Environment) (scopes : List Scope) : Prop where
  keys {r s} : (r, .text s) ∈ e.table → ∀ k, Unknown d scopes (r.behind k)
  mentioned {r s} : (r, .text s) ∈ e.table → ∀ r' ∈ Template.refs s, Unknown d scopes r'

theorem Unknown.lookupBy {scopes : List Scope} {r : Ref} (h : Unknown d scopes r) {eval : Nat → Object → Interpolated}
    {depth : Nat} : lookupBy d eval depth scopes r = .ok none := by
  have hrest := lookupBy_append_missing d eval (fun s hs => h s hs (Object.snapshotBy (eval depth))) []
  rwa [List.append_nil] at hrest

theorem apart_nil {e : Environment} : e.Apart d [] := ⟨fun _ _ _ => nofun, fun _ _ _ _ => nofun⟩

/-- A struct without scopes has nothing to do with an environment that uses none of its fields' names. -/
theorem apart_structScopes {e : Environment} {fields : List (String × Option Object)} (names : List String)
    (hself : "self" ∉ names) (hsuper : "super" ∈ names) (hfields : ∀ entry ∈ fields, entry.1 ∉ names)
    (hkeys : ∀ r s, (r, .text s) ∈ e.table → ∃ name ∈ names, ∃ rest, r = ⟨.dereference name :: rest⟩)
    (hmentioned : ∀ r s, (r, .text s) ∈ e.table → ∀ r' ∈ Template.refs s,
      ∃ name ∈ names, ∃ rest, r' = ⟨.dereference name :: rest⟩) : e.Apart d (structScopes fields []) := by
  have hunknown : ∀ name ∈ names, ∀ rest, Unknown d (structScopes fields []) ⟨.dereference name :: rest⟩ := by
    intro name hname rest s hs snapshot
    refine structScopes_miss (fun heq => hself (heq ▸ hname)) (fun entry hm heq => ?_) rest snapshot s hs
    exact hfields entry hm (heq ▸ hname)
  refine ⟨fun {r s} hm k => ?_, fun {r s} hm r' hr' => ?_⟩
  · obtain ⟨name, hname, rest, rfl⟩ := hkeys r s hm
    cases k with
    | zero => exact hunknown name hname rest
    | succ k => exact hunknown "super" hsuper _
  · obtain ⟨name, hname, rest, rfl⟩ := hmentioned r s hm r' hr'
    exact hunknown name hname rest

/-- The scopes of one place in three runs: before the environment is bound, with it, and with it in what is left of the
first run. -/
def LaterScopes (d : Declarations) (e : Environment) (first atOnce second : List Scope) : Prop :=
  ∃ ks left, Interleaves (behindAll e ks) first atOnce ∧ Interleaves (behindAll e ks) left second ∧
    ScopesHide d first left

namespace LaterScopes

variable {e : Environment} {first atOnce second : List Scope}

theorem bind (e : Environment) (scopes : List Scope) :
    LaterScopes d e scopes (.environment e :: scopes) [.environment e] := by
  refine ⟨[0], [], .left (.of_right scopes), .left .nil, .nil⟩

theorem append_left (own : List Scope) (h : LaterScopes d e first atOnce second) :
    LaterScopes d e (own ++ first) (own ++ atOnce) second := by
  obtain ⟨ks, left, hatOnce, hsecond, hhides⟩ := h
  exact ⟨ks, left, (Interleaves.of_right own).append hatOnce, hsecond, hhides.append_left own⟩

theorem structScopes {fields others : List (String × Option Object)}
    (hfields : List.Forall₂ (fun field field' => field.1 = field'.1 ∧ Option.Rel (Object.Hides d) field.2 field'.2)
      fields others) (h : LaterScopes d e first atOnce second) :
    LaterScopes d e (structScopes fields first) (structScopes fields atOnce) (structScopes others second) := by
  obtain ⟨ks, left, hatOnce, hsecond, hhides⟩ := h
  exact ⟨_, _, hatOnce.structScopes fields, hsecond.structScopes others, hhides.structScopes hfields⟩

/-- Inside of an object there is some second chain of scopes, whatever becomes of the object. -/
theorem exists_innerScopes {o : Object} (h : LaterScopes d e (o.scopes ++ first) (o.scopes ++ atOnce) second) :
    ∃ inner, LaterScopes d e (o.inScopeAll first).innerScopes (o.inScopeAll atOnce).innerScopes inner := by
  obtain ⟨t, payload, own, provided⟩ := o
  cases payload with
  | struct fields =>
      obtain ⟨ks, -, hatOnce, -, -⟩ := h
      exact ⟨_, _, [], hatOnce.structScopes fields, (Interleaves.of_right _).symm, .nil⟩
  | _ => exact ⟨second, h⟩

/-- Inside of an object and of what it comes to, the scopes go together again. -/
theorem innerScopes {n : Nat} (hn : n < Object.budget) {o r : Object} {refs : List Ref}
    (hkeys : (o.inScopeAll first).KeysClosed d)
    (hr : Object.interpolateIn d (Object.interpolateWithin d n) 0 first o = .ok (r, refs))
    (h : LaterScopes d e (o.scopes ++ first) (o.scopes ++ atOnce) second) :
    LaterScopes d e (o.inScopeAll first).innerScopes (o.inScopeAll atOnce).innerScopes
      (r.inScopeAll second).innerScopes := by
  obtain ⟨hscopes, ⟨fields, others, ho, hr, hfields⟩ | ⟨ho, hr⟩⟩ := Object.interpolateIn_innerScopes hn hkeys hr
  · have hinner := h.structScopes hfields
    simpa [Object.innerScopes, Object.inScopeAll, ho, hr, hscopes] using hinner
  · rwa [ho, ho, hr]

/-- What is bound later is found later. -/
theorem lookup (h : LaterScopes d e first atOnce second) (he : e.LiveTexts) (hapart : e.Apart d first) {m n : Nat}
    (hmn : m ≤ n) (hn : n ≤ Object.budget) : ∃ later, Template.LaterLookup
      (lookupBy d (Object.interpolateWithin d m) 0 first) (lookupBy d (Object.interpolateWithin d m) 0 atOnce)
      (lookupBy d (Object.interpolateWithin d n) 0 second) later := by
  obtain ⟨ks, left, hatOnce, hsecond, hhides⟩ := h
  have hviews : ∀ {m}, lookupBy d (Object.interpolateWithin d m) 0 (behindAll e ks) =
      fun r => .ok (textBehind? e ks r) := funext fun r => lookupBy_behindAll he.texts (by decide) ks r
  refine ⟨textBehind? e ks, fun {r s} hs => ?_, fun {r s} hs r' hr' => ?_, fun {r} hknown => ?_, fun {r} hnone => ?_⟩
  · obtain ⟨k, r', hm, -⟩ := mem_of_textBehind? hs
    exact he.live hm
  · obtain ⟨k, r'', hm, -⟩ := mem_of_textBehind? hs
    exact (hapart.mentioned hm r' hr').lookupBy
  · -- What the scopes know is none of the references that the environment binds.
    refine lookupBy_interleaves hatOnce fun s hs => ?_
    obtain ⟨k, -, rfl⟩ := List.mem_map.mp hs
    refine misses_behind he.texts ?_ _
    cases htext : (e.behind k).text? r with
    | none => rfl
    | some s =>
        obtain ⟨r', hm, rfl⟩ := Environment.mem_behind (Environment.mem_of_text? htext)
        exact absurd (hapart.keys hm k).lookupBy hknown
  · have hleft := hhides.lookupBy_eq_none hmn hn hnone
    rw [lookupBy_interleaves hatOnce.symm (lookupBy_eq_none_iff.mp hnone), hviews,
      lookupBy_interleaves hsecond.symm (lookupBy_eq_none_iff.mp hleft), hviews]
    exact ⟨rfl, rfl⟩

end LaterScopes

end TypedTemplate
