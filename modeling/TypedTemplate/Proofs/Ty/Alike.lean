import Mathlib.Data.List.Forall2
import TypedTemplate.Proofs.Entries
import TypedTemplate.Proofs.Object.Built
import TypedTemplate.Ty.Reach

/-!
# Types built alike

Types are alike if they are of one kind and alike in the same parts, the fields of structs being taken by their names.
Like types have one name, take the same inputs, and promise the same references.
-/

namespace TypedTemplate

variable {d : Declarations} {T : Ty → Ty → Prop}

namespace Ty

/-- The types are of one kind and name, and the types in the same places inside them are related. -/
inductive Matches (d : Declarations) (T : Ty → Ty → Prop) : Ty → Ty → Prop
  | scalar {t} : t.isScalar = true → Matches d T t t
  | list {a b} : T a b → Matches d T (.list a) (.list b)
  | map {k k' v v'} : T k k' → T v v' → Matches d T (.map k v) (.map k' v')
  | choice {name as bs} : List.Forall₂ T as bs → Matches d T (.choice name as) (.choice name bs)
  | struct {name id id'} :
      (∀ field, Option.Rel (fun f g => T f.ty g.ty) (Entries.find? field (d.fields id))
        (Entries.find? field (d.fields id'))) →
      Matches d T (.struct id name) (.struct id' name)

/-- Related types match in related types. -/
def Alike (d : Declarations) (T : Ty → Ty → Prop) : Prop := ∀ ⦃t u⦄, T t u → Matches d T t u

/-- Every type matches itself. -/
theorem alike_eq (d : Declarations) : Alike d (· = ·) := by
  rintro t _ rfl
  cases t with
  | list => exact .list rfl
  | map => exact .map rfl rfl
  | choice => exact .choice (List.forall₂_same.mpr fun _ _ => rfl)
  | struct => exact .struct fun _ => Entries.rel_self fun _ _ => rfl
  | _ => exact .scalar rfl

namespace Alike

theorem name_eq (hT : Alike d T) : (t : Ty) → ∀ {u}, T t u → t.name = u.name
  | .list a, u, h => by
      cases hT h with
      | scalar ht => cases ht
      | list ha => rw [name, name, name_eq hT a ha]
  | .map k v, u, h => by
      cases hT h with
      | scalar ht => cases ht
      | map hk hv => rw [name, name, name_eq hT k hk, name_eq hT v hv]
  | .struct _ _, _, h | .choice _ _, _, h => by
      cases hT h <;> rfl
  | .string, _, h | .integer, _, h | .float, _, h | .boolean, _, h | .enum _ _, _, h => by
      cases hT h with
      | scalar => rfl

mutual

theorem isNamable_eq (hT : Alike d T) : (t : Ty) → ∀ {u}, T t u → t.isNamable = u.isNamable
  | .choice name as, u, h => by
      cases hT h with
      | scalar ht => cases ht
      | choice hs => rw [isNamable, isNamable, anyNamable_eq hT as hs]
  | .list _, _, h | .map _ _, _, h | .struct _ _, _, h => by
      cases hT h <;> rfl
  | .string, _, h | .integer, _, h | .float, _, h | .boolean, _, h | .enum _ _, _, h => by
      cases hT h with
      | scalar => rfl

theorem anyNamable_eq (hT : Alike d T) : (ts : List Ty) → ∀ {us}, List.Forall₂ T ts us → anyNamable ts = anyNamable us
  | [], _, .nil => rfl
  | t :: ts, _, .cons h hs => by rw [anyNamable, anyNamable, isNamable_eq hT t h, anyNamable_eq hT ts hs]

end

/-! ## Promises -/

mutual

theorem members_forall₂ (hT : Alike d T) (c : Component) : (t : Ty) → ∀ {u}, T t u →
    List.Forall₂ T (t.members d c) (u.members d c)
  | .list a, u, h => by
      cases hT h with
      | scalar ht => cases ht
      | list ha =>
          simp only [members]
          split
          · exact .cons ha .nil
          · exact .nil
  | .map k v, u, h => by
      cases hT h with
      | scalar ht => cases ht
      | map _ hv =>
          simp only [members]
          split
          · exact .cons hv .nil
          · exact .nil
  | .struct id name, u, h => by
      cases hT h with
      | scalar ht => cases ht
      | @struct _ _ id' hfields =>
          simp only [members]
          cases c with
          | index _ => exact .nil
          | dereference field =>
              have hfield := hfields field
              dsimp only
              generalize Entries.find? field (d.fields id) = f, Entries.find? field (d.fields id') = g at hfield
              cases hfield with
              | none => exact .nil
              | some hfg => exact .cons hfg .nil
  | .choice name as, u, h => by
      cases hT h with
      | scalar ht => cases ht
      | choice hs =>
          simp only [members]
          exact allMembers_forall₂ hT c as hs
  | .string, _, h | .integer, _, h | .float, _, h | .boolean, _, h | .enum _ _, _, h => by
      cases hT h with
      | scalar => exact .nil

theorem allMembers_forall₂ (hT : Alike d T) (c : Component) : (ts : List Ty) → ∀ {us}, List.Forall₂ T ts us →
    List.Forall₂ T (allMembers d c ts) (allMembers d c us)
  | [], _, .nil => .nil
  | t :: ts, _, .cons h hs => by
      simp only [allMembers]
      exact List.rel_append (members_forall₂ hT c t h) (allMembers_forall₂ hT c ts hs)

end

theorem reaches_eq (hT : Alike d T) {path : List Component} {t u : Ty} (h : T t u) :
    reaches d path t = reaches d path u := by
  induction path generalizing t u with
  | nil => rfl
  | cons c rest ih =>
      have hmembers := members_forall₂ hT c t h
      cases rest with
      | nil =>
          simp only [reaches]
          generalize t.members d c = ts, u.members d c = us at hmembers
          cases hmembers <;> rfl
      | cons c' rest =>
          simp only [reaches]
          generalize t.members d c = ts, u.members d c = us at hmembers
          induction hmembers with
          | nil => rfl
          | cons hab _ ih' => rw [List.any_cons, List.any_cons, ih hab, ih']

/-- Like types promise the same references. -/
theorem provides_eq (hT : Alike d T) {t u : Ty} (h : T t u) (r : Ref) : t.provides d r = u.provides d r :=
  hT.reaches_eq h

end Alike

end Ty

end TypedTemplate
