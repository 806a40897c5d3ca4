import TypedTemplate.Object.Basic

/-!
# Reach

Which references a type promises to its values: indexes into lists and maps, whatever their token, and the
declared fields of structs. A choice promises what one of its alternatives does.
-/

namespace TypedTemplate.Ty

variable (d : Declarations)

mutual

def members (c : Component) : Ty → List Ty
  | list element => if c.isIndex then [element] else []
  | map _ value => if c.isIndex then [value] else []
  | struct id _ =>
    match c with
    | .dereference name => ((Entries.find? name (d.fields id)).map Field.ty).toList
    | .index _ => []
  | choice _ alternatives => allMembers c alternatives
  | _ => []

def allMembers (c : Component) : List Ty → List Ty
  | [] => []
  | t :: rest => t.members c ++ allMembers c rest

end

def reaches : List Component → Ty → Bool
  | [], _ => false
  | [c], t => !(t.members d c).isEmpty
  | c :: rest, t => (t.members d c).any (reaches rest)

/-- Whether a type promises a reference to its values. -/
def provides (t : Ty) (r : Ref) : Bool := reaches d r.components t

end TypedTemplate.Ty
