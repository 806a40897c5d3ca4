import TypedTemplate.Object.Construct

/-!
# Registries

A registry knows factories by their tags. A factory makes a type from the parameters that follow its tag in a
descriptor. While one descriptor after the other is being read, a dictionary remembers what has been made, so
that a descriptor that comes again gives the very same type, and keeps the structs that have been declared. What
it has recorded stays when reading fails.
-/

namespace TypedTemplate

/-- A type that has been made. Two handles with one serial number are the same type; two types made apart may be equal
all the same. -/
structure Handle where
  serial : Nat
  ty : Ty

/-- What has been made while descriptors were read. -/
structure Dictionary where
  declarations : Declarations := {}
  /-- Types by the descriptors that they were made from. -/
  memo : List (Value × Handle) := []
  /-- Structs by name, those included whose fields are still being read. -/
  structs : List (String × Handle) := []
  /-- All types that were made, by name; the last of a name counts. -/
  named : List (String × Handle) := []

/-- A computation on a dictionary, which it may have changed even if it fails. -/
abbrev Making := ExceptT Error (StateM Dictionary)

/-- How types of one tag are made. -/
inductive Factory where
  | scalar (ty : Ty)
  | enum
  | list
  | map
  | struct
  | choice
  | extension (create : List (Value × Making Handle) → Making Handle)

structure Registry where
  factories : List (String × Factory)

namespace Registry

def empty : Registry := ⟨[]⟩

def find? (r : Registry) (tag : String) : Option Factory := Entries.find? tag r.factories

def contains (r : Registry) (tag : String) : Bool := Entries.contains tag r.factories

/-- Registers a factory in the place of any other of its tag. -/
def register (r : Registry) (tag : String) (f : Factory) : Registry :=
  ⟨Entries.insert tag f r.factories⟩

def registerWithForce (r : Registry) (tag : String) (f : Factory) (force : Bool) : Except Error Registry :=
  if r.contains tag && !force then .error (Error.alreadyRegistered tag) else .ok (r.register tag f)

def builtins : Registry :=
  ⟨[("String", .scalar .string), ("Integer", .scalar .integer), ("Float", .scalar .float),
    ("Boolean", .scalar .boolean), ("Enum", .enum), ("List", .list), ("Map", .map), ("Struct", .struct),
    ("Choice", .choice)]⟩

end Registry

namespace Dictionary

def structure? (d : Dictionary) (name : String) : Option Handle := Entries.find? name d.structs

def declareStruct (d : Dictionary) (name : String) (h : Handle) : Dictionary :=
  { d with structs := Entries.insert name h d.structs }

/-- Declares the fields of a struct. A field that comes twice keeps its place and is what it was declared as last. -/
def finishStruct (d : Dictionary) (h : Handle) (fields : List (String × Field)) : Dictionary :=
  { d with declarations := d.declarations.finish h.serial (Entries.ofList fields) }

/-- The type that was made from a descriptor equal to the given one. -/
def made? (d : Dictionary) (descriptor : Value) : Option Handle :=
  (d.memo.find? fun entry => entry.1 == descriptor).map Prod.snd

def record (d : Dictionary) (descriptor : Value) (h : Handle) : Dictionary :=
  { d with memo := (descriptor, h) :: d.memo, named := Entries.insert h.ty.name h d.named }

end Dictionary

namespace Making

/-- A type that differs from all others made. -/
def fresh (t : Ty) : Making Handle := do
  let d ← get
  set { d with declarations.next := d.declarations.next + 1 }
  return ⟨d.declarations.next, t⟩

/-- A struct type without fields, which differs from all others made. -/
def freshStruct (name : String) : Making Handle := do
  let d ← get
  let (t, declarations) := d.declarations.declare name
  set { d with declarations := declarations }
  return ⟨d.declarations.next, t⟩

end Making

end TypedTemplate
