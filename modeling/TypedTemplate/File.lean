import TypedTemplate.Entries

/-!
# Files

Where documents are read from: anything that gives the text at a path, or the reason why there is none. The
extension of a path tells the format of what it leads to.
-/

namespace TypedTemplate

/-- Gives the text at a path, or the reason why it cannot be read. -/
abbrev Files := String → Except String String

namespace Files

def missing : String := "No such file or directory (os error 2)"

def isDirectory : String := "Is a directory (os error 21)"

def ofTable (table : List (String × Except String String)) : Files := fun path =>
  (Entries.find? path table).getD (.error missing)

end Files

namespace Path

/-- The steps of a path, of which empty ones and dots lead nowhere else. -/
def steps (path : String) : List String := (path.splitOn "/").filter fun s => s ≠ "" ∧ s ≠ "."

/-- The part of a file's name behind its last dot, if the dot is not its first character. -/
def extensionOf (name : String) : Option String :=
  match (name.splitOn ".").reverse with
  | [] | [_] => none
  | [last, first] => if first = "" then none else some last
  | last :: _ => some last

def extension? (path : String) : Option String :=
  match (steps path).getLast? with
  | some name => if name = ".." then none else extensionOf name
  | none => none

end Path

end TypedTemplate
