import TypedTemplate.Value.Order

/-!
# Hashes of values

A hash is computed from what a value feeds to it, one word after the other. Mappings feed their entries in increasing
order of their keys.
-/

namespace TypedTemplate

/-- One of the words from which a hash is computed. -/
inductive HashWord where
  | byte (b : UInt8)
  | integer (i : Int64)
  | bits (b : UInt64)
  | text (s : String)
  | length (n : Nat)
  deriving DecidableEq, Repr

/-- The words of a scalar: the place of its kind, and its content. -/
def Scalar.feed (s : Scalar) : List HashWord :=
  .byte (.ofNat s.rank) ::
    match s with
    | null => []
    | bool b => [.byte b.toUInt8]
    | integer i => [.integer i]
    | float x => [.bits x.bits]
    | string s => [.text s]

namespace Value

mutual

/-- The words of a value: the place of its kind, and its content. -/
def feed : Value → List HashWord
  | scalar s => s.feed
  | sequence elements =>
    .byte (.ofNat (rank (sequence elements))) :: .length elements.length :: elementFeed elements
  | mapping entries =>
    .byte (.ofNat (rank (mapping entries))) ::
      (sortByKey (entryFeeds entries)).flatMap fun (key, words) => .text key :: words

def elementFeed : List Value → List HashWord
  | [] => []
  | v :: rest => v.feed ++ elementFeed rest

/-- The words of each entry, by its key. -/
def entryFeeds : List (String × Value) → List (String × List HashWord)
  | [] => []
  | (k, v) :: rest => (k, v.feed) :: entryFeeds rest

end

end Value

end TypedTemplate
