import TypedTemplate.Yaml.Token.Basic

/-!
# Nodes

The tree that the tokens of a document describe. A node that is mentioned by its name is written out where it is
mentioned. Nodes that are missing, such as the value of a key with nothing behind it, are empty plain scalars.
-/

namespace TypedTemplate.Yaml

inductive Node where
  | scalar (tag : Option String) (plain : Bool) (text : String)
  | sequence (tag : Option String) (elements : List Node)
  | mapping (tag : Option String) (entries : List (Node × Node))
  deriving Repr

namespace Node

def empty : Node := .scalar none true ""

instance : Inhabited Node := ⟨empty⟩

end Node

/-- Where the reading of tokens stands. -/
structure Cursor where
  tokens : List Token
  /-- The nodes that were named; none for one that is still being read. -/
  anchors : List (String × Option Node) := []

/-- A reading of tokens, which may fail. -/
abbrev Reading := StateT Cursor Option

namespace Reading

def peek : Reading (Option Token) := do return (← get).tokens.head?

def skip : Reading Unit := modify fun c => { c with tokens := c.tokens.drop 1 }

/-- Passes over the next token if it is the given one, and tells whether it was. -/
def accept (t : Token) : Reading Bool := do
  if (← peek) == some t then
    skip
    return true
  else
    return false

def expect (t : Token) : Reading Unit := do
  if ← accept t then return () else failure

def name (anchor : Option String) (n : Option Node) : Reading Unit :=
  match anchor with
  | some a => modify fun c => { c with anchors := (a, n) :: c.anchors }
  | none => pure ()

def named (a : String) : Reading Node := do
  match List.lookup a (← get).anchors with
  | some (some n) => return n
  | _ => failure

/-! ## Properties -/

/-- What the handles of tags stand for. -/
abbrev Handles := List (String × String)

def defaultHandles : Handles := [("!", "!"), ("!!", "tag:yaml.org,2002:")]

def expandTag (handles : Handles) (handle suffix : String) : Reading String :=
  if handle.isEmpty then pure suffix
  else
    match List.lookup handle handles with
    | some expansion => pure (expansion ++ suffix)
    | none => failure

def acceptAnchor : Reading (Option String) := do
  match ← peek with
  | some (.anchor a) =>
    skip
    return some a
  | _ => return none

def acceptTag (handles : Handles) : Reading (Option String) := do
  match ← peek with
  | some (.tag handle suffix) =>
    skip
    return some (← expandTag handles handle suffix)
  | _ => return none

def properties (handles : Handles) : Reading (Option String × Option String) := do
  match ← acceptAnchor with
  | some a => return (some a, ← acceptTag handles)
  | none =>
    let tag ← acceptTag handles
    if tag.isSome then return (← acceptAnchor, tag) else return (none, tag)

/-- A scalar with a tag, of which a mere exclamation mark says nothing. -/
def scalarNode (tag : Option String) (plain : Bool) (text : String) : Node :=
  .scalar (if tag = some "!" then none else tag) plain text

/-! ## Nodes -/

/-- Whether the next token is one of those given, or there is none. -/
def atAny (ts : List Token) : Reading Bool := do
  match ← peek with
  | some t => return ts.contains t
  | none => return false

variable (handles : Handles)

/- Each of the following functions reads at least a token or ends after a few calls, so that the fuel that `document`
gives them is enough. -/
mutual

/-- Reads a node. A block collection is read only where `block`, and a sequence whose entries are not indented only
where `bare`. -/
def node : Nat → Bool → Bool → Reading Node
  | 0, _, _ => failure
  | fuel + 1, block, bare => do
    match ← peek with
    | some (.alias a) =>
      skip
      named a
    | _ =>
      let (anchor, tag) ← properties handles
      name anchor none
      let n ← content fuel block bare (anchor.isSome || tag.isSome) tag
      name anchor (some n)
      return n

def content : Nat → Bool → Bool → Bool → Option String → Reading Node
  | 0, _, _, _, _ => failure
  | fuel + 1, block, bare, hasProperties, tag => do
    match ← peek with
    | some (.scalar plain text) =>
      skip
      return scalarNode tag plain text
    | some .flowSequenceStart =>
      skip
      return .sequence tag (← flowElements fuel true [])
    | some .flowMappingStart =>
      skip
      return .mapping tag (← flowEntries fuel true [])
    | t =>
      if bare && t == some .entry then return .sequence tag (← bareElements fuel [])
      else if block && t == some .blockSequenceStart then
        skip
        return .sequence tag (← blockElements fuel [])
      else if block && t == some .blockMappingStart then
        skip
        return .mapping tag (← blockEntries fuel [])
      else if hasProperties then return .scalar tag true ""
      else failure

/-- Reads a node, unless one of the given tokens shows that there is none. -/
def nodeBefore : Nat → Bool → Bool → List Token → Reading Node
  | 0, _, _, _ => failure
  | fuel + 1, block, bare, ts => do if ← atAny ts then return .empty else node fuel block bare

/-- Reads the entries of a sequence of the block style; `acc` holds those before, backwards. -/
def blockElements : Nat → List Node → Reading (List Node)
  | 0, _ => failure
  | fuel + 1, acc => do
    if ← accept .entry then
      let n ← nodeBefore fuel true false [.entry, .blockEnd]
      blockElements fuel (n :: acc)
    else
      expect .blockEnd
      return acc.reverse

def bareElements : Nat → List Node → Reading (List Node)
  | 0, _ => failure
  | fuel + 1, acc => do
    if ← accept .entry then
      let n ← nodeBefore fuel true false [.entry, .key, .value, .blockEnd]
      bareElements fuel (n :: acc)
    else
      return acc.reverse

def blockEntries : Nat → List (Node × Node) → Reading (List (Node × Node))
  | 0, _ => failure
  | fuel + 1, acc => do
    if ← accept .key then
      let k ← nodeBefore fuel true true [.key, .value, .blockEnd]
      let v ← if ← accept .value then nodeBefore fuel true true [.key, .value, .blockEnd] else pure .empty
      blockEntries fuel ((k, v) :: acc)
    else
      expect .blockEnd
      return acc.reverse

/-- Reads the elements of a sequence of the flow style, each of which may be a single entry of a mapping. -/
def flowElements : Nat → Bool → List Node → Reading (List Node)
  | 0, _, _ => failure
  | fuel + 1, first, acc => do
    if ← accept .flowSequenceEnd then return acc.reverse
    else
      if !first then expect .comma
      if ← accept .key then
        let n ← singleEntry fuel
        flowElements fuel false (n :: acc)
      else if ← accept .flowSequenceEnd then return acc.reverse
      else
        let n ← node fuel false false
        flowElements fuel false (n :: acc)

/-- Reads a mapping of a single entry within a sequence, behind the token of its key. A token that stands in the place
of a missing key is passed over. -/
def singleEntry : Nat → Reading Node
  | 0 => failure
  | fuel + 1 => do
    let k ← do
      if ← atAny [.value, .comma, .flowSequenceEnd] then
        skip
        pure .empty
      else
        node fuel false false
    let v ← if ← accept .value then nodeBefore fuel false false [.comma, .flowSequenceEnd] else pure .empty
    return .mapping none [(k, v)]

def flowEntries : Nat → Bool → List (Node × Node) → Reading (List (Node × Node))
  | 0, _, _ => failure
  | fuel + 1, first, acc => do
    if ← accept .flowMappingEnd then return acc.reverse
    else
      if !first then expect .comma
      if ← accept .key then
        let k ← nodeBefore fuel false false [.value, .comma, .flowMappingEnd]
        let v ← if ← accept .value then nodeBefore fuel false false [.comma, .flowMappingEnd] else pure .empty
        flowEntries fuel false ((k, v) :: acc)
      else if ← accept .flowMappingEnd then return acc.reverse
      else
        let k ← node fuel false false
        flowEntries fuel false ((k, .empty) :: acc)

end

end Reading

/-! ## Documents -/

namespace Reading

/-- The directives in front of a document: at most one version that is known, and no handle twice. -/
def directives : List Token → Bool → Handles → Option (Handles × List Token)
  | .version major minor :: rest, versioned, handles =>
    if versioned || major ≠ 1 || (minor ≠ 1 && minor ≠ 2) then none else directives rest true handles
  | .handle name expansion :: rest, versioned, handles =>
    if (List.lookup name handles).isSome then none else directives rest versioned ((name, expansion) :: handles)
  | rest, _, handles => some (handles ++ defaultHandles, rest)

/-- The fuel for a number of tokens: none of them is read before more than three calls. -/
def fuelFor (tokens : List Token) : Nat := 4 * tokens.length + 4

def lone (n : Reading Node) : Reading Node := do
  let n ← n
  modify fun c => { c with tokens := c.tokens.dropWhile (· == .documentEnd) }
  if (← peek).isNone then return n else failure

def document (tokens : List Token) : Option Node :=
  match tokens with
  | [] => some .empty
  | t :: _ =>
    let fuel := fuelFor tokens
    if t.isDirective || t == .documentStart then do
      let (handles, rest) ← directives tokens false []
      match rest with
      | .documentStart :: rest =>
        let missing : Bool := match rest with
          | [] => true
          | t :: _ => t.isDirective || t == .documentStart || t == .documentEnd
        let n := if missing then pure .empty else node handles fuel true false
        (lone n).run' { tokens := rest }
      | _ => none
    else
      (lone (node defaultHandles fuel true false)).run' { tokens := tokens }

end Reading

def Node.ofTokens? (tokens : List Token) : Option Node := Reading.document tokens

end TypedTemplate.Yaml
