import TypedTemplate.Command.Basic

/-!
# Arguments

Reading a command from the words of the command line. Options may stand anywhere behind the command, with their values
in the next word or, behind an equals sign, in the same one; short options may be joined. Behind a double dash, no word
is an option.
-/

namespace TypedTemplate.Command

structure Flag where
  short : Option Char := none
  long : String
  hasValue : Bool := true
  repeats : Bool := false
  isPath : Bool := false

namespace Flag

def schema : Flag := { short := some 's', long := "schema", isPath := true }
def typeName : Flag := { short := some 't', long := "type" }
def env : Flag := { short := some 'e', long := "env", repeats := true, isPath := true }
def bind : Flag := { short := some 'b', long := "bind", repeats := true }
def strict : Flag := { long := "strict", hasValue := false }
def format : Flag := { short := some 'f', long := "format" }
def quiet : Flag := { short := some 'q', long := "quiet", hasValue := false }

def admits (f : Flag) (given : List (String × String)) (value : String) : Bool :=
  (f.repeats || (List.lookup f.long given).isNone) && !(f.isPath && value.isEmpty)

end Flag

/-- The words of a command: those that are no options, and the options by their long names, both in order. -/
structure Words where
  operands : List String := []
  given : List (String × String) := []

namespace Words

def values (w : Words) (f : Flag) : List String :=
  (w.given.filter fun e => e.1 = f.long).map Prod.snd

def value? (w : Words) (f : Flag) : Option String := (w.values f).head?

def has (w : Words) (f : Flag) : Bool := !(w.values f).isEmpty

def addOperand (w : Words) (word : String) : Words := { w with operands := w.operands ++ [word] }

def add (w : Words) (f : Flag) (value : String) : Option Words :=
  if f.admits w.given value then some { w with given := w.given ++ [(f.long, value)] } else none

end Words

/-- What is wrong with a command line. -/
inductive UsageError where
  | help
  | malformed
  deriving DecidableEq, Repr

/-- Whether a word looks like an option; a single dash does not. -/
def isOption (word : String) : Bool := word.startsWith "-" && word ≠ "-"

/-- What joined short options lead to: all of them are read, or the last one still lacks its value. -/
inductive Joined where
  | done (w : Words)
  | pending (f : Flag) (w : Words)

/-- Reads short options that are joined in a word. What follows one that has a value is the value. -/
def readJoined (flags : List Flag) (w : Words) : List Char → Except UsageError Joined
  | [] => .ok (.done w)
  | c :: cs =>
    match flags.find? fun f => f.short = some c with
    | none => .error (if c = 'h' then .help else .malformed)
    | some f =>
      if f.hasValue then
        match cs with
        | [] => .ok (.pending f w)
        | '=' :: value => ((w.add f (String.ofList value)).map Joined.done).elim (.error .malformed) .ok
        | value => ((w.add f (String.ofList value)).map Joined.done).elim (.error .malformed) .ok
      else
        match w.add f "" with
        | some w => readJoined flags w cs
        | none => .error .malformed

/-- The name and the value that a word holds, apart by its first equals sign. -/
def splitValue (cs : List Char) : String × Option String :=
  match cs.dropWhile (· ≠ '=') with
  | [] => (String.ofList cs, none)
  | _ :: value => (String.ofList (cs.takeWhile (· ≠ '=')), some (String.ofList value))

def readLong (flags : List Flag) (w : Words) (cs : List Char) : Except UsageError Joined :=
  let (name, value) := splitValue cs
  match flags.find? (fun f => f.long = name), value with
  | none, _ => .error (if name = "help" ∧ value = none then .help else .malformed)
  | some f, some v =>
    if f.hasValue then ((w.add f v).map Joined.done).elim (.error .malformed) .ok else .error .malformed
  | some f, none =>
    if f.hasValue then .ok (.pending f w) else ((w.add f "").map Joined.done).elim (.error .malformed) .ok

/-- Reads the words behind a command; `pending` is an option whose value is the next word. -/
def readWords (flags : List Flag) (pending : Option Flag) (w : Words) : List String → Except UsageError Words
  | [] => if pending.isSome then .error .malformed else .ok w
  | word :: rest =>
    match pending with
    | some f =>
      if isOption word then .error .malformed
      else
        match w.add f word with
        | some w => readWords flags none w rest
        | none => .error .malformed
    | none =>
      if word = "--" then .ok { w with operands := w.operands ++ rest }
      else if !isOption word then readWords flags none (w.addOperand word) rest
      else
        let read := match word.toList with
          | '-' :: '-' :: cs => readLong flags w cs
          | cs => readJoined flags w (cs.drop 1)
        match read with
        | .error e => .error e
        | .ok (.done w) => readWords flags none w rest
        | .ok (.pending f w) => readWords flags (some f) w rest

def bindingsOf (w : Words) : BindingSources := ⟨w.values .env, w.values .bind⟩

def sourcesOf (w : Words) : Except UsageError ObjectSources :=
  match w.value? .schema with
  | none => .error .malformed
  | some schema =>
    if w.operands.isEmpty || w.operands.any String.isEmpty then .error .malformed
    else .ok ⟨w.operands, schema, w.value? .typeName, bindingsOf w, w.has .strict⟩

def operandOf (isPath : Bool) (w : Words) : Except UsageError String :=
  match w.operands with
  | [word] => if isPath && word.isEmpty then .error .malformed else .ok word
  | _ => .error .malformed

def objectFlags : List Flag := [.schema, .typeName, .env, .bind, .strict, .format]

def ofArguments : List String → Except UsageError Command
  | "check" :: rest => do
    let w ← readWords (objectFlags ++ [.quiet]) none {} rest
    return .check (← sourcesOf w) ((w.value? .format).getD "text") (w.has .quiet)
  | "interpolate" :: rest => do
    let w ← readWords objectFlags none {} rest
    return .interpolate (← sourcesOf w) ((w.value? .format).getD "yaml")
  | "resolve" :: rest => do
    let w ← readWords [.env, .bind] none {} rest
    return .resolve (← operandOf false w) (bindingsOf w)
  | "schema" :: "validate" :: rest => do
    return .validateSchema (← operandOf true (← readWords [] none {} rest))
  | "schema" :: "types" :: rest => do
    return .listTypes (← operandOf true (← readWords [] none {} rest))
  | "help" :: _ | "--help" :: _ | "-h" :: _ | "schema" :: "help" :: _ | "schema" :: "--help" :: _
  | "schema" :: "-h" :: _ => .error .help
  | _ => .error .malformed

end TypedTemplate.Command
