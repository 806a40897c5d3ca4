import TypedTemplate.Error
import TypedTemplate.Json.Number

/-!
# Reading JSON

Strict JSON texts as values. A key that comes twice in an object keeps its first place and takes its last value;
sequences and objects nest at most 127 levels deep.
-/

namespace TypedTemplate.Json

open Text

def isSpace (c : Char) : Bool := c == ' ' || c == '\n' || c == '\t' || c == '\r'

def skipSpace (cs : List Char) : List Char := cs.dropWhile isSpace

def hexValue? (c : Char) : Option Nat :=
  if '0' ≤ c && c ≤ '9' then some (c.toNat - 48)
  else if 'a' ≤ c && c ≤ 'f' then some (c.toNat - 87)
  else if 'A' ≤ c && c ≤ 'F' then some (c.toNat - 55)
  else none

def hexNumber? (cs : List Char) : Option Nat :=
  cs.foldl (fun n c => n.bind fun n => (hexValue? c).map fun d => 16 * n + d) (some 0)

def isHighSurrogate (n : Nat) : Bool := 0xD800 ≤ n && n < 0xDC00

def isLowSurrogate (n : Nat) : Bool := 0xDC00 ≤ n && n < 0xE000

def simpleEscape? : Char → Option Char
  | '"' => some '"'
  | '\\' => some '\\'
  | '/' => some '/'
  | 'b' => some '\x08'
  | 'f' => some '\x0c'
  | 'n' => some '\n'
  | 'r' => some '\r'
  | 't' => some '\t'
  | _ => none

/-- Reads the rest of a string, whose opening quote has been read; `acc` holds its characters so far, backwards.
Escapes of surrogates must come in pairs. -/
def stringBody (acc : List Char) : List Char → Option (String × List Char)
  | [] => none
  | '"' :: rest => some (String.ofList acc.reverse, rest)
  | '\\' :: 'u' :: a :: b :: c :: d :: rest => do
    let n ← hexNumber? [a, b, c, d]
    if isHighSurrogate n then
      match rest with
      | '\\' :: 'u' :: e :: f :: g :: h :: rest =>
        let m ← hexNumber? [e, f, g, h]
        if isLowSurrogate m then
          stringBody (Char.ofNat (0x10000 + (n - 0xD800) * 0x400 + (m - 0xDC00)) :: acc) rest
        else none
      | _ => none
    else if isLowSurrogate n then none
    else stringBody (Char.ofNat n :: acc) rest
  | '\\' :: c :: rest => do
    let e ← simpleEscape? c
    stringBody (e :: acc) rest
  | c :: rest => if c.toNat < 32 || c == '\\' then none else stringBody (c :: acc) rest

def dropWord? : List Char → List Char → Option (List Char)
  | [], cs => some cs
  | w :: ws, c :: cs => if w = c then dropWord? ws cs else none
  | _ :: _, [] => none

mutual

/-- Reads a value. The first number bounds the steps, the second the nesting. -/
def value : Nat → Nat → List Char → Option (Value × List Char)
  | 0, _, _ => none
  | fuel + 1, depth, cs =>
    match skipSpace cs with
    | 'n' :: rest => (dropWord? "ull".toList rest).map (Value.null, ·)
    | 't' :: rest => (dropWord? "rue".toList rest).map (Value.bool true, ·)
    | 'f' :: rest => (dropWord? "alse".toList rest).map (Value.bool false, ·)
    | '"' :: rest => (stringBody [] rest).map fun (s, rest) => (Value.string s, rest)
    | '[' :: rest =>
      if depth = 0 then none
      else
        match skipSpace rest with
        | ']' :: rest => some (.sequence [], rest)
        | rest => elements fuel (depth - 1) [] rest
    | '{' :: rest =>
      if depth = 0 then none
      else
        match skipSpace rest with
        | '}' :: rest => some (.mapping [], rest)
        | rest => members fuel (depth - 1) [] rest
    | cs => (number cs).map fun (n, rest) => (.scalar n, rest)

/-- Reads the elements of a sequence up to its end; `acc` holds those before, backwards. -/
def elements : Nat → Nat → List Value → List Char → Option (Value × List Char)
  | 0, _, _, _ => none
  | fuel + 1, depth, acc, cs => do
    let (v, rest) ← value fuel depth cs
    match skipSpace rest with
    | ',' :: rest => elements fuel depth (v :: acc) rest
    | ']' :: rest => some (.sequence (v :: acc).reverse, rest)
    | _ => none

/-- Reads the members of an object up to its end; `acc` holds those before, backwards. -/
def members : Nat → Nat → List (String × Value) → List Char → Option (Value × List Char)
  | 0, _, _, _ => none
  | fuel + 1, depth, acc, cs =>
    match skipSpace cs with
    | '"' :: rest => do
      let (k, rest) ← stringBody [] rest
      match skipSpace rest with
      | ':' :: rest =>
        let (v, rest) ← value fuel depth rest
        match skipSpace rest with
        | ',' :: rest => members fuel depth ((k, v) :: acc) rest
        | '}' :: rest => some (.mapping (Entries.ofList ((k, v) :: acc).reverse), rest)
        | _ => none
      | _ => none
    | _ => none

end

def maxDepth : Nat := 127

/-- Reads a JSON text. Every step reads a character, or is followed by one that does. -/
def parse (text : String) : Except Error Value :=
  let cs := text.toList
  match value (2 * cs.length + 2) maxDepth cs with
  | some (v, rest) =>
    if (skipSpace rest).isEmpty then .ok v else .error (Error.parse "Invalid JSON: trailing characters")
  | none => .error (Error.parse "Invalid JSON: not a value")

end TypedTemplate.Json
