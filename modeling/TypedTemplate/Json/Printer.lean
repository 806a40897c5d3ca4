import TypedTemplate.Value.Basic

/-!
# Writing JSON

Values as JSON texts, on one line or indented by two spaces. The numbers that JSON cannot express become `null`.
-/

namespace TypedTemplate.Json

def escapedChar (c : Char) : List Char :=
  match c with
  | '"' => ['\\', '"']
  | '\\' => ['\\', '\\']
  | '\x08' => ['\\', 'b']
  | '\x0c' => ['\\', 'f']
  | '\n' => ['\\', 'n']
  | '\r' => ['\\', 'r']
  | '\t' => ['\\', 't']
  | c =>
    if c.toNat < 32 then
      ['\\', 'u', '0', '0', Nat.digitChar (c.toNat / 16), Nat.digitChar (c.toNat % 16)]
    else
      [c]

def string (s : String) : String :=
  String.ofList ('"' :: s.toList.flatMap escapedChar ++ ['"'])

def scalar : Scalar → String
  | .null => "null"
  | .bool b => Scalar.boolText b
  | .integer i => Scalar.integerText i
  | .float x => Decimal.Layout.json.text x
  | .string s => string s

mutual

def compact : Value → String
  | .sequence elements => "[" ++ String.intercalate "," (compactElements elements) ++ "]"
  | .mapping entries => "\x7b" ++ String.intercalate "," (compactEntries entries) ++ "\x7d"
  | .scalar s => scalar s

def compactElements : List Value → List String
  | [] => []
  | v :: rest => compact v :: compactElements rest

def compactEntries : List (String × Value) → List String
  | [] => []
  | (k, v) :: rest => (string k ++ ":" ++ compact v) :: compactEntries rest

end

/-- Items on lines of their own between two brackets, which stand alone where there are none. -/
def block (opening closing indent : String) (items : List String) : String :=
  match items with
  | [] => opening ++ closing
  | items =>
    opening ++ "\n" ++ String.intercalate ",\n" (items.map fun item => indent ++ "  " ++ item)
      ++ "\n" ++ indent ++ closing

mutual

/-- A value over several lines, each level of nesting two spaces further in. -/
def prettyAt (indent : String) : Value → String
  | .sequence elements => block "[" "]" indent (prettyElements (indent ++ "  ") elements)
  | .mapping entries => block "\x7b" "\x7d" indent (prettyEntries (indent ++ "  ") entries)
  | .scalar s => scalar s

def prettyElements (indent : String) : List Value → List String
  | [] => []
  | v :: rest => prettyAt indent v :: prettyElements indent rest

def prettyEntries (indent : String) : List (String × Value) → List String
  | [] => []
  | (k, v) :: rest => (string k ++ ": " ++ prettyAt indent v) :: prettyEntries indent rest

end

def pretty (v : Value) : String := prettyAt "" v

end TypedTemplate.Json
