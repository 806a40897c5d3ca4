import TypedTemplate.Text.QuotedTable
import TypedTemplate.Text.Word

/-!
# Quoted text

The form in which a message shows a text that may hold anything: between double quotes, with what cannot be
seen written as an escape.
-/

namespace TypedTemplate.Text

/-- A character that a quoted text shows by its number: it has no visible form, or it extends its predecessor. -/
def isHidden (c : Char) : Bool :=
  let n := c.toNat
  if n < 128 then n < 32 || n == 127 else inRanges invisibleRanges n || inRanges extendingRanges n

/-- The lower-case hexadecimal digits of a number, without leading zeros. -/
def hexDigits (n : Nat) : List Char := Nat.toDigits 16 n

def quotedChar (c : Char) : List Char :=
  match c with
  | '\x00' => ['\\', '0']
  | '\t' => ['\\', 't']
  | '\r' => ['\\', 'r']
  | '\n' => ['\\', 'n']
  | '"' => ['\\', '"']
  | '\\' => ['\\', '\\']
  | c => if isHidden c then ['\\', 'u', '{'] ++ hexDigits c.toNat ++ ['}'] else [c]

def quoted (text : String) : String :=
  String.ofList ('"' :: text.toList.flatMap quotedChar ++ ['"'])

end TypedTemplate.Text
