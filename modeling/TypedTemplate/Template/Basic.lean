import TypedTemplate.Ref.Parser
import TypedTemplate.Text.Blank

/-!
# Templates

A template is a text with placeholders: a reference between double braces. A placeholder whose body starts with
`&` is escaped and stands for itself. `Fragment.split` takes a template apart into literal texts and references.
-/

namespace TypedTemplate

/-- A template as it is read: single characters, and what stands between double braces. -/
inductive Piece where
  | char (c : Char)
  | braced (body : List Char)
  deriving DecidableEq, Repr

namespace Piece

def isBrace (c : Char) : Bool := c == '{' || c == '}'

/-- Reads a pair of double braces from the front of a text, with at least one character between them and no brace;
returns what stands between them, and what follows. -/
def braced? : List Char → Option (List Char × List Char)
  | '{' :: '{' :: cs =>
    match cs.takeWhile (!isBrace ·), cs.dropWhile (!isBrace ·) with
    | c :: body, '}' :: '}' :: rest => some (c :: body, rest)
    | _, _ => none
  | _ => none

theorem braced?_length {cs body rest : List Char} (h : braced? cs = some (body, rest)) :
    rest.length < cs.length := by
  unfold braced? at h
  split at h
  · rename_i cs'
    split at h
    · rename_i hd
      simp only [Option.some.injEq, Prod.mk.injEq] at h
      obtain ⟨-, rfl⟩ := h
      have := (List.dropWhile_suffix (!isBrace ·) (l := cs')).length_le
      rw [hd] at this
      simp only [List.length_cons] at this ⊢
      omega
    · simp at h
  · simp at h

/-- The pieces of a text, from left to right. -/
def scan (cs : List Char) : List Piece :=
  match _h : braced? cs with
  | some (body, rest) => .braced body :: scan rest
  | none =>
    match cs with
    | [] => []
    | c :: rest => .char c :: scan rest
termination_by cs.length
decreasing_by
  · exact braced?_length _h
  · simp

def isBraced : Piece → Bool
  | braced _ => true
  | char _ => false

/-- The address in an escaped placeholder's body, without the marks around it; none for the body of a live one.
A mark alone is no escape. -/
def escaped? : List Char → Option (List Char)
  | '&' :: c :: cs => some (Text.dropEndWhile (· == '&') (c :: cs))
  | _ => none

/-- An escaped placeholder in a text: with its mark, or without it once the text is final. -/
def escapedText (final : Bool) (address : List Char) : List Char :=
  (if final then ['{', '{'] else ['{', '{', '&']) ++ address ++ ['}', '}']

end Piece

def hasPlaceholder (text : String) : Bool := (Piece.scan text.toList).any Piece.isBraced

inductive Fragment where
  | literal (text : String)
  | reference (r : Ref)
  deriving DecidableEq, Repr

namespace Fragment

def toString : Fragment → String
  | literal text => text
  | reference r => r.placeholder

/-- The references among fragments, in order. -/
def refs : List Fragment → List Ref
  | [] => []
  | literal _ :: rest => refs rest
  | reference r :: rest => r :: refs rest

/-- Puts a literal, given backwards, before fragments; an empty one is left out. -/
def consLiteral (backwards : List Char) (fragments : List Fragment) : List Fragment :=
  if backwards.isEmpty then fragments else literal (String.ofList backwards.reverse) :: fragments

/-- Joins pieces into fragments; `acc` holds the literal before them, backwards. Fails at the first live placeholder
whose body is no reference. -/
def ofPieces (final : Bool) (acc : List Char) : List Piece → Except Error (List Fragment)
  | [] => .ok (consLiteral acc [])
  | .char c :: rest => ofPieces final (c :: acc) rest
  | .braced body :: rest =>
    match Piece.escaped? body with
    | some address => ofPieces final ((Piece.escapedText final address).reverse ++ acc) rest
    | none => do
      let r ← Ref.parse (String.ofList body)
      let fragments ← ofPieces final [] rest
      return consLiteral acc (reference r :: fragments)

/-- The fragments of a template. Neighbouring literals are one, and none is empty; escaped placeholders are
literals, without their marks if the text is final. -/
def split (final : Bool) (text : String) : Except Error (List Fragment) :=
  ofPieces final [] (Piece.scan text.toList)

end Fragment

end TypedTemplate
