import TypedTemplate.Error
import TypedTemplate.Ref.Basic
import TypedTemplate.Text.Word

/-!
# Reading references

An address is a sequence of components `.name` and `[token]` without gaps; the dot of a leading name may be left
out where the name starts with an ASCII letter or `_`.
-/

namespace TypedTemplate

namespace Text

def isTokenChar (c : Char) : Bool := isWord c || c == '-' || c == '.' || c == '/'

def byteLength (cs : List Char) : Nat := cs.foldl (fun n c => n + c.utf8Size) 0

end Text

namespace Component

open Text

/-- Reads one component from the front of a text, and returns it with what follows. -/
def scan : List Char → Option (Component × List Char)
  | '.' :: c :: cs =>
    if isNameStart c then
      some (.dereference (String.ofList (c :: cs.takeWhile isWord)), cs.dropWhile isWord)
    else
      none
  | '[' :: cs =>
    match cs.takeWhile isTokenChar, cs.dropWhile isTokenChar with
    | c :: token, ']' :: rest => some (.index (String.ofList (c :: token)), rest)
    | _, _ => none
  | _ => none

private theorem length_dropWhile_le (p : Char → Bool) (cs : List Char) :
    (cs.dropWhile p).length ≤ cs.length :=
  (List.dropWhile_suffix p).length_le

theorem scan_length {cs rest : List Char} {c : Component} (h : scan cs = some (c, rest)) :
    rest.length < cs.length := by
  unfold scan at h
  split at h
  · split at h
    · simp only [Option.some.injEq, Prod.mk.injEq] at h
      obtain ⟨-, rfl⟩ := h
      have := length_dropWhile_le isWord ‹List Char›
      simp only [List.length_cons]
      omega
    · simp at h
  · rename_i cs'
    split at h
    · rename_i hd
      simp only [Option.some.injEq, Prod.mk.injEq] at h
      obtain ⟨-, rfl⟩ := h
      have := length_dropWhile_le isTokenChar cs'
      rw [hd] at this
      simp only [List.length_cons] at this ⊢
      omega
    · simp at h
  · simp at h

/-- Reads components up to the end of the text; where one is malformed, the result is the text from there on. -/
def scanAll (cs : List Char) : Except (List Char) (List Component) :=
  match _h : scan cs with
  | none => if cs.isEmpty then .ok [] else .error cs
  | some (c, rest) => (scanAll rest).map (c :: ·)
termination_by cs.length
decreasing_by exact scan_length _h

end Component

namespace Ref

/-- The address with the dot of a leading name written out; none if it begins like no reference. -/
def normalize : List Char → Option (List Char)
  | [] => none
  | c :: cs =>
    if c = '[' ∨ c = '.' then some (c :: cs)
    else if Text.isAsciiLetter c ∨ c = '_' then some ('.' :: c :: cs)
    else none

/-- Reads a reference from its address. The error tells how many bytes of the address are well formed. -/
def parse (address : String) : Except Error Ref :=
  match normalize address.toList with
  | none => .error (Error.invalidRef address)
  | some cs =>
    match Component.scanAll cs with
    | .ok components => .ok ⟨components⟩
    | .error rest =>
      let offset := Text.byteLength cs - Text.byteLength rest
      .error ((Error.invalidRef address).withCause s!"Badly formed address at offset {offset}")

/-- The error of a reference without components where one is needed. -/
def noAction : Error := (Error.invalidRef "").withCause "Empty reference has no action"

/-- The first component, which every reference that can be looked up has. -/
def action (r : Ref) : Except Error Component :=
  match r.components with
  | c :: _ => .ok c
  | [] => .error noAction

end Ref

end TypedTemplate
