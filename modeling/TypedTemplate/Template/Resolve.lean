import TypedTemplate.Template.Basic

/-!
# Substitution

References in a template are replaced by the texts that a lookup finds for them, and those in the resulting text
again, until only references remain for which there is none. A text that is not settled after `maxPasses`
passes refers to itself.
-/

namespace TypedTemplate.Template

/-- Looks up the text for a reference: none if nothing is bound to it. -/
abbrev Lookup := Ref → Except Error (Option String)

/-- Replaces each reference for which there is a text. The others stay as placeholders and are listed, as often as
they occur. -/
def join (lookup : Lookup) : List Fragment → Except Error (String × List Ref)
  | [] => .ok ("", [])
  | .literal text :: rest => do
    let (joined, unbound) ← join lookup rest
    return (text ++ joined, unbound)
  | .reference r :: rest => do
    let found ← lookup r
    let (joined, unbound) ← join lookup rest
    match found with
    | some text => return (text ++ joined, unbound)
    | none => return (r.placeholder ++ joined, r :: unbound)

def maxPasses : Nat := 100

/-- Substitutes until a pass leaves every reference of the text in place. -/
def settle (lookup : Lookup) : Nat → String → Except Error String
  | 0, text => .error (Error.uninterpolatable s!"Unable to interpolate {text}! Maximum replacements reached.")
  | passes + 1, text => do
    let fragments ← Fragment.split false text
    let (joined, unbound) ← join lookup fragments
    if unbound = Fragment.refs fragments then return joined else settle lookup passes joined

/-- The settled text, in which escaped placeholders have lost their marks, and the references left in it. -/
def resolve (lookup : Lookup) (text : String) : Except Error (String × List Ref) := do
  let settled ← settle lookup maxPasses text
  let fragments ← Fragment.split true settled
  let (joined, _) ← join lookup fragments
  return (joined, Fragment.refs fragments)

end TypedTemplate.Template
