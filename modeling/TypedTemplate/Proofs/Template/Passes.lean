import TypedTemplate.Proofs.Template.Live

/-!
# One pass at a time

Resolving with any number of passes. A text without placeholders is settled as it stands, and a text that is nothing
but one placeholder is followed by what is found for it, with one pass less.
-/

namespace TypedTemplate

namespace Fragment

theorem join_literal (lookup : Template.Lookup) (acc : List Char) :
    Template.join lookup (consLiteral acc []) = .ok (String.ofList acc.reverse, []) := by
  have hnil : Template.join lookup [] = .ok (String.ofList [], []) := rfl
  simpa using join_consLiteral acc hnil

theorem ofPieces_chars (final : Bool) {ps : List Piece} (h : ∀ p ∈ ps, p.isBraced = false) (acc : List Char) :
    ofPieces final acc ps = .ok (consLiteral ((ps.flatMap Piece.text).reverse ++ acc) []) := by
  induction ps generalizing acc with
  | nil => rfl
  | cons p ps ih =>
      cases p with
      | char c =>
          rw [ofPieces, ih (fun q hq => h q (by simp [hq]))]
          simp [Piece.text]
      | braced body => cases h (.braced body) (by simp)

theorem split_of_noPlaceholder {text : String} (h : hasPlaceholder text = false) (final : Bool) :
    split final text = .ok (consLiteral text.toList.reverse []) := by
  have hps : ∀ p ∈ Piece.scan text.toList, p.isBraced = false := by
    simpa [hasPlaceholder] using h
  rw [split, ofPieces_chars final hps, Piece.flatMap_text_scan, List.append_nil]

theorem split_placeholder {r : Ref} (h : Ref.parse r.address = .ok r) (final : Bool) :
    split final r.placeholder = .ok [.reference r] := by
  have hscan : Piece.scan r.placeholder.toList = [.braced r.address.toList] := by
    have hwhole : ∀ p ∈ [Piece.braced r.address.toList], p.Whole := by simpa using Piece.whole_of_parse h
    simpa [Piece.text_braced_address] using Piece.scan_flatMap_text hwhole
  have hparse : Ref.parse (String.ofList r.address.toList) = .ok r := by simpa using h
  rw [split, hscan, ofPieces, Piece.escaped?_of_parse hparse]
  simp only [hparse, ofPieces, consLiteral, List.isEmpty_nil, ↓reduceIte, bind, Except.bind, pure, Except.pure]

end Fragment

namespace Template

variable {lookup : Lookup} {text : String}

/-- What a text comes to within a number of passes, and the references left in it. -/
def resolveWithin (passes : Nat) (lookup : Lookup) (text : String) : Except Error (String × List Ref) := do
  let settled ← settle lookup passes text
  let fragments ← Fragment.split true settled
  let (joined, _) ← join lookup fragments
  return (joined, Fragment.refs fragments)

theorem resolve_eq : resolve lookup text = resolveWithin maxPasses lookup text := rfl

theorem settle_of_noPlaceholder (h : hasPlaceholder text = false) (passes : Nat) :
    settle lookup (passes + 1) text = .ok text := by
  rw [settle, Fragment.split_of_noPlaceholder h]
  simp [Fragment.join_literal, Fragment.refs_consLiteral, Fragment.refs, bind, Except.bind, pure, Except.pure]

theorem resolveWithin_of_noPlaceholder (h : hasPlaceholder text = false) (passes : Nat) :
    resolveWithin (passes + 1) lookup text = .ok (text, []) := by
  rw [resolveWithin, settle_of_noPlaceholder h]
  simp [Fragment.split_of_noPlaceholder h, Fragment.join_literal, Fragment.refs_consLiteral, Fragment.refs, bind,
    Except.bind, pure, Except.pure]

/-- A placeholder on its own comes to what is found for it, with one pass less. -/
theorem resolveWithin_placeholder {r : Ref} (h : Ref.parse r.address = .ok r) (hl : lookup r = .ok (some text))
    (passes : Nat) : resolveWithin (passes + 1) lookup r.placeholder = resolveWithin passes lookup text := by
  have hsettle : settle lookup (passes + 1) r.placeholder = settle lookup passes text := by
    rw [settle, Fragment.split_placeholder h]
    simp [join, hl, Fragment.refs, bind, Except.bind, pure, Except.pure]
  rw [resolveWithin, resolveWithin, hsettle]

/-- A placeholder on its own for which nothing is found is left as it is. -/
theorem resolve_placeholder_none {r : Ref} (h : Ref.parse r.address = .ok r) (hl : lookup r = .ok none) :
    resolve lookup r.placeholder = .ok (r.placeholder, [r]) := by
  have hjoin : join lookup [.reference r] = .ok (r.placeholder, [r]) := by
    simp [join, hl, bind, Except.bind, pure, Except.pure]
  rw [resolve, maxPasses, settle, Fragment.split_placeholder h]
  simp [hjoin, Fragment.split_placeholder h, Fragment.refs, bind, Except.bind, pure, Except.pure]

theorem resolve_placeholder_error {r : Ref} {e : Error} (h : Ref.parse r.address = .ok r) (hl : lookup r = .error e) :
    resolve lookup r.placeholder = .error e := by
  rw [resolve, maxPasses, settle, Fragment.split_placeholder h]
  simp [join, hl, bind, Except.bind]

end Template

end TypedTemplate
