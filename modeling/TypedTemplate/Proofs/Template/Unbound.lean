import Mathlib
import TypedTemplate.Object.Construct
import TypedTemplate.Object.Interpolate
import TypedTemplate.Proofs.Object.Parts
import TypedTemplate.Proofs.Ref.RoundTrip
import TypedTemplate.Proofs.Template.Split

/-!
# Templates where nothing is bound

A template that can be split is settled after one pass if nothing is bound: the pass writes each placeholder anew, an
escaped one without the marks at its end, and any other with the address of its reference. The text can be split a last
time, unless an escaped placeholder has come to a mark alone, or an address has lost a dot that it cannot do without.
-/

namespace TypedTemplate

/-! ## References that are written and read again -/

namespace Ref

/-- The address of a reference can be read if the text that it was read from does not depend on a leading dot. -/
theorem exists_parse_address_iff {s : String} {r : Ref} (h : parse s = .ok r) :
    (∃ r', parse r.address = .ok r') ↔ needsDot s.toList = false := by
  rcases written_head h with ⟨rest, haddress, hs, hscan⟩ | ⟨c, rest, haddress, hc, hs, hscan⟩
  · have hread := parse_of_normalize (by rw [haddress, normalize, if_pos (.inl rfl)]) hscan
    simp [hread, hs, needsDot]
  · have hnormal : normalize r.address.toList =
        if needsDot ('.' :: c :: rest) then none else some ('.' :: c :: rest) := by
      rw [haddress, normalize_name hc]
    have hdot : needsDot s.toList = needsDot ('.' :: c :: rest) := by
      rcases hs with hs | ⟨hs, hplain⟩
      · rw [hs]
      · have := (ne_of_isNameStart hc).2
        rw [hs, hplain]
        cases rest <;> simp [needsDot, this]
    rw [hdot]
    cases hneeds : needsDot ('.' :: c :: rest) with
    | true =>
        rw [hneeds, if_pos rfl] at hnormal
        simp [parse_of_normalize_none hnormal]
    | false =>
        rw [hneeds] at hnormal
        simp [parse_of_normalize hnormal hscan]

end Ref

/-! ## Pieces that can be read -/

namespace Piece

/-- Splitting does not fail at the piece: the body of a placeholder reads as a reference, or is escaped. -/
def Readable : Piece → Prop
  | char _ => True
  | braced body => escaped? body = none → ∃ r, Ref.parse (String.ofList body) = .ok r

theorem error?_eq_none_iff {p : Piece} : p.error? = none ↔ p.Readable := by
  cases p with
  | char c => simp [error?, Readable]
  | braced body => by_cases hbody : Escaped body <;> simp [error?, Readable, escaped?_eq, hbody, failure?_eq_none]

theorem error?_eq_some {p : Piece} {e : Error} (h : p.error? = some e) :
    ∃ address cause, e = { Error.invalidRef address with cause := cause } := by
  cases p with
  | char c => cases h
  | braced body =>
      rw [error?] at h
      split at h
      · cases h
      · exact ⟨_, Ref.parse_error (failure?_eq_some.mp h)⟩

/-- The piece can be read once more after a pass: an escaped placeholder does not consist of marks, and the body of
any other does not depend on a leading dot. -/
def Lasts : Piece → Prop
  | char _ => True
  | braced body =>
    match escaped? body with
    | some address => address ≠ []
    | none => Ref.needsDot body = false

instance : DecidablePred Lasts
  | char _ => .isTrue trivial
  | braced body =>
    match h : escaped? body with
    | some address => decidable_of_iff (address ≠ []) (by simp [Lasts, h])
    | none => decidable_of_iff (Ref.needsDot body = false) (by simp [Lasts, h])

theorem rewritten_escaped {body address : List Char} (h : escaped? body = some address) :
    (braced body).rewritten = braced ('&' :: address) := by
  simp [rewritten, h]

theorem rewritten_live {body : List Char} {r : Ref} (h : Ref.parse (String.ofList body) = .ok r) :
    (braced body).rewritten = braced r.address.toList := by
  simp [rewritten, escaped?_of_parse h, h]

theorem readable_rewritten {p : Piece} (h : p.Readable) : p.rewritten.Readable ↔ p.Lasts := by
  cases p with
  | char c => simp [rewritten, Readable, Lasts]
  | braced body =>
      cases hescaped : escaped? body with
      | some address =>
          rw [rewritten_escaped hescaped]
          have hlasts : (braced body).Lasts ↔ address ≠ [] := by simp only [Lasts, hescaped]
          rw [hlasts]
          cases address with
          | nil => simp [Readable, escaped?, Ref.parse, Ref.normalize, Text.isAsciiLetter]
          | cons c cs => simp [Readable, escaped?]
      | none =>
          obtain ⟨r, hr⟩ := h hescaped
          have hread := Ref.exists_parse_address_iff hr
          rw [String.toList_ofList] at hread
          rw [rewritten_live hr]
          simpa [Readable, Lasts, hescaped, (Ref.address_live hr).2] using hread

/-- A placeholder that can be read again is one of the same reference. -/
theorem ref?_rewritten {p : Piece} (h : p.Readable) (hread : p.rewritten.Readable) : p.rewritten.ref? = p.ref? := by
  cases p with
  | char c => rfl
  | braced body =>
      cases hescaped : escaped? body with
      | some address =>
          rw [ref?_escaped hescaped, rewritten_escaped hescaped]
          simp [ref?, Ref.parse, Ref.normalize, Text.isAsciiLetter, Except.toOption]
      | none =>
          obtain ⟨r, hr⟩ := h hescaped
          rw [rewritten_live hr] at hread ⊢
          obtain ⟨r', hr'⟩ := hread (Ref.address_live hr).2
          rw [ref?_braced hr, ref?_braced hr']
          rw [String.ofList_toList] at hr'
          rw [Ref.eq_of_parse_address hr hr']

end Piece

/-! ## Splitting -/

namespace Fragment

theorem ofPieces_ok_iff {final : Bool} {acc : List Char} {ps : List Piece} :
    (∃ fs, ofPieces final acc ps = .ok fs) ↔ ∀ p ∈ ps, p.Readable := by
  rw [← failure?_eq_none, failure?_ofPieces, List.findSome?_eq_none_iff]
  exact forall₂_congr fun p _ => Piece.error?_eq_none_iff

theorem ofPieces_error {final : Bool} {acc : List Char} {ps : List Piece} {e : Error}
    (h : ofPieces final acc ps = .error e) : ∃ address cause, e = { Error.invalidRef address with cause := cause } := by
  rw [← failure?_eq_some, failure?_ofPieces] at h
  obtain ⟨p, -, hp⟩ := List.exists_of_findSome?_eq_some h
  exact Piece.error?_eq_some hp

theorem kind_of_ofPieces {final : Bool} {acc : List Char} {ps : List Piece} {e : Error}
    (h : ofPieces final acc ps = .error e) : ∃ address, e.kind = .invalidRef address := by
  obtain ⟨address, cause, rfl⟩ := ofPieces_error h
  exact ⟨address, rfl⟩

end Fragment

/-! ## Resolving -/

namespace Template

variable {lookup : Lookup} {text : String} {fs : List Fragment}

/-- All placeholders of the text can be read once more after a pass. -/
def Lasts (text : String) : Prop := ∀ p ∈ Piece.scan text.toList, p.Lasts

instance (text : String) : Decidable (Lasts text) :=
  inferInstanceAs (Decidable (∀ p ∈ Piece.scan text.toList, p.Lasts))

/-- The text as a pass leaves it that finds nothing. -/
def rewritten (text : String) : String :=
  String.ofList (((Piece.scan text.toList).map Piece.rewritten).flatMap Piece.text)

theorem join_rewritten (hfs : Fragment.split false text = .ok fs)
    (hnone : ∀ r ∈ Fragment.refs fs, lookup r = .ok none) :
    join lookup fs = .ok (rewritten text, Fragment.refs fs) := Fragment.join_ofPieces hfs hnone

/-- The first pass is the last one where it finds nothing. -/
theorem settle_unbound (hfs : Fragment.split false text = .ok fs)
    (hnone : ∀ r ∈ Fragment.refs fs, lookup r = .ok none) : settle lookup maxPasses text = .ok (rewritten text) := by
  rw [maxPasses, settle, hfs]
  simp only [join_rewritten hfs hnone, bind, Except.bind, pure, Except.pure, ↓reduceIte]

/-- A template that lasts resolves with all its references left, and any other one fails when it is split for the last
time. -/
theorem resolve_unbound (hfs : Fragment.split false text = .ok fs)
    (hnone : ∀ r ∈ Fragment.refs fs, lookup r = .ok none) :
    (Lasts text ∧ ∃ joined, resolve lookup text = .ok (joined, Fragment.refs fs)) ∨
      ¬ Lasts text ∧ ∃ e address, resolve lookup text = .error e ∧ e.kind = .invalidRef address := by
  have hread : ∀ p ∈ Piece.scan text.toList, p.Readable := Fragment.ofPieces_ok_iff.mp ⟨fs, hfs⟩
  have hsettled := settle_unbound hfs hnone
  have hscan := scan_of_join hfs (join_rewritten hfs hnone)
  have hlasts : (∃ gs, Fragment.split true (rewritten text) = .ok gs) ↔ Lasts text := by
    rw [Fragment.split, Fragment.ofPieces_ok_iff, hscan, List.forall_mem_map]
    exact forall₂_congr fun p hp => Piece.readable_rewritten (hread p hp)
  cases hgs : Fragment.split true (rewritten text) with
  | error e =>
      obtain ⟨address, hkind⟩ := Fragment.kind_of_ofPieces hgs
      refine .inr ⟨fun h => ?_, e, address, ?_, hkind⟩
      · obtain ⟨gs, hok⟩ := hlasts.mpr h
        rw [hgs] at hok
        cases hok
      · simp only [resolve, hsettled, hgs, bind, Except.bind]
  | ok gs =>
      have hrefs : Fragment.refs gs = Fragment.refs fs := by
        have hagain := Fragment.ofPieces_ok_iff.mp ⟨gs, hgs⟩
        rw [Fragment.refs_ofPieces hgs, Fragment.refs_ofPieces hfs, hscan, List.filterMap_map]
        rw [hscan, List.forall_mem_map] at hagain
        exact List.filterMap_congr fun p hp => Piece.ref?_rewritten (hread p hp) (hagain p hp)
      have hj : join lookup gs = _ := Fragment.join_unbound (hrefs ▸ hnone)
      refine .inl ⟨hlasts.mp ⟨gs, hgs⟩, String.join (gs.map Fragment.toString), ?_⟩
      simp only [resolve, hsettled, hgs, hj, hrefs, bind, Except.bind, pure, Except.pure]

end Template

/-! ## Strings -/

variable {d : Declarations} {text : String} {o : Object}

/-- A text is made into a string as it stands, with or without placeholders. -/
theorem Ty.construct_string (h : Ty.string.construct d (.ofText text) = .ok o) :
    (hasPlaceholder text = false ∧ o = .ofPayload .string (.scalar (.string text))) ∨
      (∃ fs, Fragment.split false text = .ok fs) ∧ o = .ofPayload .string (.template text) := by
  change (if hasPlaceholder text then _ else _) = _ at h
  cases hplaceholder : hasPlaceholder text with
  | true =>
      rw [hplaceholder, if_pos rfl] at h
      obtain ⟨fs, hfs, h⟩ := Except.bind_ok h
      cases h
      exact .inr ⟨⟨fs, hfs⟩, rfl⟩
  | false =>
      rw [hplaceholder] at h
      cases h
      exact .inl ⟨rfl, rfl⟩

namespace Object

/-- A string without scopes is interpolated by resolving its text where nothing is bound. -/
theorem interpolateWithin_string (budget depth : Nat) (text : String) :
    interpolateWithin d (budget + 1) depth (.ofPayload .string (.template text)) =
      (Template.resolve (fun _ => .ok none) text).map fun (joined, left) =>
        (.ofPayload .string (if left = [] then .scalar (.string joined) else .template joined), distinct left) := by
  have hlookup : lookupBy d (interpolateWithin d budget) depth [] = fun _ => .ok none := rfl
  rw [interpolateWithin, interpolateIn_eq]
  simp only [ofPayload, interpolatePayload, resolveTemplate, List.append_nil, hlookup]
  cases hresolve : Template.resolve (fun _ => .ok none) text with
  | error e => rfl
  | ok result =>
      obtain ⟨joined, left⟩ := result
      cases left <;> rfl

/-- A string that is made of a template and has no scopes is interpolated with all its references left, each once, if
the template lasts; if not, it cannot be interpolated. -/
theorem interpolate_unbound (hplaceholder : hasPlaceholder text = true)
    (h : Ty.string.construct d (.ofText text) = .ok o) :
    ∃ fs, Fragment.split false text = .ok fs ∧
      ((Template.Lasts text ∧ ∃ resolved, o.interpolate d = .ok (resolved, distinct (Fragment.refs fs))) ∨
        ¬ Template.Lasts text ∧ ∃ e address, o.interpolate d = .error e ∧ e.kind = .invalidRef address) := by
  rcases Ty.construct_string h with ⟨hnone, -⟩ | ⟨⟨fs, hfs⟩, rfl⟩
  · rw [hplaceholder] at hnone
    cases hnone
  · refine ⟨fs, hfs, ?_⟩
    rw [interpolate, budget, interpolateWithin_string]
    rcases Template.resolve_unbound hfs fun _ _ => rfl with ⟨hlasts, joined, hr⟩ | ⟨hnot, e, address, hr, hkind⟩
    · rw [hr]
      exact .inl ⟨hlasts, _, rfl⟩
    · rw [hr]
      exact .inr ⟨hnot, e, address, rfl, hkind⟩

/-- A reference that is mentioned twice is left once, and an escaped one not at all. -/
theorem interpolate_unbound_greeting :
    let text := "\x7b\x7b.name\x7d\x7d (\x7b\x7b&id&&\x7d\x7d): \x7b\x7bgreetings[0]\x7d\x7d, \x7b\x7bname\x7d\x7d"
    hasPlaceholder text = true ∧ ∃ o, Ty.string.construct default (.ofText text) = .ok o ∧
      ∃ resolved, o.interpolate default =
        .ok (resolved, [.ofName "name", ⟨[.dereference "greetings", .index "0"]⟩]) := by
  intro text
  have hplaceholder : hasPlaceholder text = true := by cbv
  have ho : Ty.string.construct default (.ofText text) = .ok (.ofPayload .string (.template text)) := by cbv
  have hrefs : (Fragment.split false text).map Fragment.refs =
      .ok [.ofName "name", ⟨[.dereference "greetings", .index "0"]⟩, .ofName "name"] := by cbv
  have hlasts : Template.Lasts text := by decide +kernel
  refine ⟨hplaceholder, _, ho, ?_⟩
  obtain ⟨fs, hfs, ⟨-, resolved, hr⟩ | ⟨hnot, -⟩⟩ := interpolate_unbound hplaceholder ho
  · rw [hfs] at hrefs
    rw [Except.ok.inj hrefs] at hr
    exact ⟨resolved, hr⟩
  · exact absurd hlasts hnot

/-- Two marks and nothing else make an escaped placeholder, which is left with a mark that is no reference. -/
theorem interpolate_unbound_marks :
    let text := "\x7b\x7b&&\x7d\x7d"
    hasPlaceholder text = true ∧ ∃ o, Ty.string.construct default (.ofText text) = .ok o ∧
      (∃ fs, Fragment.split false text = .ok fs) ∧
      ∃ e, o.interpolate default = .error e ∧ e.kind = .invalidRef "&" := by
  intro text
  have ho : Ty.string.construct default (.ofText text) = .ok (.ofPayload .string (.template text)) := by cbv
  have hsplit : Fragment.split false text = .ok [.literal "\x7b\x7b&\x7d\x7d"] := by cbv
  have hresolve : Template.resolve (fun _ => .ok none) text = .error (Error.invalidRef "&") := by cbv
  refine ⟨by cbv, _, ho, ⟨_, hsplit⟩, Error.invalidRef "&", ?_, rfl⟩
  rw [interpolate, budget, interpolateWithin_string, hresolve]
  rfl

end Object

end TypedTemplate
