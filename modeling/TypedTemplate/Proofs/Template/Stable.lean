import TypedTemplate.Proofs.Template.Settled

/-!
# Texts that stay

What resolving leaves is a text in which all placeholders are written the way a pass writes them. It stays as it is
when it is resolved again where its references are still unbound, unless an escaped placeholder in it has lost its mark.
-/

namespace TypedTemplate

namespace Piece

/-- A placeholder that has been written anew and is read as a reference is written in the same way again. -/
theorem rewritten_rewritten {p : Piece} {body : List Char} (h : p.rewritten = braced body)
    (hlive : escaped? body = none) {r : Ref} (hr : Ref.parse (String.ofList body) = .ok r) :
    (braced body).rewritten = braced body := by
  cases p with
  | char c => cases h
  | braced first =>
      simp only [rewritten] at h
      split at h
      · rename_i address _
        cases h
        cases address with
        | nil => cases hr
        | cons c cs => cases hlive
      · split at h
        · rename_i r' hr'
          cases h
          rw [String.ofList_toList] at hr
          obtain rfl := Ref.eq_of_parse_address hr' hr
          simp only [rewritten, hlive, String.ofList_toList, hr]
        · rename_i e he
          cases h
          rw [hr] at he
          cases he

end Piece

/-- Where no placeholder is escaped, the marks of escaped ones do not matter. -/
theorem Fragment.ofPieces_final {ps : List Piece}
    (h : ∀ body, Piece.braced body ∈ ps → Piece.escaped? body = none) (acc : List Char) :
    ofPieces true acc ps = ofPieces false acc ps := by
  induction ps generalizing acc with
  | nil => rfl
  | cons p ps ih =>
      have hps : ∀ body, Piece.braced body ∈ ps → Piece.escaped? body = none :=
        fun body hbody => h body (List.mem_cons_of_mem _ hbody)
      cases p with
      | char c => rw [ofPieces, ofPieces, ih hps]
      | braced body =>
          have hbody := h body (by simp)
          simp only [ofPieces, hbody, ih hps]

namespace Template

variable {lookup lookup' : Lookup} {text : String}

/-- A placeholder that is escaped stands in the text beside one that is not. -/
def Mixed (text : String) : Prop :=
  Open text ∧ ∃ body, .braced body ∈ Piece.scan text.toList ∧ Piece.escaped? body ≠ none

/-- A text in which references are left is open. -/
theorem open_of_split {final : Bool} {fs : List Fragment} (h : Fragment.split final text = .ok fs)
    (hrefs : Fragment.refs fs ≠ []) : Open text := by
  obtain ⟨r, rest, hr⟩ := List.exists_cons_of_ne_nil hrefs
  have hmem : r ∈ Fragment.refs fs := by simp [hr]
  rw [Fragment.refs_ofPieces h, List.mem_filterMap] at hmem
  obtain ⟨p, hp, hpr⟩ := hmem
  cases p with
  | char c => cases hpr
  | braced body =>
      refine ⟨body, hp, ?_⟩
      cases hescaped : Piece.escaped? body with
      | none => rfl
      | some address =>
          rw [Piece.ref?_escaped hescaped] at hpr
          cases hpr

/-- A text that settles without an escaped placeholder beside an open one is left as it is, and with the same
references, wherever these are not bound. -/
theorem resolve_again (hmixed : ∀ settled, settle lookup maxPasses text = .ok settled → ¬ Mixed settled)
    {joined : String} {left : List Ref} (h : resolve lookup text = .ok (joined, left)) (hleft : left ≠ [])
    (hunbound : ∀ r ∈ left, lookup' r = .ok none) :
    (∃ fs, Fragment.split false joined = .ok fs) ∧ resolve lookup' joined = .ok (joined, left) := by
  have hnone := lookup_of_resolve h
  obtain ⟨settled, hsettled, h⟩ := Except.bind_ok h
  obtain ⟨fs, hfs, h⟩ := Except.bind_ok h
  obtain ⟨⟨joined', unbound⟩, hj, h⟩ := Except.bind_ok h
  cases h
  have hlive : ∀ body, .braced body ∈ Piece.scan settled.toList → Piece.escaped? body = none := by
    intro body hbody
    by_contra hescaped
    exact hmixed settled hsettled ⟨open_of_split hfs hleft, body, hbody, hescaped⟩
  have hsplit : Fragment.split false settled = .ok fs := by
    rw [← hfs, Fragment.split, Fragment.split, Fragment.ofPieces_final hlive]
  -- The pieces have been written anew by the last pass, and writing them once more changes nothing.
  have hsame : (Piece.scan settled.toList).map Piece.rewritten = Piece.scan settled.toList := by
    obtain ⟨before, gs, hgs, hg⟩ := settle_fixpoint hsettled
    rw [List.map_congr_left (g := id), List.map_id]
    intro p hp
    cases p with
    | char c => rfl
    | braced body =>
        obtain ⟨r, hr⟩ := Fragment.parse_of_ofPieces hsplit hp (hlive body hp)
        have hwritten := hp
        rw [scan_of_join hgs hg] at hwritten
        obtain ⟨q, -, hq⟩ := List.mem_map.mp hwritten
        exact Piece.rewritten_rewritten hq (hlive body hp) hr
  have hjoin : ∀ lookup : Lookup, (∀ r ∈ Fragment.refs fs, lookup r = .ok none) →
      join lookup fs = .ok (settled, Fragment.refs fs) := by
    intro lookup hlookup
    rw [Fragment.join_ofPieces hsplit hlookup, hsame, Piece.flatMap_text_scan]
    simp
  rw [hjoin lookup hnone] at hj
  cases hj
  refine ⟨⟨fs, hsplit⟩, ?_⟩
  have hagain : settle lookup' maxPasses joined = .ok joined := by
    rw [maxPasses, settle]
    simp [hsplit, hjoin lookup' hunbound, bind, Except.bind, pure, Except.pure]
  simp [resolve, hagain, hfs, hjoin lookup' hunbound, bind, Except.bind, pure, Except.pure]

end Template

end TypedTemplate
