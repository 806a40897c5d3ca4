import Mathlib.Data.List.Chain
import Mathlib.Data.List.DropRight
import TypedTemplate.Proofs.Template.Settled

/-!
# What splitting finds

A placeholder stands in a text wherever double braces enclose a body that is not empty and has no braces. No two of them
overlap, so that a text divides in one way into placeholders and the characters between them. Splitting reads the live
placeholders among them as references, and loses nothing of the rest.
-/

namespace TypedTemplate

namespace Piece

/-! ## Dividing a text -/

/-- A placeholder stands in the text, with a body that is not empty and has no braces. -/
structure Occurs (cs before body after : List Char) : Prop where
  text : cs = before ++ '{' :: '{' :: body ++ '}' :: '}' :: after
  ne_nil : body ≠ []
  no_brace : '{' ∉ body ∧ '}' ∉ body

/-- The pieces make up the text, and their placeholders are those that stand in it, each in its place. -/
structure Divides (ps : List Piece) (cs : List Char) : Prop where
  text : ps.flatMap Piece.text = cs
  braced_iff (before body after : List Char) : Occurs cs before body after ↔
    ∃ front back, ps = front ++ braced body :: back ∧ front.flatMap Piece.text = before ∧ back.flatMap Piece.text = after

theorem occurs_iff {cs before body after : List Char} :
    Occurs cs before body after ↔ cs = before ++ ((braced body).text ++ after) ∧ (braced body).Whole := by
  have htext : before ++ '{' :: '{' :: body ++ '}' :: '}' :: after = before ++ ((braced body).text ++ after) := by
    simp [Piece.text]
  have hbrace : ('{' ∉ body ∧ '}' ∉ body) ↔ ∀ c ∈ body, isBrace c = false := by
    constructor
    · rintro ⟨hopen, hclose⟩ c hc
      have hne : c ≠ '{' ∧ c ≠ '}' := ⟨fun h => hopen (h ▸ hc), fun h => hclose (h ▸ hc)⟩
      simp [isBrace, hne]
    · exact fun h => ⟨fun hc => absurd (h _ hc) (by decide), fun hc => absurd (h _ hc) (by decide)⟩
  constructor
  · intro h
    exact ⟨htext ▸ h.text, h.ne_nil, hbrace.mp h.no_brace⟩
  · rintro ⟨hcs, hne, hnone⟩
    exact ⟨htext ▸ hcs, hne, hbrace.mpr hnone⟩

theorem whole_of_mem_scan {cs body : List Char} (h : braced body ∈ scan cs) : (braced body).Whole := by
  fun_induction scan cs with
  | case1 cs found rest hb ih =>
      rcases List.mem_cons.mp h with heq | h
      · rw [heq]
        exact (braced?_whole hb).1
      · exact ih h
  | case2 => cases h
  | case3 c rest hb ih => exact ih (by simpa using h)

theorem divides_scan (cs : List Char) : Divides (scan cs) cs := by
  refine ⟨flatMap_text_scan cs, fun before body after => ?_⟩
  rw [occurs_iff]
  constructor
  · rintro ⟨rfl, hwhole⟩
    exact ⟨scan before, scan after, scan_append_braced hwhole before after, flatMap_text_scan before,
      flatMap_text_scan after⟩
  · rintro ⟨front, back, hscan, rfl, rfl⟩
    have hmem : braced body ∈ scan cs := by simp [hscan]
    refine ⟨?_, whole_of_mem_scan hmem⟩
    rw [← flatMap_text_scan cs, hscan, List.flatMap_append, List.flatMap_cons]

theorem text_ne_nil (p : Piece) : p.text ≠ [] := by
  cases p <;> simp [Piece.text]

theorem eq_nil_of_flatMap_text {ps : List Piece} (h : ps.flatMap Piece.text = []) : ps = [] :=
  List.eq_nil_iff_forall_not_mem.mpr fun p hp => p.text_ne_nil (List.flatMap_eq_nil_iff.mp h p hp)

namespace Divides

variable {p : Piece} {ps qs : List Piece} {cs rest : List Char}

theorem tail (h : Divides (p :: ps) (p.text ++ rest)) : Divides ps rest := by
  refine ⟨List.append_cancel_left h.text, fun before body after => ?_⟩
  have hshift : Occurs (p.text ++ rest) (p.text ++ before) body after ↔ Occurs rest before body after := by
    rw [occurs_iff, occurs_iff, List.append_assoc, List.append_cancel_left_eq]
  rw [← hshift, h.braced_iff]
  constructor
  · rintro ⟨front, back, hps, hbefore, hafter⟩
    cases front with
    | nil => exact absurd hbefore.symm (by simp [p.text_ne_nil])
    | cons q front =>
        obtain ⟨rfl, hrest⟩ := List.cons.inj hps
        exact ⟨front, back, hrest, List.append_cancel_left hbefore, hafter⟩
  · rintro ⟨front, back, rfl, rfl, hafter⟩
    exact ⟨p :: front, back, rfl, rfl, hafter⟩

/-- A placeholder in front of the text is in front of all pieces that divide it. -/
theorem head_eq {body : List Char} (h : Divides (braced body :: ps) cs) (hq : Divides (p :: qs) cs) : p = braced body := by
  have hoccurs : Occurs cs [] body (ps.flatMap Piece.text) := (h.braced_iff _ _ _).mpr ⟨[], ps, rfl, rfl, rfl⟩
  obtain ⟨front, back, hqs, hfront, -⟩ := (hq.braced_iff _ _ _).mp hoccurs
  rw [eq_nil_of_flatMap_text hfront] at hqs
  exact (List.cons.inj hqs).1

/-- A text divides in one way only. -/
theorem unique (h : Divides ps cs) (hq : Divides qs cs) : ps = qs := by
  -- The first pieces agree, as both lists begin with a placeholder if the text does. What is left divides the rest.
  induction ps generalizing qs cs with
  | nil =>
      have hcs : qs.flatMap Piece.text = [] := hq.text.trans h.text.symm
      exact (eq_nil_of_flatMap_text hcs).symm
  | cons p ps ih =>
      cases qs with
      | nil =>
          have hcs : (p :: ps).flatMap Piece.text = [] := h.text.trans hq.text.symm
          exact eq_nil_of_flatMap_text hcs
      | cons q qs =>
          have hpq : p = q := by
            cases p with
            | braced body => exact (h.head_eq hq).symm
            | char c =>
                cases q with
                | braced body => exact hq.head_eq h
                | char c' =>
                    have htext := h.text.trans hq.text.symm
                    rw [(List.cons.inj htext).1]
          subst hpq
          have hcs : cs = p.text ++ ps.flatMap Piece.text := h.text.symm
          rw [hcs] at h hq
          rw [ih h.tail hq.tail]

end Divides

theorem divides_iff {ps : List Piece} {cs : List Char} : Divides ps cs ↔ ps = scan cs :=
  ⟨fun h => h.unique (divides_scan cs), fun h => h ▸ divides_scan cs⟩

/-! ## Live and escaped placeholders -/

/-- The body starts with the mark of an escaped placeholder, and goes on behind it. -/
def Escaped (body : List Char) : Prop := body.head? = some '&' ∧ 2 ≤ body.length

instance : DecidablePred Escaped := fun body => inferInstanceAs (Decidable (body.head? = some '&' ∧ 2 ≤ body.length))

/-- The address in an escaped placeholder's body, without the mark before it and those behind it. -/
def unmarked (body : List Char) : List Char := body.tail.rdropWhile (· == '&')

theorem escaped?_eq (body : List Char) : escaped? body = if Escaped body then some (unmarked body) else none := by
  unfold escaped?
  split
  · exact (if_pos ⟨rfl, by simp⟩).symm
  · rename_i hne
    refine (if_neg ?_).symm
    rintro ⟨hmark, hlength⟩
    match body with
    | [] => cases hmark
    | [c] => simp at hlength
    | c :: c' :: cs =>
        obtain rfl := Option.some.inj hmark
        exact hne c' cs rfl

/-- The error at a live placeholder whose body cannot be read as a reference. -/
def error? : Piece → Option Error
  | char _ => none
  | braced body => if Escaped body then none else failure? (Ref.parse (String.ofList body))

/-- The piece as splitting leaves it: a live placeholder has the address of its reference for a body, and an escaped one
keeps its address, and in a text that is not final the mark before it. -/
def shown (final : Bool) : Piece → Piece
  | char c => char c
  | braced body =>
    if Escaped body then braced (if final then unmarked body else '&' :: unmarked body)
    else match Ref.parse (String.ofList body) with
      | .ok r => braced r.address.toList
      | .error _ => braced body

theorem escaped_of_some {body address : List Char} (h : escaped? body = some address) :
    Escaped body ∧ address = unmarked body := by
  rw [escaped?_eq] at h
  split at h
  · cases h
    exact ⟨‹_›, rfl⟩
  · cases h

theorem not_escaped_of_none {body : List Char} (h : escaped? body = none) : ¬ Escaped body := by
  rw [escaped?_eq] at h
  split at h
  · cases h
  · assumption

theorem text_shown_escaped {body address : List Char} (h : escaped? body = some address) (final : Bool) :
    ((braced body).shown final).text = escapedText final address := by
  obtain ⟨hbody, rfl⟩ := escaped_of_some h
  cases final <;> simp [shown, hbody, Piece.text, escapedText]

theorem text_shown_live {body : List Char} {r : Ref} (h : escaped? body = none)
    (hr : Ref.parse (String.ofList body) = .ok r) (final : Bool) :
    ((braced body).shown final).text = r.placeholder.toList := by
  simp [shown, not_escaped_of_none h, hr, text_braced_address]

end Piece

/-! ## Splitting -/

namespace Fragment

/-- No literal is empty, and of two neighbours one is a reference. -/
structure Merged (fs : List Fragment) : Prop where
  ne_empty : literal "" ∉ fs
  apart : fs.IsChain fun f g => (∃ r, f = reference r) ∨ ∃ r, g = reference r

theorem Merged.consLiteral {fs : List Fragment} (h : Merged fs) (hhead : ∀ f ∈ fs.head?, ∃ r, f = reference r)
    (acc : List Char) : Merged (consLiteral acc fs) := by
  unfold Fragment.consLiteral
  split
  · exact h
  · rename_i hacc
    refine ⟨fun hm => ?_, h.apart.cons fun f hf => .inr (hhead f hf)⟩
    rcases List.mem_cons.mp hm with heq | hm
    · have hempty : String.ofList acc.reverse = "" := (Fragment.literal.inj heq).symm
      exact hacc (by simpa using hempty)
    · exact h.ne_empty hm

theorem Merged.cons_reference {fs : List Fragment} (h : Merged fs) (r : Ref) : Merged (reference r :: fs) :=
  ⟨fun hm => h.ne_empty (by simpa using hm), h.apart.cons fun _ _ => .inl ⟨r, rfl⟩⟩

variable {final : Bool} {acc : List Char} {ps : List Piece} {fs : List Fragment}

theorem Joins.merged (h : Joins final acc ps fs) : Merged fs := by
  induction h with
  | nil => exact Merged.consLiteral ⟨by simp, .nil⟩ (by simp) _
  | char _ ih => exact ih
  | escaped _ _ ih => exact ih
  | live _ _ _ ih => exact (ih.cons_reference _).consLiteral (by simp) _

theorem toList_consLiteral (acc : List Char) (fs : List Fragment) :
    ((consLiteral acc fs).flatMap (·.toString.toList)) = acc.reverse ++ fs.flatMap (·.toString.toList) := by
  unfold consLiteral
  split
  · rename_i hacc
    simp [List.isEmpty_iff.mp hacc]
  · simp [toString]

theorem Joins.flatMap_shown (h : Joins final acc ps fs) :
    fs.flatMap (·.toString.toList) = acc.reverse ++ (ps.map (Piece.shown final)).flatMap Piece.text := by
  induction h with
  | nil => exact toList_consLiteral _ []
  | char _ ih =>
      rw [ih]
      simp [Piece.shown, Piece.text]
  | escaped haddress _ ih =>
      rw [ih, List.map_cons, List.flatMap_cons, Piece.text_shown_escaped haddress]
      simp
  | live hlive hr _ ih =>
      rw [toList_consLiteral, List.flatMap_cons, ih, List.map_cons, List.flatMap_cons, Piece.text_shown_live hlive hr]
      simp [toString]

theorem failure?_ofPieces (final : Bool) (acc : List Char) (ps : List Piece) :
    failure? (ofPieces final acc ps) = ps.findSome? Piece.error? := by
  induction ps generalizing acc with
  | nil => rfl
  | cons p ps ih =>
      cases p with
      | char c => exact ih (c :: acc)
      | braced body =>
          rw [List.findSome?_cons, ofPieces, Piece.escaped?_eq, Piece.error?]
          by_cases hbody : Piece.Escaped body
          · simp only [hbody, ↓reduceIte, ih]
          · simp only [hbody, ↓reduceIte]
            cases Ref.parse (String.ofList body) with
            | error e => rfl
            | ok r =>
                simp only [failure?, ← ih []]
                cases ofPieces final [] ps <;> rfl

/-- Every text divides in one way. Splitting it fails exactly if the body of a live placeholder cannot be read, with the
error of the first such body. If it succeeds, then with one reference for each live placeholder, with literals that are
neither empty nor next to each other, and without a loss of text. -/
theorem split_divides (final : Bool) (text : String) :
    ∃ ps, (∀ qs, Piece.Divides qs text.toList ↔ qs = ps) ∧
      (∀ e, split final text = .error e ↔ ps.findSome? Piece.error? = some e) ∧
      ∀ fs, split final text = .ok fs → refs fs = ps.filterMap Piece.ref? ∧ Merged fs ∧
        String.join (fs.map toString) = String.ofList ((ps.map (Piece.shown final)).flatMap Piece.text) := by
  refine ⟨Piece.scan text.toList, fun qs => Piece.divides_iff, fun e => ?_, fun fs hfs => ?_⟩
  · rw [← failure?_eq_some, split, failure?_ofPieces]
  · have hjoins := joins_of_ofPieces hfs
    refine ⟨refs_ofPieces hfs, hjoins.merged, String.toList_injective ?_⟩
    rw [String.toList_ofList, String.toList_join, List.flatMap_map]
    simpa using hjoins.flatMap_shown

/-- Of three braces the outer one is text, and an escaped placeholder loses the marks at its end. -/
example : split false "\x7b\x7b\x7ba\x7d\x7d\x7d\x7b\x7b&b&\x7d\x7d" =
    .ok [.literal "\x7b", .reference (.ofName "a"), .literal "\x7d\x7b\x7b&b\x7d\x7d"] := by cbv

end Fragment

end TypedTemplate
