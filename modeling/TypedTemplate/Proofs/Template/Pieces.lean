import Mathlib.Data.List.TakeWhile
import TypedTemplate.Template.Basic

/-!
# Pieces of a text

Scanning gives back the pieces that a text was put together from, as long as no brace stands outside of a
placeholder. An address that reads as a reference has no braces, so that its placeholder is one piece again.
-/

namespace TypedTemplate

/-! ## Addresses have no braces -/

theorem Text.isBrace_of_isTokenChar {c : Char} (h : Text.isTokenChar c = true) : Piece.isBrace c = false := by
  have hne : ∀ b, Piece.isBrace b = true → Text.isTokenChar b = false := by
    intro b hb
    simp only [Piece.isBrace, Bool.or_eq_true, beq_iff_eq] at hb
    rcases hb with rfl | rfl <;> decide
  cases hc : Piece.isBrace c with
  | false => rfl
  | true => rw [hne c hc] at h; cases h

theorem Text.isBrace_of_isWord {c : Char} (h : Text.isWord c = true) : Piece.isBrace c = false :=
  Text.isBrace_of_isTokenChar (by simp [Text.isTokenChar, h])

theorem Component.scan_prefix {cs rest : List Char} {c : Component} (h : Component.scan cs = some (c, rest)) :
    ∃ used, cs = used ++ rest ∧ ∀ x ∈ used, Piece.isBrace x = false := by
  unfold Component.scan at h
  split at h
  · rename_i c cs
    split at h
    · rename_i hc
      simp only [Option.some.injEq, Prod.mk.injEq] at h
      obtain ⟨-, rfl⟩ := h
      refine ⟨'.' :: c :: cs.takeWhile Text.isWord, by simp, ?_⟩
      intro x hx
      simp only [List.mem_cons] at hx
      rcases hx with rfl | rfl | hx
      · rfl
      · simp only [Text.isNameStart, Bool.and_eq_true] at hc
        exact Text.isBrace_of_isWord hc.1
      · exact Text.isBrace_of_isWord (List.mem_takeWhile_imp hx)
    · cases h
  · rename_i cs
    split at h
    · rename_i c token rest ht hd
      simp only [Option.some.injEq, Prod.mk.injEq] at h
      obtain ⟨-, rfl⟩ := h
      have hcs : cs = c :: token ++ ']' :: rest := by
        rw [← ht, ← hd, List.takeWhile_append_dropWhile]
      refine ⟨'[' :: ((c :: token) ++ [']']), by simp [hcs], ?_⟩
      intro x hx
      rcases List.mem_cons.mp hx with rfl | hx
      · rfl
      · rcases List.mem_append.mp hx with hx | hx
        · rw [← ht] at hx
          exact Text.isBrace_of_isTokenChar (List.mem_takeWhile_imp hx)
        · rw [List.mem_singleton.mp hx]
          rfl
    · cases h
  · cases h

theorem Component.scanAll_noBrace {cs : List Char} {components : List Component}
    (h : Component.scanAll cs = .ok components) : ∀ x ∈ cs, Piece.isBrace x = false := by
  fun_induction Component.scanAll cs generalizing components with
  | case1 cs _ hempty =>
      intro x hx
      rw [List.isEmpty_iff.mp hempty] at hx
      cases hx
  | case2 => cases h
  | case3 cs c rest hscan ih =>
      cases hrest : Component.scanAll rest with
      | error e => rw [hrest] at h; cases h
      | ok others =>
          obtain ⟨used, rfl, hused⟩ := Component.scan_prefix hscan
          intro x hx
          rcases List.mem_append.mp hx with hx | hx
          · exact hused x hx
          · exact ih hrest x hx

/-- A text that reads as a reference has no braces. -/
theorem Ref.noBrace_of_parse {s : String} {r : Ref} (h : Ref.parse s = .ok r) :
    ∀ x ∈ s.toList, Piece.isBrace x = false := by
  unfold Ref.parse at h
  cases hn : Ref.normalize s.toList with
  | none => rw [hn] at h; cases h
  | some cs =>
      simp only [hn] at h
      cases hs : Component.scanAll cs with
      | error e => rw [hs] at h; cases h
      | ok components =>
          have hcs := Component.scanAll_noBrace hs
          intro x hx
          apply hcs x
          revert hn
          cases hl : s.toList with
          | nil => simp [hl] at hx
          | cons c rest =>
              rw [hl] at hx
              simp only [Ref.normalize]
              split
              · rintro ⟨⟩; exact hx
              · split
                · rintro ⟨⟩; exact List.mem_cons_of_mem _ hx
                · rintro ⟨⟩

theorem Ref.ne_nil_of_parse {s : String} {r : Ref} (h : Ref.parse s = .ok r) : s.toList ≠ [] := by
  intro hs
  simp [Ref.parse, hs, Ref.normalize] at h

theorem Piece.escaped?_of_parse {body : List Char} {r : Ref} (h : Ref.parse (String.ofList body) = .ok r) :
    Piece.escaped? body = none := by
  unfold Piece.escaped?
  split
  · rename_i c cs
    simp [Ref.parse, Ref.normalize, Text.isAsciiLetter] at h
  · rfl

namespace Piece

/-! ## Texts put together from pieces -/

def text : Piece → List Char
  | char c => [c]
  | braced body => '{' :: '{' :: (body ++ ['}', '}'])

/-- A piece that is found again wherever its text is pasted between others of the kind. -/
def Whole : Piece → Prop
  | char c => isBrace c = false
  | braced body => body ≠ [] ∧ ∀ c ∈ body, isBrace c = false

theorem braced?_text {body rest : List Char} (hne : body ≠ []) (hbody : ∀ c ∈ body, isBrace c = false) :
    braced? ('{' :: '{' :: (body ++ '}' :: '}' :: rest)) = some (body, rest) := by
  have hpos : ∀ c ∈ body, (!isBrace c) = true := fun c hc => by simp [hbody c hc]
  have htake : (body ++ '}' :: '}' :: rest).takeWhile (!isBrace ·) = body := by
    rw [List.takeWhile_append_of_pos hpos]
    simp [isBrace]
  have hdrop : (body ++ '}' :: '}' :: rest).dropWhile (!isBrace ·) = '}' :: '}' :: rest := by
    rw [List.dropWhile_append_of_pos hpos]
    simp [isBrace]
  simp only [braced?, htake, hdrop]
  cases body with
  | nil => exact absurd rfl hne
  | cons c body => rfl

theorem braced?_of_not_isBrace {c : Char} (rest : List Char) (h : isBrace c = false) :
    braced? (c :: rest) = none := by
  unfold braced?
  split
  · rename_i heq
    obtain ⟨rfl, -⟩ := List.cons.inj heq
    cases h
  · rfl

theorem scan_nil : scan [] = [] := by
  unfold scan
  simp [braced?]

theorem scan_char {c : Char} {cs : List Char} (h : braced? (c :: cs) = none) : scan (c :: cs) = char c :: scan cs := by
  rw [scan]
  split
  · rename_i hb
    rw [h] at hb
    cases hb
  · rfl

theorem scan_text_append {p : Piece} (h : p.Whole) (cs : List Char) : scan (p.text ++ cs) = p :: scan cs := by
  cases p with
  | char c => exact scan_char (braced?_of_not_isBrace cs h)
  | braced body =>
      have hcs : (braced body).text ++ cs = '{' :: '{' :: (body ++ '}' :: '}' :: cs) := by simp [text]
      rw [hcs, scan]
      split
      · rename_i hb
        rw [braced?_text h.1 h.2] at hb
        cases hb
        rfl
      · rename_i hb
        rw [braced?_text h.1 h.2] at hb
        cases hb

/-- Scanning a text that is put together from whole pieces gives the pieces back. -/
theorem scan_flatMap_text {ps : List Piece} (h : ∀ p ∈ ps, p.Whole) : scan (ps.flatMap text) = ps := by
  induction ps with
  | nil => exact scan_nil
  | cons p ps ih =>
      rw [List.flatMap_cons, scan_text_append (h p (by simp)), ih (fun q hq => h q (by simp [hq]))]

/-- The body of a placeholder that is found in a text is not empty and has no braces. -/
theorem braced?_whole {cs body rest : List Char} (h : braced? cs = some (body, rest)) :
    (braced body).Whole ∧ cs = (braced body).text ++ rest := by
  unfold braced? at h
  split at h
  · rename_i cs'
    split at h
    · rename_i c body' rest' ht hd
      simp only [Option.some.injEq, Prod.mk.injEq] at h
      obtain ⟨rfl, rfl⟩ := h
      refine ⟨⟨by simp, fun x hx => ?_⟩, ?_⟩
      · have := List.mem_takeWhile_imp (ht ▸ hx)
        simpa using this
      · have hcs : cs' = (c :: body') ++ '}' :: '}' :: rest' := by
          rw [← ht, ← hd, List.takeWhile_append_dropWhile]
        simp [text, hcs]
    · cases h
  · cases h

theorem flatMap_text_scan (cs : List Char) : (scan cs).flatMap text = cs := by
  fun_induction scan cs with
  | case1 cs body rest h ih => rw [List.flatMap_cons, ih, ← (braced?_whole h).2]
  | case2 => rfl
  | case3 c rest h ih => rw [List.flatMap_cons, ih]; rfl

/-- The placeholder of an address that reads as a reference is one piece. -/
theorem whole_of_parse {s : String} {r : Ref} (h : Ref.parse s = .ok r) : (braced s.toList).Whole :=
  ⟨Ref.ne_nil_of_parse h, Ref.noBrace_of_parse h⟩

theorem text_braced_address (r : Ref) : (braced r.address.toList).text = r.placeholder.toList := by
  simp [text, Ref.placeholder]

end Piece

end TypedTemplate
