import TypedTemplate.Proofs.Template.Pieces
import TypedTemplate.Template.Resolve

/-!
# Live texts

In a live text every brace belongs to a placeholder, and every placeholder to a reference that its address gives
back. One pass of substitution works on such a text piece by piece, and leaves a live text behind if all the
texts that it puts in are live.
-/

namespace TypedTemplate

namespace Piece

def ref? : Piece → Option Ref
  | char _ => none
  | braced body => (Ref.parse (String.ofList body)).toOption

/-- No brace, or a placeholder of a reference that is read again from its address. -/
def Live : Piece → Prop
  | char c => isBrace c = false
  | braced body => ∃ r, Ref.parse (String.ofList body) = .ok r ∧ Ref.parse r.address = .ok r

instance : DecidablePred Live
  | char c => inferInstanceAs (Decidable (isBrace c = false))
  | braced body =>
    match h : Ref.parse (String.ofList body) with
    | .ok r => decidable_of_iff (Ref.parse r.address = .ok r) (by simp [Live, h])
    | .error e => .isFalse (by simp [Live, h])

/-- What stands in the place of a piece after a pass that finds these texts. -/
def step (find : Ref → Option String) (p : Piece) : List Piece :=
  match p.ref? with
  | none => [p]
  | some r =>
    match find r with
    | some text => scan text.toList
    | none => [braced r.address.toList]

theorem Live.whole {p : Piece} (h : p.Live) : p.Whole := by
  cases p with
  | char c => exact h
  | braced body =>
      obtain ⟨r, hr, -⟩ := h
      simpa using whole_of_parse hr

theorem ref?_char (c : Char) : (char c).ref? = none := rfl

theorem ref?_braced {body : List Char} {r : Ref} (h : Ref.parse (String.ofList body) = .ok r) :
    (braced body).ref? = some r := by
  rw [ref?, h]
  rfl

theorem step_char (find : Ref → Option String) (c : Char) : (char c).step find = [char c] := rfl

theorem step_bound {find : Ref → Option String} {body : List Char} {r : Ref} {text : String}
    (h : Ref.parse (String.ofList body) = .ok r) (hf : find r = some text) :
    (braced body).step find = scan text.toList := by
  simp [step, ref?_braced h, hf]

theorem step_unbound {find : Ref → Option String} {body : List Char} {r : Ref}
    (h : Ref.parse (String.ofList body) = .ok r) (hf : find r = none) :
    (braced body).step find = [braced r.address.toList] := by
  simp [step, ref?_braced h, hf]

theorem Live.braced_address {r : Ref} (h : Ref.parse r.address = .ok r) : (braced r.address.toList).Live :=
  ⟨r, by simpa using h, h⟩

end Piece

/-- Every brace of the text belongs to a placeholder of a reference that is read again from its address. -/
def Template.Live (text : String) : Prop := ∀ p ∈ Piece.scan text.toList, p.Live

instance (text : String) : Decidable (Template.Live text) :=
  inferInstanceAs (Decidable (∀ p ∈ Piece.scan text.toList, p.Live))

theorem Piece.Live.step {find : Ref → Option String} (hfind : ∀ r text, find r = some text → Template.Live text)
    {p : Piece} (h : p.Live) : ∀ q ∈ p.step find, q.Live := by
  intro q hq
  cases p with
  | char c =>
      rw [step_char, List.mem_singleton] at hq
      rwa [hq]
  | braced body =>
      obtain ⟨r, hr, ha⟩ := h
      cases hf : find r with
      | some text =>
          rw [step_bound hr hf] at hq
          exact hfind r text hf q hq
      | none =>
          rw [step_unbound hr hf, List.mem_singleton] at hq
          rw [hq]
          exact Live.braced_address ha

/-! ## Fragments of live pieces -/

namespace Fragment

theorem join_consLiteral {lookup : Template.Lookup} (acc : List Char) {fs : List Fragment} {text : List Char}
    {unbound : List Ref} (h : Template.join lookup fs = .ok (String.ofList text, unbound)) :
    Template.join lookup (consLiteral acc fs) = .ok (String.ofList (acc.reverse ++ text), unbound) := by
  unfold consLiteral
  split
  · rename_i hacc
    rw [List.isEmpty_iff.mp hacc]
    exact h
  · simp [Template.join, h, bind, Except.bind, pure, Except.pure, String.ofList_append]

theorem refs_consLiteral (acc : List Char) (fs : List Fragment) : refs (consLiteral acc fs) = refs fs := by
  unfold consLiteral
  split <;> rfl

/-- Live pieces make fragments with their references, and joining the fragments takes each piece one step. -/
theorem ofPieces_live (final : Bool) {ps : List Piece} (h : ∀ p ∈ ps, p.Live) (acc : List Char) :
    ∃ fs, ofPieces final acc ps = .ok fs ∧ refs fs = ps.filterMap Piece.ref? ∧
      ∀ find : Ref → Option String, Template.join (fun r => .ok (find r)) fs
        = .ok (String.ofList (acc.reverse ++ (ps.flatMap (Piece.step find)).flatMap Piece.text),
          (ps.filterMap Piece.ref?).filter fun r => (find r).isNone) := by
  induction ps generalizing acc with
  | nil =>
      refine ⟨consLiteral acc [], rfl, refs_consLiteral acc [], fun find => ?_⟩
      exact join_consLiteral acc rfl
  | cons p ps ih =>
      have hps : ∀ q ∈ ps, q.Live := fun q hq => h q (by simp [hq])
      have hp : p.Live := h p (by simp)
      cases p with
      | char c =>
          obtain ⟨fs, hfs, hrefs, hjoin⟩ := ih hps (c :: acc)
          refine ⟨fs, hfs, hrefs, fun find => ?_⟩
          rw [hjoin find, List.filterMap_cons_none (Piece.ref?_char c)]
          simp [Piece.step_char, Piece.text]
      | braced body =>
          obtain ⟨r, hr, -⟩ := hp
          obtain ⟨fs, hfs, hrefs, hjoin⟩ := ih hps []
          refine ⟨consLiteral acc (reference r :: fs), ?_, ?_, fun find => join_consLiteral acc ?_⟩
          · simp [ofPieces, Piece.escaped?_of_parse hr, hr, hfs, bind, Except.bind, pure, Except.pure]
          · simp [refs_consLiteral, refs, hrefs, Piece.ref?_braced hr]
          · have hj := hjoin find
            cases hf : find r with
            | some text =>
                simp [Template.join, hj, hf, bind, Except.bind, pure, Except.pure, Piece.step_bound hr hf,
                  Piece.ref?_braced hr, String.ofList_append, Piece.flatMap_text_scan]
            | none =>
                simp [Template.join, hj, hf, bind, Except.bind, pure, Except.pure, Piece.step_unbound hr hf,
                  Piece.ref?_braced hr, String.ofList_append, Piece.text_braced_address]

end Fragment

namespace Template

def refs (text : String) : List Ref :=
  match Fragment.split false text with
  | .ok fragments => Fragment.refs fragments
  | .error _ => []

def pass (find : Ref → Option String) (text : String) : String :=
  String.ofList (((Piece.scan text.toList).flatMap (Piece.step find)).flatMap Piece.text)

theorem Live.split_join {text : String} (h : Live text) (final : Bool) :
    ∃ fs, Fragment.split final text = .ok fs ∧ Fragment.refs fs = refs text ∧
      ∀ find : Ref → Option String, join (fun r => .ok (find r)) fs
        = .ok (pass find text, (refs text).filter fun r => (find r).isNone) := by
  obtain ⟨gs, hgs, hgrefs, -⟩ := Fragment.ofPieces_live false h []
  obtain ⟨fs, hfs, hfrefs, hjoin⟩ := Fragment.ofPieces_live final h []
  have hrefs : refs text = (Piece.scan text.toList).filterMap Piece.ref? := by
    simp only [refs, Fragment.split, hgs, hgrefs]
  exact ⟨fs, hfs, by rw [hfrefs, hrefs], fun find => by rw [hjoin find, hrefs]; rfl⟩

theorem Live.refs_eq {text : String} (h : Live text) : refs text = (Piece.scan text.toList).filterMap Piece.ref? := by
  obtain ⟨fs, hfs, hrefs, -⟩ := Fragment.ofPieces_live false h []
  simp only [refs, Fragment.split, hfs, hrefs]

variable {find : Ref → Option String}

theorem Live.scan_pass {text : String} (h : Live text) (hfind : ∀ r s, find r = some s → Live s) :
    Piece.scan (pass find text).toList = (Piece.scan text.toList).flatMap (Piece.step find) := by
  rw [pass, String.toList_ofList]
  apply Piece.scan_flatMap_text
  intro q hq
  obtain ⟨p, hp, hq⟩ := List.mem_flatMap.mp hq
  exact ((h p hp).step hfind q hq).whole

/-- Texts that a pass puts in never run together into new placeholders. -/
theorem live_pass {text : String} (h : Live text) (hfind : ∀ r s, find r = some s → Live s) :
    Live (pass find text) := by
  intro q hq
  rw [h.scan_pass hfind] at hq
  obtain ⟨p, hp, hq⟩ := List.mem_flatMap.mp hq
  exact (h p hp).step hfind q hq

end Template

end TypedTemplate
