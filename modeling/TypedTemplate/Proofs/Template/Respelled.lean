import TypedTemplate.Proofs.Template.Stable
import TypedTemplate.Proofs.Template.Unbound

/-!
# References spelled in another way

The same reference can be written with or without a leading dot. Two texts that differ in nothing else are split into
the same fragments, whatever stands around their placeholders, and come to the same if what is looked up for their
references does not differ in more than that either.
-/

namespace TypedTemplate

open Piece (braced?)

/-- The texts are the same, but for placeholders whose bodies read as the same references. -/
inductive Respelled : List Char → List Char → Prop
  | nil : Respelled [] []
  | char {c a b} : Respelled a b → Respelled (c :: a) (c :: b)
  | braced {body body' r a b} : Ref.parse (String.ofList body) = .ok r → Ref.parse (String.ofList body') = .ok r →
      Respelled a b → Respelled ((Piece.braced body).text ++ a) ((Piece.braced body').text ++ b)

namespace Respelled

variable {a b c d : List Char}

theorem refl : (a : List Char) → Respelled a a
  | [] => .nil
  | _ :: rest => .char (refl rest)

theorem symm (h : Respelled a b) : Respelled b a := by
  induction h with
  | nil => exact .nil
  | char _ ih => exact .char ih
  | braced hr hr' _ ih => exact .braced hr' hr ih

theorem append (h : Respelled a b) (h' : Respelled c d) : Respelled (a ++ c) (b ++ d) := by
  induction h with
  | nil => exact h'
  | char _ ih => exact .char ih
  | braced hr hr' _ ih =>
      rw [List.append_assoc, List.append_assoc]
      exact .braced hr hr' ih

/-! ## Scanning -/

/-- Where no placeholder begins, the texts agree. -/
theorem of_append {u v : List Char} (hu : ∀ x ∈ u, x ≠ '{') (h : Respelled (u ++ v) b) :
    ∃ w, b = u ++ w ∧ Respelled v w := by
  induction u generalizing b with
  | nil => exact ⟨b, rfl, h⟩
  | cons x u ih =>
      obtain ⟨hx, hu⟩ := List.forall_mem_cons.mp hu
      rw [List.cons_append] at h
      generalize hcs : x :: (u ++ v) = cs at h
      cases h with
      | nil => cases hcs
      | char h =>
          cases hcs
          obtain ⟨w, rfl, hw⟩ := ih hu h
          exact ⟨w, rfl, hw⟩
      | braced => exact absurd (List.cons.inj hcs).1 hx

theorem braced?_text_append {body : List Char} {r : Ref} (h : Ref.parse (String.ofList body) = .ok r)
    (rest : List Char) : braced? ((Piece.braced body).text ++ rest) = some (body, rest) := by
  have hwhole : (Piece.braced body).Whole := by simpa using Piece.whole_of_parse h
  simpa [Piece.text] using Piece.braced?_text hwhole.1 hwhole.2

/-- A placeholder at the front of one text has one at the front of the other, which stands for the same. -/
theorem braced?_some (h : Respelled a b) {body rest : List Char} (ha : braced? a = some (body, rest)) :
    ∃ body' rest', braced? b = some (body', rest') ∧ Respelled rest rest' ∧ (body' = body ∨
      ∃ r, Ref.parse (String.ofList body) = .ok r ∧ Ref.parse (String.ofList body') = .ok r) := by
  cases h with
  | nil => simp [braced?] at ha
  | @braced body₁ body₂ r a b hr hr' h =>
      rw [braced?_text_append hr] at ha
      cases ha
      exact ⟨body₂, b, braced?_text_append hr' b, h, .inr ⟨r, hr, hr'⟩⟩
  | @char c a b h =>
      obtain ⟨hwhole, htext⟩ := Piece.braced?_whole ha
      rw [Piece.text, List.cons_append, List.cons_append, List.cons.injEq] at htext
      obtain ⟨rfl, rfl⟩ := htext
      generalize hcs : '{' :: (body ++ ['}', '}'] ++ rest) = cs at h
      cases h with
      | nil => cases hcs
      | char h =>
          cases hcs
          obtain ⟨w, rfl, hw⟩ := of_append hwhole.ne_opening h
          have hbody : braced? ('{' :: '{' :: (body ++ '}' :: '}' :: w)) = some (body, w) :=
            Piece.braced?_text hwhole.1 hwhole.2
          exact ⟨body, w, by simpa using hbody, hw, .inl rfl⟩
      | braced =>
          -- A placeholder would begin with the second brace, but no brace follows it.
          obtain ⟨x, xs, rfl⟩ := List.exists_cons_of_ne_nil hwhole.1
          exact absurd (List.cons.inj (List.cons.inj hcs).2).1 (hwhole.ne_opening x (by simp))

theorem braced?_none (h : Respelled a b) (ha : braced? a = none) : braced? b = none := by
  cases hb : braced? b with
  | none => rfl
  | some found =>
      obtain ⟨body', rest', ha', -⟩ := h.symm.braced?_some hb
      rw [ha] at ha'
      cases ha'

/-- The pieces are the same, or placeholders of the same reference. -/
def SamePiece (p q : Piece) : Prop :=
  p = q ∨ ∃ body body' r, p = .braced body ∧ q = .braced body' ∧ Ref.parse (String.ofList body) = .ok r ∧
    Ref.parse (String.ofList body') = .ok r

theorem scan (h : Respelled a b) : List.Forall₂ SamePiece (Piece.scan a) (Piece.scan b) := by
  fun_induction Piece.scan a generalizing b with
  | case1 a body rest ha ih =>
      obtain ⟨body', rest', hb, hrest, hbody⟩ := h.braced?_some ha
      obtain ⟨hwhole, rfl⟩ := Piece.braced?_whole hb
      rw [Piece.scan_text_append hwhole]
      refine .cons ?_ (ih hrest)
      rcases hbody with rfl | ⟨r, hr, hr'⟩
      · exact .inl rfl
      · exact .inr ⟨body, body', r, rfl, rfl, hr, hr'⟩
  | case2 =>
      generalize hcs : ([] : List Char) = cs at h
      cases h with
      | nil =>
          rw [Piece.scan_nil]
          exact .nil
      | char | braced => cases hcs
  | case3 c rest ha ih =>
      have hb := h.braced?_none ha
      generalize hcs : c :: rest = cs at h
      cases h with
      | nil => cases hcs
      | char h =>
          cases hcs
          rw [Piece.scan_char hb]
          exact .cons (.inl rfl) (ih h)
      | braced hr =>
          rw [hcs, braced?_text_append hr] at ha
          cases ha

end Respelled

/-! ## Splitting -/

theorem Fragment.ofPieces_same {ps qs : List Piece} (h : List.Forall₂ Respelled.SamePiece ps qs) (final : Bool)
    (acc : List Char) : ofPieces final acc ps = ofPieces final acc qs := by
  induction h generalizing acc with
  | nil => rfl
  | @cons p q ps qs hpq _ ih =>
      rcases hpq with rfl | ⟨body, body', r, rfl, rfl, hr, hr'⟩
      · cases p with
        | char c => exact ih (c :: acc)
        | braced body => simp only [ofPieces, ih]
      · simp only [ofPieces, Piece.escaped?_of_parse hr, Piece.escaped?_of_parse hr', hr, hr', ih]

namespace Template

variable {lookup lookup' : Lookup}

/-- The texts are the same, but for the spelling of their references. -/
def Respells (s t : String) : Prop := Respelled s.toList t.toList

theorem Respells.split {s t : String} (h : Respells s t) (final : Bool) :
    Fragment.split final s = Fragment.split final t := Fragment.ofPieces_same h.scan final []

/-! ## Resolving -/

/-- What is found for a reference differs at most in how references are spelled. -/
def LookupsAgree (lookup lookup' : Lookup) : Prop :=
  ∀ r, Together (Option.Rel Respells) (lookup r) (lookup' r)

namespace LookupsAgree

theorem join (h : LookupsAgree lookup lookup') (fs : List Fragment) :
    Together (fun x y => Respells x.1 y.1 ∧ x.2 = y.2) (Template.join lookup fs) (Template.join lookup' fs) := by
  induction fs with
  | nil => exact .ok ⟨.refl _, rfl⟩
  | cons f fs ih =>
      cases f with
      | literal s =>
          refine ih.bind fun x y hxy => .ok ⟨?_, hxy.2⟩
          rw [Respells, String.toList_append, String.toList_append]
          exact (Respelled.refl _).append hxy.1
      | reference r =>
          refine (h r).bind fun found found' hfound => ih.bind fun x y hxy => ?_
          cases hfound with
          | none =>
              refine .ok ⟨?_, by rw [hxy.2]⟩
              rw [Respells, String.toList_append, String.toList_append]
              exact (Respelled.refl _).append hxy.1
          | some hs =>
              refine .ok ⟨?_, hxy.2⟩
              rw [Respells, String.toList_append, String.toList_append]
              exact hs.append hxy.1

theorem settle (h : LookupsAgree lookup lookup') (passes : Nat) {s t : String} (hst : Respells s t) :
    Together Respells (Template.settle lookup passes s) (Template.settle lookup' passes t) := by
  induction passes generalizing s t with
  | zero => exact .error
  | succ passes ih =>
      rw [Template.settle, Template.settle, hst.split false]
      refine (Together.refl _).bind ?_
      rintro fs _ rfl
      refine (h.join fs).bind ?_
      rintro ⟨joined, unbound⟩ ⟨joined', _⟩ ⟨hjoined, rfl⟩
      dsimp only
      split
      · exact .ok hjoined
      · exact ih hjoined

/-- Texts that differ in spelling come to the very same text, as resolving writes anew what it leaves. -/
theorem resolve (h : LookupsAgree lookup lookup') {s t : String} (hst : Respells s t) :
    Together (· = ·) (Template.resolve lookup s) (Template.resolve lookup' t) := by
  have hjoins : Together (fun x y => ∃ fs left left', Template.join lookup fs = .ok (x.1, left) ∧
      Template.join lookup' fs = .ok (y.1, left') ∧ x.2 = Fragment.refs fs ∧ y.2 = Fragment.refs fs)
      (Template.resolve lookup s) (Template.resolve lookup' t) := by
    refine (h.settle maxPasses hst).bind fun settled settled' hsettled => ?_
    rw [hsettled.split true]
    refine (Together.refl _).bind ?_
    rintro fs _ rfl
    refine (h.join fs).and_ok.bind ?_
    rintro ⟨joined, left⟩ ⟨joined', left'⟩ ⟨-, hj, hj'⟩
    exact .ok ⟨fs, left, left', hj, hj', rfl, rfl⟩
  refine hjoins.and_ok.imp ?_
  rintro ⟨joined, _⟩ ⟨joined', _⟩ ⟨⟨fs, left, left', hj, hj', rfl, rfl⟩, hx, hy⟩
  rw [Fragment.join_unbound (lookup_of_resolve hx)] at hj
  rw [Fragment.join_unbound (lookup_of_resolve hy)] at hj'
  cases hj
  cases hj'
  rfl

end LookupsAgree

end Template

/-! ## Texts that are written anew -/

/-- A placeholder is not escaped, and does not depend on a leading dot. -/
def Piece.Respellable : Piece → Prop
  | char _ => True
  | braced body => escaped? body = none ∧ Ref.needsDot body = false

instance : DecidablePred Piece.Respellable
  | .char _ => .isTrue trivial
  | .braced body => inferInstanceAs (Decidable (Piece.escaped? body = none ∧ Ref.needsDot body = false))

namespace Template

/-- All placeholders of the text are live, and none of them depends on a leading dot. -/
def Respellable (text : String) : Prop := ∀ p ∈ Piece.scan text.toList, p.Respellable

instance (text : String) : Decidable (Respellable text) :=
  inferInstanceAs (Decidable (∀ p ∈ Piece.scan text.toList, p.Respellable))

variable {text : String} {fs : List Fragment}

/-- A pass that finds nothing changes no more than the spelling of references, if they can be read again. -/
theorem Respellable.respells_rewritten (h : Respellable text) (hfs : Fragment.split false text = .ok fs) :
    Respells (rewritten text) text := by
  have hread : ∀ p ∈ Piece.scan text.toList, p.Readable := Fragment.ofPieces_ok_iff.mp ⟨fs, hfs⟩
  have hpieces : ∀ ps : List Piece, (∀ p ∈ ps, p.Respellable ∧ p.Readable) →
      Respelled ((ps.map Piece.rewritten).flatMap Piece.text) (ps.flatMap Piece.text) := by
    intro ps hps
    induction ps with
    | nil => exact .nil
    | cons p ps ih =>
        obtain ⟨⟨hp, hr⟩, hrest⟩ := List.forall_mem_cons.mp hps
        rw [List.map_cons, List.flatMap_cons, List.flatMap_cons]
        cases p with
        | char c => exact .char (ih hrest)
        | braced body =>
            obtain ⟨r, hr⟩ := hr hp.1
            obtain ⟨r', hr'⟩ := (Ref.exists_parse_address_iff hr).mpr (by simpa using hp.2)
            obtain rfl := Ref.eq_of_parse_address hr hr'
            rw [Piece.rewritten_live hr]
            exact .braced (by simpa using hr') hr (ih hrest)
  have htext := hpieces _ fun p hp => ⟨h p hp, hread p hp⟩
  rw [Piece.flatMap_text_scan] at htext
  rwa [Respells, rewritten, String.toList_ofList]

/-- Where nothing is bound, such a text resolves to one in which no more than the spelling is changed. -/
theorem Respellable.resolve (h : Respellable text) (hfs : Fragment.split false text = .ok fs) {lookup : Lookup}
    (hnone : ∀ r ∈ Fragment.refs fs, lookup r = .ok none) :
    resolve lookup text = .ok (rewritten text, Fragment.refs fs) := by
  have hlive : ∀ body, Piece.braced body ∈ Piece.scan text.toList → Piece.escaped? body = none :=
    fun body hbody => (h _ hbody).1
  have hfinal : Fragment.split true (rewritten text) = .ok fs := by
    rw [(h.respells_rewritten hfs).split true, ← hfs, Fragment.split, Fragment.split, Fragment.ofPieces_final hlive]
  simp only [Template.resolve, settle_unbound hfs hnone, hfinal, join_rewritten hfs hnone, bind, Except.bind, pure,
    Except.pure]

end Template

end TypedTemplate
