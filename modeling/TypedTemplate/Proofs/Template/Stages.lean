import TypedTemplate.Proofs.Template.Passes
import TypedTemplate.Proofs.Template.Settled
import TypedTemplate.Proofs.Template.Substitution

/-!
# Resolving in two stages

A text can be resolved against some bindings first, and what is left of it against others later. This gives the same as
resolving it against all of them at once, if the texts that are bound later mention nothing that is bound before. The
first stage never fails where resolving at once succeeds.
-/

namespace TypedTemplate

namespace Piece

theorem scan_append {cs : List Char} (h : ∀ p ∈ scan cs, p.Whole) (rest : List Char) :
    scan (cs ++ rest) = scan cs ++ scan rest := by
  have hpieces : ∀ ps : List Piece, (∀ p ∈ ps, p.Whole) → scan (ps.flatMap text ++ rest) = ps ++ scan rest := by
    intro ps hps
    induction ps with
    | nil => rfl
    | cons p ps ih =>
        rw [List.flatMap_cons, List.append_assoc, scan_text_append (hps p (by simp)),
          ih fun q hq => hps q (by simp [hq]), List.cons_append]
  have hcs := hpieces (scan cs) h
  rwa [flatMap_text_scan] at hcs

end Piece

/-! ## Substitution -/

namespace Substitutes

variable {find first later : Ref → Option String} {ps qs : List Piece} {text : List Char} {left : List Ref}

theorem of_append (h : Substitutes find (ps ++ qs) text left) : ∃ a b u v,
    Substitutes find ps a u ∧ Substitutes find qs b v ∧ text = a ++ b ∧ left = u ++ v := by
  induction ps generalizing text left with
  | nil => exact ⟨[], text, [], left, .nil, h, rfl, rfl⟩
  | cons p ps ih =>
      cases h with
      | char h =>
          obtain ⟨a, b, u, v, ha, hb, rfl, rfl⟩ := ih h
          exact ⟨_, b, u, v, .char ha, hb, rfl, rfl⟩
      | unbound hr hf h =>
          obtain ⟨a, b, u, v, ha, hb, rfl, rfl⟩ := ih h
          exact ⟨_, b, _, v, .unbound hr hf ha, hb, by simp, rfl⟩
      | bound hr hf hi h =>
          obtain ⟨a, b, u, v, ha, hb, rfl, rfl⟩ := ih h
          exact ⟨_, b, _, v, .bound hr hf hi ha, hb, by simp, by simp⟩

theorem unbound_of_left (h : Substitutes find ps text left) : ∀ r ∈ left, find r = none := by
  induction h with
  | nil => rintro _ ⟨⟩
  | char _ ih => exact ih
  | unbound _ hf _ ih => exact List.forall_mem_cons.mpr ⟨hf, ih⟩
  | bound _ _ _ _ ihi ih => exact fun r hr => (List.mem_append.mp hr).elim (ihi r) (ih r)

/-- What live pieces come to is live, and its references are those that are left. -/
theorem live (hfind : ∀ r s, find r = some s → Template.Live s) (h : Substitutes find ps text left)
    (hps : ∀ p ∈ ps, p.Live) :
    (∀ p ∈ Piece.scan text, p.Live) ∧ (Piece.scan text).filterMap Piece.ref? = left := by
  induction h with
  | nil => simp [Piece.scan_nil]
  | @char c ps text left _ ih =>
      obtain ⟨hlive, hrefs⟩ := ih fun p hp => hps p (by simp [hp])
      have hscan := Piece.scan_char (Piece.braced?_of_not_isBrace text (hps (.char c) (by simp)))
      rw [hscan]
      exact ⟨List.forall_mem_cons.mpr ⟨hps _ (by simp), hlive⟩, hrefs⟩
  | @unbound body r ps text left hr _ _ ih =>
      obtain ⟨hlive, hrefs⟩ := ih fun p hp => hps p (by simp [hp])
      obtain ⟨r', hr', ha⟩ := hps (.braced body) (by simp)
      obtain rfl : r = r' := by simpa using hr.symm.trans hr'
      rw [← Piece.text_braced_address, Piece.scan_text_append (Piece.whole_of_parse ha)]
      refine ⟨List.forall_mem_cons.mpr ⟨Piece.Live.braced_address ha, hlive⟩, ?_⟩
      rw [List.filterMap_cons_some (Piece.ref?_braced (by simpa using ha)), hrefs]
  | @bound body r inner innerText innerLeft ps text left _ hf _ _ ihi ih =>
      obtain ⟨hlive, hrefs⟩ := ih fun p hp => hps p (by simp [hp])
      obtain ⟨hinner, hinnerRefs⟩ := ihi (hfind r inner hf)
      rw [Piece.scan_append fun p hp => (hinner p hp).whole]
      refine ⟨fun p hp => (List.mem_append.mp hp).elim (hinner p) (hlive p), ?_⟩
      rw [List.filterMap_append, hinnerRefs, hrefs]

end Substitutes

namespace Template

/-- All the texts that may be found are live, and those that come later mention nothing that is bound first. -/
structure Stages (first later : Ref → Option String) : Prop where
  first_live {r s} : first r = some s → Live s
  later_live {r s} : later r = some s → Live s
  apart {r s} : later r = some s → ∀ r' ∈ refs s, first r' = none

/-- What is bound first or later. -/
def both (first later : Ref → Option String) (r : Ref) : Option String := (first r).or (later r)

theorem both_of_none {first later : Ref → Option String} {r : Ref} (h : first r = none) :
    both first later r = later r := by rw [both, h, Option.none_or]

theorem both_of_some {first later : Ref → Option String} {r : Ref} {s : String} (h : first r = some s) :
    both first later r = some s := by rw [both, h, Option.some_or]

theorem depthLE_iff {find : Ref → Option String} {n : Nat} {text : String} : DepthLE find n text ↔
    ∀ r ∈ refs text, ∀ inner, find r = some inner → ∃ m < n, DepthLE find m inner := by
  cases n with
  | zero => simp [DepthLE, Option.eq_none_iff_forall_ne_some]
  | succ n =>
      refine forall₂_congr fun r _ => forall₂_congr fun inner _ => ⟨fun h => ⟨n, Nat.lt_succ_self n, h⟩, ?_⟩
      rintro ⟨m, hm, h⟩
      exact h.mono (Nat.le_of_lt_succ hm)

namespace Stages

variable {first later : Ref → Option String} {ps : List Piece} {text : List Char} {left : List Ref}

theorem live (h : Stages first later) (r : Ref) (s : String) (hs : both first later r = some s) : Live s := by
  cases hfirst : first r with
  | none => exact h.later_live (by rwa [both_of_none hfirst] at hs)
  | some s' =>
      rw [both_of_some hfirst] at hs
      cases hs
      exact h.first_live hfirst

/-- Where nothing is bound first, the later stage is the only one. -/
theorem substitutes_later (h : Stages first later) (hsub : Substitutes later ps text left)
    (hps : ∀ r ∈ ps.filterMap Piece.ref?, first r = none) : Substitutes (both first later) ps text left := by
  induction hsub with
  | nil => exact .nil
  | char _ ih => exact .char (ih hps)
  | unbound hr hf _ ih =>
      rw [List.filterMap_cons_some (Piece.ref?_braced hr)] at hps
      exact .unbound hr ((both_of_none (hps _ (by simp))).trans hf) (ih fun r hr => hps r (by simp [hr]))
  | bound hr hf _ _ ihi ih =>
      rw [List.filterMap_cons_some (Piece.ref?_braced hr)] at hps
      have hinner := ihi fun r hr => h.apart hf r ((h.later_live hf).refs_eq ▸ hr)
      exact .bound hr ((both_of_none (hps _ (by simp))).trans hf) hinner (ih fun r hr => hps r (by simp [hr]))

/-- What is left of the first stage comes in the later stage to what it comes to at once. -/
theorem substitutes (h : Stages first later) {mid : List Char} {between : List Ref}
    (hfirst : Substitutes first ps mid between) (hps : ∀ p ∈ ps, p.Live)
    (hlater : Substitutes later (Piece.scan mid) text left) : Substitutes (both first later) ps text left := by
  induction hfirst generalizing text left with
  | nil =>
      rw [Piece.scan_nil] at hlater
      cases hlater
      exact .nil
  | @char c ps mid _ _ ih =>
      rw [Piece.scan_char (Piece.braced?_of_not_isBrace mid (hps (.char c) (by simp)))] at hlater
      cases hlater with
      | char hlater => exact .char (ih (fun p hp => hps p (by simp [hp])) hlater)
  | @unbound body r ps mid _ hr hf _ ih =>
      obtain ⟨r', hr', ha⟩ := hps (.braced body) (by simp)
      obtain rfl : r = r' := by simpa using hr.symm.trans hr'
      have hboth : both first later r = later r := both_of_none hf
      have hparse : Ref.parse (String.ofList r.address.toList) = .ok r := by simpa using ha
      rw [← Piece.text_braced_address, Piece.scan_text_append (Piece.whole_of_parse ha)] at hlater
      have hrest : ∀ p ∈ ps, p.Live := fun p hp => hps p (by simp [hp])
      cases hlater with
      | unbound hr'' hnone hlater =>
          obtain rfl := Except.ok.inj (hparse.symm.trans hr'')
          exact .unbound hr (hboth.trans hnone) (ih hrest hlater)
      | bound hr'' hsome hinner hlater =>
          obtain rfl := Except.ok.inj (hparse.symm.trans hr'')
          refine .bound hr (hboth.trans hsome) (h.substitutes_later hinner fun r hr => ?_) (ih hrest hlater)
          exact h.apart hsome r ((h.later_live hsome).refs_eq ▸ hr)
  | @bound body r inner innerText innerLeft ps mid _ hr hf hinner _ ihi ih =>
      have hlive := (hinner.live (fun _ _ => h.first_live) (h.first_live hf)).1
      rw [Piece.scan_append fun p hp => (hlive p hp).whole] at hlater
      obtain ⟨a, b, u, v, ha, hb, rfl, rfl⟩ := hlater.of_append
      exact .bound hr (both_of_some hf) (ihi (h.first_live hf) ha) (ih (fun p hp => hps p (by simp [hp])) hb)

/-! ## Depth -/

theorem depthLE_first {n : Nat} {s : String} (h : DepthLE (both first later) n s) : DepthLE first n s := by
  induction n generalizing s with
  | zero =>
      intro r hr
      cases hfirst : first r with
      | none => rfl
      | some s' => exact absurd ((both_of_some hfirst).symm.trans (h r hr)) (by simp)
  | succ n ih => exact fun r hr inner hf => ih (h r hr inner (both_of_some hf))

theorem depthLE_later (h : Stages first later) {n : Nat} {s : String} (hs : ∀ r ∈ refs s, first r = none)
    (hdepth : DepthLE (both first later) n s) : DepthLE later n s := by
  induction n generalizing s with
  | zero => exact fun r hr => (both_of_none (hs r hr)).symm.trans (hdepth r hr)
  | succ n ih =>
      intro r hr inner hf
      exact ih (h.apart hf) (hdepth r hr inner ((both_of_none (hs r hr)).trans hf))

/-- The references that are left of the first stage are bound no deeper than those of the text. -/
theorem depthLE_left (h : Stages first later) {n : Nat} (hsub : Substitutes first ps text left)
    (hps : ∀ r ∈ ps.filterMap Piece.ref?, ∀ inner, both first later r = some inner →
      ∃ m < n, DepthLE (both first later) m inner) :
    ∀ r ∈ left, ∀ inner, both first later r = some inner → ∃ m < n, DepthLE (both first later) m inner := by
  induction hsub generalizing n with
  | nil => rintro _ ⟨⟩
  | char _ ih => exact ih hps
  | unbound hr hf _ ih =>
      rw [List.filterMap_cons_some (Piece.ref?_braced hr), List.forall_mem_cons] at hps
      exact List.forall_mem_cons.mpr ⟨hps.1, ih hps.2⟩
  | @bound body r inner innerText innerLeft ps mid _ hr hf _ _ ihi ih =>
      rw [List.filterMap_cons_some (Piece.ref?_braced hr), List.forall_mem_cons] at hps
      intro r' hr' s hs
      rcases List.mem_append.mp hr' with hr' | hr'
      · obtain ⟨m, hm, hdepth⟩ := hps.1 inner (both_of_some hf)
        rw [depthLE_iff, (h.first_live hf).refs_eq] at hdepth
        obtain ⟨k, hk, hdepth'⟩ := ihi hdepth r' hr' s hs
        exact ⟨k, Nat.lt_trans hk hm, hdepth'⟩
      · exact ih hps.2 r' hr' s hs

/-- Resolving at once comes to the same as resolving in two stages, or bound references nest too deep. -/
theorem resolve (h : Stages first later) {text : String} (ht : Live text) :
    (∃ e, resolve (fun r => .ok (both first later r)) text = .error e ∧ e.kind = .uninterpolatable) ∨
      ∃ mid left out, resolve (fun r => .ok (first r)) text = .ok (mid, left) ∧ Live mid ∧ refs mid = left ∧
        resolve (fun r => .ok (later r)) mid = .ok out ∧
        resolve (fun r => .ok (both first later r)) text = .ok out := by
  by_cases hdepth : DepthLE (both first later) (maxPasses - 1) text
  · right
    have hpasses : maxPasses - 1 < maxPasses := by decide
    have hfirst : ∀ r s, first r = some s → Live s := fun _ _ => h.first_live
    have hlater : ∀ r s, later r = some s → Live s := fun _ _ => h.later_live
    obtain ⟨mid, left, hmid⟩ := (depthLE_first hdepth).substitutes hfirst ht
    have hmidLive := hmid.live hfirst ht
    have hlive : Live (String.ofList mid) := by
      rw [Live, String.toList_ofList]
      exact hmidLive.1
    have hrefs : refs (String.ofList mid) = left := by rw [hlive.refs_eq, String.toList_ofList, hmidLive.2]
    have hleft : DepthLE later (maxPasses - 1) (String.ofList mid) := by
      refine h.depthLE_later (hrefs ▸ hmid.unbound_of_left) (depthLE_iff.mpr (hrefs ▸ ?_))
      exact h.depthLE_left hmid (ht.refs_eq ▸ depthLE_iff.mp hdepth)
    obtain ⟨out, rest, hout⟩ := hleft.substitutes hlater hlive
    refine ⟨_, left, _, (depthLE_first hdepth).resolve hfirst ht hpasses hmid, hlive, hrefs,
      hleft.resolve hlater hlive hpasses hout, hdepth.resolve h.live ht hpasses ?_⟩
    rw [String.toList_ofList] at hout
    exact h.substitutes hmid ht hout
  · exact .inl (resolve_error h.live ht hdepth (by decide))

end Stages

end Template

end TypedTemplate
