import Mathlib
import TypedTemplate.Proofs.Scope.Lookup
import TypedTemplate.Proofs.Template.Live

/-!
# Resolving is recursive substitution

The passes of `Template.resolve` never recurse. On live texts they compute all the same what the relation
`Substitutes` says: every bound reference stands for its text, in which the bound references stand for theirs in
turn. A pass lowers the depth to which bound references nest by one, and one more pass finds that nothing has
changed; so `maxPasses` passes are enough for a depth below `maxPasses`, and for no other.
-/

namespace TypedTemplate

/-- What a text comes to, piece by piece, and the references left in it: a bound reference is replaced by what its
text comes to, an unbound one is left as its placeholder. -/
inductive Substitutes (find : Ref → Option String) : List Piece → List Char → List Ref → Prop
  | nil : Substitutes find [] [] []
  | char {c ps text left} :
      Substitutes find ps text left → Substitutes find (.char c :: ps) (c :: text) left
  | unbound {body r ps text left} :
      Ref.parse (String.ofList body) = .ok r → find r = none → Substitutes find ps text left →
      Substitutes find (.braced body :: ps) (r.placeholder.toList ++ text) (r :: left)
  | bound {body r inner innerText innerLeft ps text left} :
      Ref.parse (String.ofList body) = .ok r → find r = some inner →
      Substitutes find (Piece.scan inner.toList) innerText innerLeft → Substitutes find ps text left →
      Substitutes find (.braced body :: ps) (innerText ++ text) (innerLeft ++ left)

namespace Template

/-- Bound references nest at most so deep in a text. -/
def DepthLE (find : Ref → Option String) : Nat → String → Prop
  | 0, text => ∀ r ∈ refs text, find r = none
  | n + 1, text => ∀ r ∈ refs text, ∀ inner, find r = some inner → DepthLE find n inner

/-- How deep bound references nest in a text; infinite where one leads back to itself. -/
noncomputable def depth (find : Ref → Option String) (text : String) : ℕ∞ :=
  ⨅ n : {n : Nat // DepthLE find n text}, (n.1 : ℕ∞)

instance decidableDepthLE (find : Ref → Option String) : (n : Nat) → (text : String) → Decidable (DepthLE find n text)
  | 0, text => inferInstanceAs (Decidable (∀ r ∈ refs text, find r = none))
  | n + 1, text =>
    have := decidableDepthLE find n
    inferInstanceAs (Decidable (∀ r ∈ refs text, ∀ inner ∈ find r, DepthLE find n inner))

variable {find : Ref → Option String} {n : Nat} {text : String}

/-! ## Depth -/

theorem DepthLE.succ (h : DepthLE find n text) : DepthLE find (n + 1) text := by
  induction n generalizing text with
  | zero =>
      intro r hr inner hf
      rw [h r hr] at hf
      cases hf
  | succ n ih => exact fun r hr inner hf => ih (h r hr inner hf)

theorem DepthLE.mono {m : Nat} (hmn : m ≤ n) (h : DepthLE find m text) : DepthLE find n text := by
  induction hmn with
  | refl => exact h
  | step _ ih => exact ih.succ

theorem depth_le_iff : depth find text ≤ n ↔ DepthLE find n text := by
  constructor
  · intro h
    have hlt : depth find text < ((n + 1 : Nat) : ℕ∞) :=
      lt_of_le_of_lt h (by exact_mod_cast Nat.lt_succ_self n)
    obtain ⟨⟨m, hm⟩, hmn⟩ := iInf_lt_iff.mp hlt
    exact hm.mono (Nat.le_of_lt_succ (by exact_mod_cast hmn))
  · exact fun h => iInf_le_of_le ⟨n, h⟩ le_rfl

/-- The depth of a text without bound references is zero, and that of any other is one more than the greatest depth
of a text that is bound in it. -/
theorem depth_eq (find : Ref → Option String) (text : String) : depth find text =
    if ∀ r ∈ refs text, find r = none then 0
    else 1 + ⨆ r ∈ refs text, ⨆ inner, ⨆ _ : find r = some inner, depth find inner := by
  split
  · have h : depth find text ≤ (0 : Nat) := depth_le_iff.mpr ‹_›
    simpa using h
  · rename_i hbound
    refine eq_of_forall_ge_iff fun c => ?_
    induction c using ENat.recTopCoe with
    | top => simp
    | coe c =>
        cases c with
        | zero =>
            rw [depth_le_iff]
            simp [DepthLE, hbound]
        | succ c =>
            rw [depth_le_iff, DepthLE, Nat.cast_succ, add_comm (c : ℕ∞) 1,
              ENat.add_le_add_iff_left ENat.one_ne_top]
            simp only [iSup_le_iff, depth_le_iff]

/-! ## One pass -/

/-- A pass leaves the references of the texts that it puts in, and those that it finds no text for. -/
theorem filterMap_ref?_step (hfind : ∀ r s, find r = some s → Live s) {ps : List Piece} (hps : ∀ p ∈ ps, p.Live) :
    (ps.flatMap (Piece.step find)).filterMap Piece.ref? = (ps.filterMap Piece.ref?).flatMap fun r =>
      match find r with
      | some inner => refs inner
      | none => [r] := by
  induction ps with
  | nil => rfl
  | cons p ps ih =>
      rw [List.flatMap_cons, List.filterMap_append, ih fun q hq => hps q (by simp [hq])]
      cases p with
      | char c => rfl
      | braced body =>
          obtain ⟨r, hr, ha⟩ := hps (.braced body) (by simp)
          rw [List.filterMap_cons_some (Piece.ref?_braced hr), List.flatMap_cons]
          congr 1
          cases hf : find r with
          | some inner =>
              rw [Piece.step_bound hr hf]
              exact (hfind r inner hf).refs_eq.symm
          | none =>
              rw [Piece.step_unbound hr hf]
              exact List.filterMap_cons_some (Piece.ref?_braced (by simpa using ha))

theorem Live.refs_pass (h : Live text) (hfind : ∀ r s, find r = some s → Live s) :
    refs (pass find text) = (refs text).flatMap fun r =>
      match find r with
      | some inner => refs inner
      | none => [r] := by
  rw [(live_pass h hfind).refs_eq, h.scan_pass hfind, h.refs_eq, filterMap_ref?_step hfind h]

/-- A pass lowers the depth by one. -/
theorem Live.depthLE_pass (h : Live text) (hfind : ∀ r s, find r = some s → Live s) :
    DepthLE find n (pass find text) ↔ DepthLE find (n + 1) text := by
  have hmem : ∀ r', r' ∈ refs (pass find text) ↔
      ∃ r ∈ refs text, (∃ inner, find r = some inner ∧ r' ∈ refs inner) ∨ (find r = none ∧ r' = r) := by
    intro r'
    rw [h.refs_pass hfind, List.mem_flatMap]
    refine exists_congr fun r => and_congr_right fun _ => ?_
    cases find r <;> simp
  cases n with
  | zero =>
      constructor
      · intro hn r hr inner hf r' hr'
        exact hn r' ((hmem r').mpr ⟨r, hr, .inl ⟨inner, hf, hr'⟩⟩)
      · intro hn r' hr'
        obtain ⟨r, hr, ⟨inner, hf, hr'⟩ | ⟨hf, rfl⟩⟩ := (hmem r').mp hr'
        · exact hn r hr inner hf r' hr'
        · exact hf
  | succ n =>
      constructor
      · intro hn r hr inner hf r' hr'
        exact hn r' ((hmem r').mpr ⟨r, hr, .inl ⟨inner, hf, hr'⟩⟩)
      · intro hn r' hr' inner' hf'
        obtain ⟨r, hr, ⟨inner, hf, hr'⟩ | ⟨hf, rfl⟩⟩ := (hmem r').mp hr'
        · exact hn r hr inner hf r' hr' inner' hf'
        · rw [hf] at hf'
          cases hf'

/-- One step of settling: a live text whose references are all unbound is settled. -/
theorem Live.settle_succ (h : Live text) (passes : Nat) :
    settle (fun r => .ok (find r)) (passes + 1) text =
      if ∀ r ∈ refs text, find r = none then .ok (pass find text)
      else settle (fun r => .ok (find r)) passes (pass find text) := by
  obtain ⟨fs, hfs, hrefs, hjoin⟩ := h.split_join false
  have hiff : ((refs text).filter fun r => (find r).isNone) = refs text ↔ ∀ r ∈ refs text, find r = none := by
    simp [List.filter_eq_self]
  simp only [settle, hfs, hjoin find, hrefs, hiff, bind, Except.bind, pure, Except.pure]

end Template

/-! ## What the passes keep -/

namespace Substitutes

variable {find : Ref → Option String}

theorem append {ps qs : List Piece} {a b : List Char} {u v : List Ref} (h : Substitutes find ps a u)
    (h' : Substitutes find qs b v) : Substitutes find (ps ++ qs) (a ++ b) (u ++ v) := by
  induction h with
  | nil => exact h'
  | char _ ih => exact .char ih
  | unbound hr hf _ ih => rw [List.append_assoc]; exact .unbound hr hf ih
  | bound hr hf hi _ _ ih => rw [List.append_assoc, List.append_assoc]; exact .bound hr hf hi ih

/-- A pass does not change what a text comes to. -/
theorem step {ps : List Piece} {a : List Char} {u : List Ref} (hps : ∀ p ∈ ps, p.Live)
    (h : Substitutes find ps a u) : Substitutes find (ps.flatMap (Piece.step find)) a u := by
  induction h with
  | nil => exact .nil
  | char _ ih => exact .char (ih fun q hq => hps q (by simp [hq]))
  | @unbound body r ps text left hr hf _ ih =>
      obtain ⟨r', hr', ha⟩ := hps (.braced body) (by simp)
      rw [hr] at hr'
      cases hr'
      rw [List.flatMap_cons, Piece.step_unbound hr hf]
      exact .unbound (by simpa using ha) hf (ih fun q hq => hps q (by simp [hq]))
  | bound hr hf hi _ _ ih =>
      rw [List.flatMap_cons, Piece.step_bound hr hf]
      exact hi.append (ih fun q hq => hps q (by simp [hq]))

/-- Where no reference is bound, a text comes to itself after one more pass. -/
theorem eq_of_unbound {ps : List Piece} {a : List Char} {u : List Ref} (h : Substitutes find ps a u)
    (hun : ∀ r ∈ ps.filterMap Piece.ref?, find r = none) :
    a = (ps.flatMap (Piece.step find)).flatMap Piece.text ∧ u = ps.filterMap Piece.ref? := by
  induction h with
  | nil => exact ⟨rfl, rfl⟩
  | @char c ps text left _ ih =>
      rw [List.filterMap_cons_none (Piece.ref?_char c)] at hun ⊢
      obtain ⟨rfl, rfl⟩ := ih hun
      exact ⟨rfl, rfl⟩
  | @unbound body r ps text left hr hf _ ih =>
      rw [List.filterMap_cons_some (Piece.ref?_braced hr)] at hun ⊢
      obtain ⟨rfl, rfl⟩ := ih fun q hq => hun q (by simp [hq])
      refine ⟨?_, rfl⟩
      rw [List.flatMap_cons, Piece.step_unbound hr hf, List.flatMap_append, List.flatMap_singleton,
        Piece.text_braced_address]
  | @bound body r inner innerText innerLeft ps text left hr hf _ _ _ _ =>
      rw [List.filterMap_cons_some (Piece.ref?_braced hr)] at hun
      rw [hun r (by simp)] at hf
      cases hf

/-- Pieces come to something if every text bound in them does. -/
theorem exists_of_bound {ps : List Piece} (hps : ∀ p ∈ ps, p.Live)
    (hbound : ∀ r ∈ ps.filterMap Piece.ref?, ∀ inner, find r = some inner →
      ∃ a u, Substitutes find (Piece.scan inner.toList) a u) :
    ∃ a u, Substitutes find ps a u := by
  induction ps with
  | nil => exact ⟨[], [], .nil⟩
  | cons p ps ih =>
      have hps' : ∀ q ∈ ps, q.Live := fun q hq => hps q (by simp [hq])
      cases p with
      | char c =>
          rw [List.filterMap_cons_none (Piece.ref?_char c)] at hbound
          obtain ⟨a, u, h⟩ := ih hps' hbound
          exact ⟨_, _, .char h⟩
      | braced body =>
          obtain ⟨r, hr, -⟩ := hps (.braced body) (by simp)
          rw [List.filterMap_cons_some (Piece.ref?_braced hr)] at hbound
          obtain ⟨a, u, h⟩ := ih hps' fun q hq => hbound q (by simp [hq])
          cases hf : find r with
          | none => exact ⟨_, _, .unbound hr hf h⟩
          | some inner =>
              obtain ⟨b, v, hi⟩ := hbound r (by simp) inner hf
              exact ⟨_, _, .bound hr hf hi h⟩

end Substitutes

namespace Template

variable {find : Ref → Option String} {n : Nat} {text : String}

theorem DepthLE.substitutes (hfind : ∀ r s, find r = some s → Live s) (ht : Live text)
    (h : DepthLE find n text) : ∃ a u, Substitutes find (Piece.scan text.toList) a u := by
  induction n generalizing text with
  | zero =>
      refine Substitutes.exists_of_bound ht fun r hr inner hf => ?_
      rw [h r (ht.refs_eq ▸ hr)] at hf
      cases hf
  | succ n ih =>
      exact Substitutes.exists_of_bound ht fun r hr inner hf =>
        ih (hfind r inner hf) (h r (ht.refs_eq ▸ hr) inner hf)

/-! ## The run of passes -/

/-- Enough passes settle a text, and what it comes to is kept. -/
theorem DepthLE.settle (hfind : ∀ r s, find r = some s → Live s) (ht : Live text) (h : DepthLE find n text)
    {passes : Nat} (hn : n < passes) :
    ∃ settled, settle (fun r => .ok (find r)) passes text = .ok settled ∧ Live settled ∧
      (∀ r ∈ refs settled, find r = none) ∧
      ∀ a u, Substitutes find (Piece.scan text.toList) a u →
        Substitutes find (Piece.scan settled.toList) a u := by
  -- Each pass takes one off the depth and leaves what the text comes to as it is.
  induction passes generalizing n text with
  | zero => omega
  | succ passes ih =>
      have hkeep : ∀ a u, Substitutes find (Piece.scan text.toList) a u →
          Substitutes find (Piece.scan (pass find text).toList) a u := by
        intro a u hs
        rw [ht.scan_pass hfind]
        exact hs.step ht
      rw [ht.settle_succ]
      split
      · rename_i hun
        refine ⟨pass find text, rfl, live_pass ht hfind, ?_, hkeep⟩
        exact (ht.depthLE_pass hfind).mpr (DepthLE.succ (show DepthLE find 0 text from hun))
      · rename_i hbound
        cases n with
        | zero => exact absurd h hbound
        | succ n =>
            obtain ⟨settled, hs, hl, hun, hk⟩ :=
              ih (live_pass ht hfind) ((ht.depthLE_pass hfind).mpr h) (by omega)
            exact ⟨settled, hs, hl, hun, fun a u ha => hk a u (hkeep a u ha)⟩

/-- Too few passes do not. -/
theorem settle_error (hfind : ∀ r s, find r = some s → Live s) (ht : Live text) (h : ¬ DepthLE find n text)
    {passes : Nat} (hn : passes ≤ n + 1) :
    ∃ e, settle (fun r => .ok (find r)) passes text = .error e ∧ e.kind = .uninterpolatable := by
  induction passes generalizing n text with
  | zero => exact ⟨_, rfl, rfl⟩
  | succ passes ih =>
      have hbound : ¬ ∀ r ∈ refs text, find r = none :=
        fun hun => h (DepthLE.mono (Nat.zero_le n) (show DepthLE find 0 text from hun))
      rw [ht.settle_succ, if_neg hbound]
      cases n with
      | zero =>
          obtain rfl : passes = 0 := by omega
          exact ⟨_, rfl, rfl⟩
      | succ n => exact ih (live_pass ht hfind) (mt (ht.depthLE_pass hfind).mp h) (Nat.le_of_succ_le_succ hn)

theorem DepthLE.resolve (hfind : ∀ r s, find r = some s → Live s) (ht : Live text) (h : DepthLE find n text)
    (hn : n < maxPasses) {a : List Char} {u : List Ref} (hs : Substitutes find (Piece.scan text.toList) a u) :
    resolve (fun r => .ok (find r)) text = .ok (String.ofList a, u) := by
  obtain ⟨settled, hset, hl, hun, hkeep⟩ := h.settle hfind ht hn
  obtain ⟨fs, hfs, hrefs, hjoin⟩ := hl.split_join true
  rw [hl.refs_eq] at hun
  obtain ⟨rfl, rfl⟩ := (hkeep a u hs).eq_of_unbound hun
  simp only [Template.resolve, hset, hfs, hjoin find, hrefs, hl.refs_eq, pass, bind, Except.bind, pure, Except.pure]

theorem resolve_error (hfind : ∀ r s, find r = some s → Live s) (ht : Live text)
    (h : ¬ DepthLE find n text) (hn : maxPasses ≤ n + 1) :
    ∃ e, resolve (fun r => .ok (find r)) text = .error e ∧ e.kind = .uninterpolatable := by
  obtain ⟨e, he, hk⟩ := settle_error hfind ht h hn
  refine ⟨e, ?_, hk⟩
  simp only [resolve, he, bind, Except.bind]

/-- Against an environment of live texts, resolving a live text gives its recursive substitution if bound references
nest at most 99 deep, and fails otherwise. -/
theorem resolve_substitutes (d : Declarations) (e : Environment) (he : e.TextOnly)
    (hlive : ∀ r s, (r, Binding.text s) ∈ e.table → Live s) (text : String) (ht : Live text) :
    (depth e.text? text ≤ 99 →
      (∃ out left, Substitutes e.text? (Piece.scan text.toList) out left) ∧
      ∀ out left, Substitutes e.text? (Piece.scan text.toList) out left →
        resolve (lookup d [.environment e]) text = .ok (String.ofList out, left)) ∧
    (99 < depth e.text? text →
      ∃ err, resolve (lookup d [.environment e]) text = .error err ∧ err.kind = .uninterpolatable) := by
  have hfind : ∀ r s, e.text? r = some s → Live s := fun r s h => hlive r s (Environment.mem_of_text? h)
  have hlook : lookup d [.environment e] = fun r => .ok (e.text? r) :=
    lookupBy_textOnly d _ he (by decide)
  rw [hlook]
  constructor
  · intro hd
    have h := depth_le_iff (n := 99).mp (by exact_mod_cast hd)
    exact ⟨h.substitutes hfind ht, fun out left hs => h.resolve hfind ht (by decide) hs⟩
  · intro hd
    have h : ¬ DepthLE e.text? 99 text := fun h => absurd (depth_le_iff.mpr h) (not_le.mpr (by exact_mod_cast hd))
    exact resolve_error hfind ht h (by decide)

/-- A chain of bindings that ends at an unbound reference, and a binding that leads back to itself. -/
def chainAndCycle : Environment :=
  ⟨[(.ofName "a", .text "\x7b\x7bb\x7d\x7d\x7b\x7bc\x7d\x7d"), (.ofName "b", .text "x"),
    (.ofName "f", .text "\x7b\x7bf\x7d\x7dy")]⟩

theorem resolve_chain_and_cycle :
    resolve (lookup {} [.environment chainAndCycle]) "-\x7b\x7ba\x7d\x7d"
      = .ok ("-x\x7b\x7bc\x7d\x7d", [.ofName "c"]) ∧
    ∃ err, resolve (lookup {} [.environment chainAndCycle]) "\x7b\x7bf\x7d\x7d" = .error err ∧
      err.kind = .uninterpolatable := by
  have hbound : ∀ entry ∈ chainAndCycle.table, ∃ s, entry.2 = .text s ∧ Live s := by
    simp only [chainAndCycle, List.forall_mem_cons, List.not_mem_nil, Binding.text.injEq, exists_eq_left',
      IsEmpty.forall_iff, implies_true, and_true]
    decide +kernel
  have htext : chainAndCycle.TextOnly := fun entry h => (hbound entry h).imp fun _ hs => hs.1
  have hlive : ∀ r s, (r, Binding.text s) ∈ chainAndCycle.table → Live s := by
    intro r s h
    obtain ⟨s', hs', hl⟩ := hbound _ h
    cases hs'
    exact hl
  have hchain := resolve_substitutes {} chainAndCycle htext hlive "-\x7b\x7ba\x7d\x7d" (by decide +kernel)
  have hcycle := resolve_substitutes {} chainAndCycle htext hlive "\x7b\x7bf\x7d\x7d" (by decide +kernel)
  constructor
  · have hdepth : DepthLE chainAndCycle.text? 99 "-\x7b\x7ba\x7d\x7d" := by decide +kernel
    have hb : Substitutes chainAndCycle.text? (Piece.scan "x".toList) ['x'] [] := by
      rw [show Piece.scan "x".toList = [.char 'x'] by cbv]
      exact .char .nil
    have ha : Substitutes chainAndCycle.text? (Piece.scan "\x7b\x7bb\x7d\x7d\x7b\x7bc\x7d\x7d".toList)
        (['x'] ++ ((Ref.ofName "c").placeholder.toList ++ [])) [.ofName "c"] := by
      rw [show Piece.scan "\x7b\x7bb\x7d\x7d\x7b\x7bc\x7d\x7d".toList = [.braced ['b'], .braced ['c']] by cbv]
      exact .bound (r := .ofName "b") (by cbv) rfl hb (.unbound (by cbv) rfl .nil)
    have hs : Substitutes chainAndCycle.text? (Piece.scan "-\x7b\x7ba\x7d\x7d".toList)
        ('-' :: ((['x'] ++ ((Ref.ofName "c").placeholder.toList ++ [])) ++ [])) [.ofName "c"] := by
      rw [show Piece.scan "-\x7b\x7ba\x7d\x7d".toList = [.char '-', .braced ['a']] by cbv]
      exact .char (.bound (r := .ofName "a") (by cbv) rfl ha .nil)
    exact (hchain.1 (depth_le_iff.mpr hdepth)).2 _ _ hs
  · exact hcycle.2 (not_le.mp (mt (depth_le_iff (n := 99)).mp (by decide +kernel)))

end Template

end TypedTemplate
