import TypedTemplate.Proofs.Outcome
import TypedTemplate.Proofs.Ref.Address
import TypedTemplate.Proofs.Template.Live

/-!
# Settled texts

Resolving stops at a text of which a pass leaves every reference in place. Such a pass only writes placeholders anew,
so that the references of the text that it gives back are still those that nothing is bound to, and stand in the
final text.
-/

namespace TypedTemplate

namespace Piece

/-- The piece as a pass writes it that finds nothing. -/
def rewritten : Piece → Piece
  | char c => char c
  | braced body =>
    match escaped? body with
    | some address => braced ('&' :: address)
    | none =>
      match Ref.parse (String.ofList body) with
      | .ok r => braced r.address.toList
      | .error _ => braced body

theorem Whole.rewritten {body : List Char} (h : (braced body).Whole) :
    ∃ body', (braced body).rewritten = braced body' ∧ (braced body').Whole := by
  simp only [Piece.rewritten]
  split
  · rename_i address haddress
    refine ⟨_, rfl, by simp, ?_⟩
    unfold escaped? at haddress
    split at haddress
    · rename_i c cs
      cases haddress
      intro x hx
      rcases List.mem_cons.mp hx with rfl | hx
      · rfl
      · have hmem : x ∈ (c :: cs).reverse := (List.dropWhile_suffix _).subset (List.mem_reverse.mp hx)
        exact h.2 x (List.mem_cons_of_mem _ (List.mem_reverse.mp hmem))
    · cases haddress
  · split
    · rename_i r hr
      exact ⟨_, rfl, (Ref.address_live hr).1⟩
    · exact ⟨_, rfl, h⟩

theorem ref?_escaped {body address : List Char} (h : escaped? body = some address) : (braced body).ref? = none := by
  cases hr : Ref.parse (String.ofList body) with
  | error e => simp [ref?, hr, Except.toOption]
  | ok r =>
      rw [escaped?_of_parse hr] at h
      cases h

theorem prefix_of_map {f : Piece → Piece} (hchar : ∀ c, f (char c) = char c)
    (hbraced : ∀ body, ∃ body', f (braced body) = braced body') {ps : List Piece} {v rest : List Char}
    (hv : ∀ c ∈ v, c ≠ '{') (h : (ps.map f).flatMap text = v ++ rest) : ∃ rest', ps.flatMap text = v ++ rest' := by
  induction v generalizing ps with
  | nil => exact ⟨_, rfl⟩
  | cons x v ih =>
      cases ps with
      | nil => cases h
      | cons p ps =>
          cases p with
          | char c =>
              rw [List.map_cons, hchar, List.flatMap_cons] at h
              have hcons := List.cons.inj h
              obtain ⟨rest', hrest⟩ := ih (fun c hc => hv c (by simp [hc])) hcons.2
              exact ⟨rest', by simp [text, hrest, hcons.1]⟩
          | braced body =>
              obtain ⟨body', hbody⟩ := hbraced body
              rw [List.map_cons, hbody, List.flatMap_cons] at h
              obtain ⟨hx, -⟩ := List.cons.inj h
              exact absurd hx.symm (hv x (by simp))

theorem Whole.ne_opening {body : List Char} (h : (braced body).Whole) : ∀ x ∈ body ++ ['}', '}'], x ≠ '{' := by
  intro x hx
  rcases List.mem_append.mp hx with hx | hx
  · rintro rfl
    exact absurd (h.2 '{' hx) (by decide)
  · simp only [List.mem_cons, List.not_mem_nil, or_false, or_self] at hx
    rw [hx]
    decide

/-- No placeholder begins in front of a text because others in it are replaced. -/
theorem braced?_map_eq_none {f : Piece → Piece} (hchar : ∀ c, f (char c) = char c)
    (hbraced : ∀ body, ∃ body', f (braced body) = braced body') {c : Char} {rest : List Char}
    (h : braced? (c :: rest) = none) : braced? (c :: ((scan rest).map f).flatMap text) = none := by
  cases hb : braced? (c :: ((scan rest).map f).flatMap text) with
  | none => rfl
  | some found =>
      -- The placeholder would begin with `c`, and would have stood there before the replacement.
      obtain ⟨body, after⟩ := found
      obtain ⟨hbody, htext⟩ := braced?_whole hb
      rw [text, List.cons_append, List.cons_append, List.cons.injEq] at htext
      obtain ⟨rfl, htail⟩ := htext
      cases hps : scan rest with
      | nil =>
          rw [hps] at htail
          cases htail
      | cons p ps =>
          rw [hps] at htail
          cases p with
          | braced body' =>
              obtain ⟨body'', hbody''⟩ := hbraced body'
              rw [List.map_cons, hbody'', List.flatMap_cons] at htail
              obtain ⟨x, xs, rfl⟩ := List.exists_cons_of_ne_nil hbody.1
              have hx : '{' = x := (List.cons.inj (List.cons.inj htail).2).1
              exact absurd hx.symm (hbody.ne_opening x (by simp))
          | char c' =>
              rw [List.map_cons, hchar, List.flatMap_cons, text, List.singleton_append, List.cons.injEq] at htail
              obtain ⟨rfl, htail⟩ := htail
              obtain ⟨rest', hrest⟩ := prefix_of_map hchar hbraced hbody.ne_opening htail
              have hsame : rest = '{' :: (body ++ '}' :: '}' :: rest') := by
                rw [← flatMap_text_scan rest, hps, List.flatMap_cons, hrest]
                simp [text]
              rw [hsame, braced?_text hbody.1 hbody.2] at h
              cases h

/-- Scanning finds the placeholders of a text again where their bodies are replaced by others. -/
theorem scan_flatMap_map {f : Piece → Piece} (hchar : ∀ c, f (char c) = char c)
    (hbraced : ∀ body, ∃ body', f (braced body) = braced body')
    (hwhole : ∀ body, (braced body).Whole → (f (braced body)).Whole) (cs : List Char) :
    scan (((scan cs).map f).flatMap text) = (scan cs).map f := by
  fun_induction scan cs with
  | case1 cs body rest h ih =>
      rw [List.map_cons, List.flatMap_cons, scan_text_append (hwhole body (braced?_whole h).1), ih]
  | case2 => exact scan_nil
  | case3 c rest h ih =>
      rw [List.map_cons, hchar, List.flatMap_cons, text, List.singleton_append,
        scan_char (braced?_map_eq_none hchar hbraced h), ih]

/-- A placeholder does not begin inside of another one. -/
theorem Whole.not_overlapping {found body before bs after rest : List Char} {b c : Char} (h : (braced found).Whole)
    (hfound : (braced found).text = (c :: before) ++ (b :: bs))
    (hrest : (braced body).text ++ after = (b :: bs) ++ rest) : False := by
  simp only [text, List.cons_append, List.cons.injEq] at hfound hrest
  obtain ⟨rfl, hsecond⟩ := hrest
  cases before with
  | nil =>
      obtain ⟨x, xs, rfl⟩ := List.exists_cons_of_ne_nil h.1
      simp only [List.nil_append, List.cons.injEq, List.cons_append] at hfound
      rw [← hfound.2.2] at hsecond
      have hx := (List.cons.inj hsecond).1
      exact absurd hx.symm (h.ne_opening x (by simp))
  | cons c' before =>
      simp only [List.cons_append, List.cons.injEq] at hfound
      exact absurd rfl (h.ne_opening '{' (by simp [hfound.2.2]))

theorem braced?_append {cs body rest : List Char} (h : braced? cs = some (body, rest)) (after : List Char) :
    braced? (cs ++ after) = some (body, rest ++ after) := by
  obtain ⟨hwhole, rfl⟩ := braced?_whole h
  simpa [text] using braced?_text hwhole.1 hwhole.2

/-- A placeholder is found wherever it stands, and the text before it and the text behind it are scanned as on their
own. -/
theorem scan_append_braced {body : List Char} (h : (braced body).Whole) (before after : List Char) :
    scan (before ++ ((braced body).text ++ after)) = scan before ++ braced body :: scan after := by
  generalize hcs : before ++ ((braced body).text ++ after) = cs
  fun_induction scan cs generalizing before with
  | case1 cs found rest hb ih =>
      obtain ⟨hfound, htext⟩ := braced?_whole hb
      rw [htext] at hcs
      rcases List.append_eq_append_iff.mp hcs with ⟨bs, hbs, hrest⟩ | ⟨as, hbefore, hrest⟩
      · cases before with
        | nil =>
            have hscan := scan_text_append h after
            rw [← List.nil_append ((braced body).text ++ after), hcs, scan_text_append hfound] at hscan
            rw [hscan, scan_nil, List.nil_append]
        | cons c before =>
            cases bs with
            | nil =>
                have hscan := scan_text_append hfound []
                rw [hbs, List.append_nil, List.append_nil, scan_nil] at hscan
                rw [hscan, ih [] hrest, scan_nil]
                rfl
            | cons b bs => exact (hfound.not_overlapping hbs hrest).elim
      · rw [hbefore, scan_text_append hfound, ih as hrest.symm, List.cons_append]
  | case2 => simp [text] at hcs
  | case3 c rest hb ih =>
      cases before with
      | nil =>
          have hcs' : c :: rest = '{' :: '{' :: (body ++ '}' :: '}' :: after) := by
            rw [← hcs]
            simp [text]
          rw [hcs', braced?_text h.1 h.2] at hb
          cases hb
      | cons c' before =>
          obtain ⟨rfl, hrest⟩ := List.cons.inj hcs
          have hnone : braced? (c' :: before) = none := by
            cases hsome : braced? (c' :: before) with
            | none => rfl
            | some found =>
                have happend := braced?_append hsome ((braced body).text ++ after)
                rw [hcs, hb] at happend
                cases happend
          rw [scan_char hnone, ih before hrest, List.cons_append]

theorem mem_scan {body : List Char} (h : (braced body).Whole) (before after : List Char) :
    braced body ∈ scan (before ++ ((braced body).text ++ after)) := by
  simp [scan_append_braced h]

end Piece

/-! ## Fragments -/

namespace Fragment

/-- How pieces are joined into fragments where that succeeds; a literal before them is given backwards. -/
inductive Joins (final : Bool) : List Char → List Piece → List Fragment → Prop
  | nil {acc} : Joins final acc [] (consLiteral acc [])
  | char {acc c ps fs} : Joins final (c :: acc) ps fs → Joins final acc (.char c :: ps) fs
  | escaped {acc body address ps fs} : Piece.escaped? body = some address →
      Joins final ((Piece.escapedText final address).reverse ++ acc) ps fs → Joins final acc (.braced body :: ps) fs
  | live {acc body r ps fs} : Piece.escaped? body = none → Ref.parse (String.ofList body) = .ok r →
      Joins final [] ps fs → Joins final acc (.braced body :: ps) (consLiteral acc (reference r :: fs))

theorem joins_of_ofPieces {final : Bool} {acc : List Char} {ps : List Piece} {fs : List Fragment}
    (h : ofPieces final acc ps = .ok fs) : Joins final acc ps fs := by
  induction ps generalizing acc fs with
  | nil =>
      cases h
      exact .nil
  | cons p ps ih =>
      cases p with
      | char c => exact .char (ih h)
      | braced body =>
          simp only [ofPieces] at h
          split at h
          · rename_i address haddress
            exact .escaped haddress (ih h)
          · rename_i hlive
            obtain ⟨r, hr, h⟩ := Except.bind_ok h
            obtain ⟨rest, hrest, h⟩ := Except.bind_ok h
            cases h
            exact .live hlive hr (ih hrest)

theorem refs_ofPieces {final : Bool} {acc : List Char} {ps : List Piece} {fs : List Fragment}
    (h : ofPieces final acc ps = .ok fs) : refs fs = ps.filterMap Piece.ref? := by
  replace h := joins_of_ofPieces h
  induction h with
  | nil => exact refs_consLiteral _ []
  | char _ ih => exact ih
  | escaped haddress _ ih => rw [ih, List.filterMap_cons_none (Piece.ref?_escaped haddress)]
  | live _ hr _ ih => rw [refs_consLiteral, refs, ih, List.filterMap_cons_some (Piece.ref?_braced hr)]

theorem parse_of_ofPieces {final : Bool} {acc : List Char} {ps : List Piece} {fs : List Fragment}
    (h : ofPieces final acc ps = .ok fs) {body : List Char} (hm : .braced body ∈ ps)
    (hlive : Piece.escaped? body = none) : ∃ r, Ref.parse (String.ofList body) = .ok r := by
  replace h := joins_of_ofPieces h
  induction h with
  | nil => cases hm
  | char _ ih => exact ih (by simpa using hm)
  | escaped haddress _ ih =>
      rcases List.mem_cons.mp hm with heq | hm
      · cases heq
        rw [hlive] at haddress
        cases haddress
      · exact ih hm
  | live _ hr _ ih =>
      rcases List.mem_cons.mp hm with heq | hm
      · cases heq
        exact ⟨_, hr⟩
      · exact ih hm

variable {lookup : Template.Lookup}

theorem join_ofPieces {acc : List Char} {ps : List Piece} {fs : List Fragment} (h : ofPieces false acc ps = .ok fs)
    (hnone : ∀ r ∈ refs fs, lookup r = .ok none) : Template.join lookup fs
      = .ok (String.ofList (acc.reverse ++ (ps.map Piece.rewritten).flatMap Piece.text), refs fs) := by
  replace h := joins_of_ofPieces h
  induction h with
  | nil =>
      rw [refs_consLiteral]
      exact join_consLiteral _ rfl
  | char _ ih =>
      rw [ih hnone]
      simp [Piece.rewritten, Piece.text]
  | escaped haddress _ ih =>
      rw [ih hnone]
      simp [Piece.rewritten, haddress, Piece.escapedText, Piece.text]
  | @live acc body r ps rest hlive hr _ ih =>
      rw [refs_consLiteral] at hnone ⊢
      have hr' : lookup r = .ok none := hnone r (by simp [refs])
      have hj := ih fun r hr => hnone r (by simp [refs, hr])
      have hpiece : (Piece.braced body).rewritten = .braced r.address.toList := by
        simp [Piece.rewritten, hlive, hr]
      apply join_consLiteral
      rw [List.map_cons, hpiece, List.flatMap_cons, Piece.text_braced_address]
      simp [Template.join, hr', hj, refs, bind, Except.bind, pure, Except.pure, String.ofList_append]

/-- Joining writes the fragments as they are shown where nothing is bound to their references. -/
theorem join_unbound {fs : List Fragment} (h : ∀ r ∈ refs fs, lookup r = .ok none) :
    Template.join lookup fs = .ok (String.join (fs.map toString), refs fs) := by
  induction fs with
  | nil => rfl
  | cons f fs ih =>
      cases f with
      | literal s =>
          rw [Template.join, ih h, List.map_cons, String.join_cons]
          rfl
      | reference r =>
          obtain ⟨hr, hrest⟩ := List.forall_mem_cons.mp h
          rw [Template.join, hr, ih hrest, List.map_cons, String.join_cons]
          rfl

theorem length_join {fs : List Fragment} {text : String} {unbound : List Ref}
    (h : Template.join lookup fs = .ok (text, unbound)) : unbound.length ≤ (refs fs).length := by
  induction fs generalizing text unbound with
  | nil =>
      cases h
      exact Nat.le_refl _
  | cons f fs ih =>
      cases f with
      | literal s =>
          obtain ⟨⟨joined, left⟩, hj, h⟩ := Except.bind_ok h
          cases h
          exact ih hj
      | reference r =>
          obtain ⟨found, -, h⟩ := Except.bind_ok h
          obtain ⟨⟨joined, left⟩, hj, h⟩ := Except.bind_ok h
          have := ih hj
          cases found <;> cases h <;> simp only [refs, List.length_cons] <;> omega

theorem unbound_of_join {fs : List Fragment} {text : String} (h : Template.join lookup fs = .ok (text, refs fs)) :
    ∀ r ∈ refs fs, lookup r = .ok none := by
  induction fs generalizing text with
  | nil => simp [refs]
  | cons f fs ih =>
      cases f with
      | literal s =>
          obtain ⟨⟨joined, left⟩, hj, h⟩ := Except.bind_ok h
          simp only [refs, pure, Except.pure, Except.ok.injEq, Prod.mk.injEq] at h
          rw [h.2] at hj
          exact ih hj
      | reference r =>
          obtain ⟨found, hr, h⟩ := Except.bind_ok h
          obtain ⟨⟨joined, left⟩, hj, h⟩ := Except.bind_ok h
          cases found with
          | some s =>
              have hlength := length_join hj
              simp only [refs, pure, Except.pure, Except.ok.injEq, Prod.mk.injEq] at h
              rw [h.2, List.length_cons] at hlength
              omega
          | none =>
              simp only [refs, pure, Except.pure, Except.ok.injEq, Prod.mk.injEq, List.cons.injEq, true_and] at h
              rw [h.2] at hj
              intro r' hr'
              rcases List.mem_cons.mp hr' with rfl | hr'
              · exact hr
              · exact ih hj r' hr'

/-- The placeholder of a reference to which nothing is bound stands in the joined text. -/
theorem placeholder_of_join {fs : List Fragment} {text : String} {unbound : List Ref}
    (h : Template.join lookup fs = .ok (text, unbound)) {r : Ref} (hr : r ∈ refs fs) (hl : lookup r = .ok none) :
    ∃ before after, text.toList = before ++ (r.placeholder.toList ++ after) := by
  induction fs generalizing text unbound with
  | nil => cases hr
  | cons f fs ih =>
      cases f with
      | literal s =>
          obtain ⟨⟨joined, left⟩, hj, h⟩ := Except.bind_ok h
          cases h
          obtain ⟨before, after, htext⟩ := ih hj hr
          exact ⟨s.toList ++ before, after, by simp [htext]⟩
      | reference r' =>
          obtain ⟨found, hr', h⟩ := Except.bind_ok h
          obtain ⟨⟨joined, left⟩, hj, h⟩ := Except.bind_ok h
          rcases List.mem_cons.mp hr with rfl | hr
          · rw [hl] at hr'
            cases hr'
            cases h
            exact ⟨[], joined.toList, by simp⟩
          · obtain ⟨before, after, htext⟩ := ih hj hr
            cases found <;> cases h
            · exact ⟨r'.placeholder.toList ++ before, after, by simp [htext]⟩
            · exact ⟨_ ++ before, after, by simp [htext]; rfl⟩

end Fragment

/-! ## Resolving -/

namespace Template

variable {lookup : Lookup} {text : String}

theorem settle_fixpoint {passes : Nat} {settled : String} (h : settle lookup passes text = .ok settled) :
    ∃ before fs, Fragment.split false before = .ok fs ∧ join lookup fs = .ok (settled, Fragment.refs fs) := by
  induction passes generalizing text with
  | zero => cases h
  | succ passes ih =>
      rw [settle] at h
      obtain ⟨fs, hfs, h⟩ := Except.bind_ok h
      obtain ⟨⟨joined, unbound⟩, hj, h⟩ := Except.bind_ok h
      dsimp only at h
      split at h
      · rename_i hunbound
        cases h
        exact ⟨text, fs, hfs, hunbound ▸ hj⟩
      · exact ih h

/-- After a pass that found nothing the pieces are those from before, written anew. -/
theorem scan_of_join {before settled : String} {fs : List Fragment} (hfs : Fragment.split false before = .ok fs)
    (hj : join lookup fs = .ok (settled, Fragment.refs fs)) :
    Piece.scan settled.toList = (Piece.scan before.toList).map Piece.rewritten := by
  rw [Fragment.join_ofPieces hfs (Fragment.unbound_of_join hj)] at hj
  cases hj
  rw [String.toList_ofList, List.reverse_nil, List.nil_append]
  refine Piece.scan_flatMap_map (fun _ => rfl) (fun body => ?_) (fun body hbody => ?_) _
  · simp only [Piece.rewritten]
    split
    · exact ⟨_, rfl⟩
    · split <;> exact ⟨_, rfl⟩
  · obtain ⟨body', heq, hwhole⟩ := hbody.rewritten
    rw [heq]
    exact hwhole

/-- Nothing is bound to the references that resolving leaves. -/
theorem lookup_of_resolve {joined : String} {left : List Ref} (h : resolve lookup text = .ok (joined, left)) :
    ∀ r ∈ left, lookup r = .ok none := by
  obtain ⟨settled, hsettled, h⟩ := Except.bind_ok h
  obtain ⟨fs', hfs', h⟩ := Except.bind_ok h
  obtain ⟨⟨joined', unbound⟩, -, h⟩ := Except.bind_ok h
  cases h
  -- The text before the last pass has the same references, and that pass looked up all of them.
  obtain ⟨before, fs, hfs, hj⟩ := settle_fixpoint hsettled
  intro r hr
  rw [Fragment.refs_ofPieces hfs', scan_of_join hfs hj, List.mem_filterMap] at hr
  obtain ⟨p', hp', hr⟩ := hr
  obtain ⟨p, hp, rfl⟩ := List.mem_map.mp hp'
  cases p with
  | char c => cases hr
  | braced body =>
      simp only [Piece.rewritten] at hr
      split at hr
      · simp [Piece.ref?, Ref.parse, Ref.normalize, Text.isAsciiLetter, Except.toOption] at hr
      · rename_i hlive
        obtain ⟨r', hr'⟩ := Fragment.parse_of_ofPieces hfs hp hlive
        simp only [hr', Piece.ref?, String.ofList_toList] at hr
        obtain rfl : r = r' := by
          cases hp' : Ref.parse r'.address with
          | error e =>
              rw [hp'] at hr
              cases hr
          | ok r'' =>
              rw [hp'] at hr
              cases hr
              exact Ref.eq_of_parse_address hr' hp'
        apply Fragment.unbound_of_join hj
        rw [Fragment.refs_ofPieces hfs, List.mem_filterMap]
        exact ⟨_, hp, Piece.ref?_braced hr'⟩

/-! ## Open texts -/

/-- A placeholder that is not escaped stands in the text. -/
def Open (text : String) : Prop := ∃ body, .braced body ∈ Piece.scan text.toList ∧ Piece.escaped? body = none

theorem Open.hasPlaceholder (h : Open text) : hasPlaceholder text = true := by
  obtain ⟨body, hbody, -⟩ := h
  exact List.any_eq_true.mpr ⟨_, hbody, rfl⟩

/-- Where resolving leaves references, the text stays open. -/
theorem open_of_resolve {joined : String} {left : List Ref} (h : resolve lookup text = .ok (joined, left))
    (hleft : left ≠ []) : Open joined := by
  have hnone := lookup_of_resolve h
  obtain ⟨settled, hsettled, h⟩ := Except.bind_ok h
  obtain ⟨fs, hfs, h⟩ := Except.bind_ok h
  obtain ⟨⟨joined', unbound⟩, hj, h⟩ := Except.bind_ok h
  cases h
  obtain ⟨r, rest, hr⟩ := List.exists_cons_of_ne_nil hleft
  have hmem : r ∈ Fragment.refs fs := by simp [hr]
  obtain ⟨before, after, htext⟩ := Fragment.placeholder_of_join hj hmem (hnone r hmem)
  rw [Fragment.refs_ofPieces hfs, List.mem_filterMap] at hmem
  obtain ⟨p, hp, hpr⟩ := hmem
  cases p with
  | char c => cases hpr
  | braced body =>
      cases hparse : Ref.parse (String.ofList body) with
      | error e => simp [Piece.ref?, hparse, Except.toOption] at hpr
      | ok r' =>
          rw [Piece.ref?_braced hparse] at hpr
          cases hpr
          obtain ⟨hwhole, hlive⟩ := Ref.address_live hparse
          refine ⟨r.address.toList, ?_, hlive⟩
          rw [htext, ← Piece.text_braced_address]
          exact Piece.mem_scan hwhole before after

/-- An open text never comes to an end where nothing is bound. -/
theorem Open.resolve_unbound (h : Open text) (joined : String) : resolve (fun _ => .ok none) text ≠ .ok (joined, []) := by
  intro hr
  obtain ⟨body, hbody, hlive⟩ := h
  obtain ⟨settled, hsettled, hr⟩ := Except.bind_ok hr
  obtain ⟨fs', hfs', hr⟩ := Except.bind_ok hr
  obtain ⟨⟨joined', unbound⟩, -, hr⟩ := Except.bind_ok hr
  have hrefs : Fragment.refs fs' = [] := by
    simp only [pure, Except.pure, Except.ok.injEq, Prod.mk.injEq] at hr
    exact hr.2
  rw [maxPasses, settle] at hsettled
  obtain ⟨fs, hfs, hsettled⟩ := Except.bind_ok hsettled
  have hj : join (fun _ => .ok none) fs = _ := Fragment.join_ofPieces hfs fun _ _ => rfl
  obtain ⟨result, hresult, hsettled⟩ := Except.bind_ok hsettled
  rw [hj] at hresult
  cases hresult
  simp only [↓reduceIte, pure, Except.pure, Except.ok.injEq] at hsettled
  rw [hsettled] at hj
  -- The first pass is the last one, so the placeholder is still there when the references are collected.
  obtain ⟨r, hparse⟩ := Fragment.parse_of_ofPieces hfs hbody hlive
  have hpiece : .braced r.address.toList ∈ Piece.scan settled.toList := by
    rw [scan_of_join hfs hj, List.mem_map]
    exact ⟨_, hbody, by simp [Piece.rewritten, hlive, hparse]⟩
  obtain ⟨r', hr'⟩ := Fragment.parse_of_ofPieces hfs' hpiece (Ref.address_live hparse).2
  have hmem : r' ∈ Fragment.refs fs' := by
    rw [Fragment.refs_ofPieces hfs', List.mem_filterMap]
    exact ⟨_, hpiece, Piece.ref?_braced hr'⟩
  simp [hrefs] at hmem

end Template

end TypedTemplate
