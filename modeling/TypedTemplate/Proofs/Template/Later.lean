import TypedTemplate.Proofs.Template.Stages

/-!
# Lookups in two stages

What resolving a text finds out depends only on the references that it comes upon. Where the texts found for them are
live, it fails for no other reason than that one of their lookups does, or that they nest too deep. So a lookup that
finds more than another one gives what the other leaves and a later lookup make of the text one after the other.
-/

namespace TypedTemplate.Template

variable {lookup lookup' : Lookup} {text : String}

/-! ## The references that a text leads to -/

/-- Resolving the text comes upon the reference: it is mentioned in the text, or in a text that is found on the way. -/
inductive Reaches (lookup : Lookup) : String → Ref → Prop
  | here {text r} : r ∈ refs text → Reaches lookup text r
  | there {text r s r'} : r ∈ refs text → lookup r = .ok (some s) → Reaches lookup s r' → Reaches lookup text r'

/-- The text is live, and so are all the texts that are found while it is resolved. -/
structure Sound (lookup : Lookup) (text : String) : Prop where
  live : Live text
  found {r s} : Reaches lookup text r → lookup r = .ok (some s) → Live s

theorem sound_of_live {find : Ref → Option String} (hfind : ∀ r s, find r = some s → Live s) (h : Live text) :
    Sound (fun r => .ok (find r)) text := ⟨h, fun _ hs => hfind _ _ (Except.ok.inj hs)⟩

/-- A lookup that finds less leads to less. -/
theorem Reaches.mono (hfound : ∀ r s, lookup r = .ok (some s) → lookup' r = .ok (some s)) {r : Ref}
    (h : Reaches lookup text r) : Reaches lookup' text r := by
  induction h with
  | here hr => exact .here hr
  | there hr hs _ ih => exact .there hr (hfound _ _ hs) ih

theorem Sound.mono (h : Sound lookup' text) (hfound : ∀ r s, lookup r = .ok (some s) → lookup' r = .ok (some s)) :
    Sound lookup text := ⟨h.live, fun hr hs => h.found (hr.mono hfound) (hfound _ _ hs)⟩

theorem Reaches.mem_refs (hflat : ∀ r ∈ refs text, ∀ s, lookup r = .ok (some s) → refs s = []) {r : Ref}
    (h : Reaches lookup text r) : r ∈ refs text := by
  cases h with
  | here hr => exact hr
  | there hr hs hreaches =>
      have hnil := hflat _ hr _ hs
      cases hreaches with
      | here hr' | there hr' => simp [hnil] at hr'

/-! ## One pass -/

theorem join_congr {fs : List Fragment} (h : ∀ r ∈ Fragment.refs fs, lookup r = lookup' r) :
    join lookup fs = join lookup' fs := by
  induction fs with
  | nil => rfl
  | cons f fs ih =>
      cases f with
      | literal s => rw [join, join, ih h]
      | reference r => rw [join, join, h r (by simp [Fragment.refs]), ih fun r hr => h r (by simp [Fragment.refs, hr])]

theorem lookup_of_join {fs : List Fragment} {out : String × List Ref} (h : join lookup fs = .ok out) :
    ∀ r ∈ Fragment.refs fs, ∃ found, lookup r = .ok found := by
  induction fs generalizing out with
  | nil => rintro _ ⟨⟩
  | cons f fs ih =>
      cases f with
      | literal s =>
          obtain ⟨_, hj, -⟩ := Except.bind_ok h
          exact ih hj
      | reference r =>
          obtain ⟨found, hr, h⟩ := Except.bind_ok h
          obtain ⟨_, hj, -⟩ := Except.bind_ok h
          exact List.forall_mem_cons.mpr ⟨⟨found, hr⟩, ih hj⟩

theorem error_of_join {fs : List Fragment} {e : Error} (h : join lookup fs = .error e) :
    ∃ r ∈ Fragment.refs fs, lookup r = .error e := by
  induction fs with
  | nil => cases h
  | cons f fs ih =>
      cases f with
      | literal s =>
          obtain hj | ⟨_, -, h⟩ := Except.bind_error h
          · exact ih hj
          · cases h
      | reference r =>
          obtain hr | ⟨found, -, h⟩ := Except.bind_error h
          · exact ⟨r, by simp [Fragment.refs], hr⟩
          · obtain hj | ⟨_, -, h⟩ := Except.bind_error h
            · obtain ⟨r', hr', he⟩ := ih hj
              exact ⟨r', by simp [Fragment.refs, hr'], he⟩
            · cases found <;> cases h

/-- A pass over a sound text that succeeds is a pass with what has been found for the references in it. -/
theorem Sound.join_eq (h : Sound lookup text) {fs : List Fragment} (hfs : Fragment.split false text = .ok fs)
    {joined : String} {unbound : List Ref} (hj : join lookup fs = .ok (joined, unbound)) :
    ∃ find : Ref → Option String, (∀ r ∈ refs text, lookup r = .ok (find r)) ∧ (∀ r s, find r = some s → Live s) ∧
      joined = pass find text := by
  obtain ⟨fs', hfs', hrefs, hpass⟩ := h.live.split_join false
  obtain rfl := Except.ok.inj (hfs.symm.trans hfs')
  have hok := lookup_of_join hj
  rw [hrefs] at hok
  let find : Ref → Option String := fun r =>
    if r ∈ refs text then (lookup r).toOption.join else none
  have hfind : ∀ r ∈ refs text, lookup r = .ok (find r) := by
    intro r hr
    obtain ⟨found, hfound⟩ := hok r hr
    simp [find, hr, hfound, Except.toOption]
  refine ⟨find, hfind, fun r s hs => ?_, ?_⟩
  · have hr : r ∈ refs text := by
      by_contra hr
      simp [find, hr] at hs
    exact h.found (.here hr) ((hfind r hr).trans (congrArg _ hs))
  · have hsame : Template.join lookup fs = Template.join (fun r => .ok (find r)) fs :=
      join_congr fun r hr => hfind r (hrefs ▸ hr)
    rw [hsame, hpass] at hj
    cases hj
    rfl

/-- After a pass the text is sound again. It leads to nothing new, and to all that was not mentioned yet. -/
theorem Sound.join (h : Sound lookup text) {fs : List Fragment} (hfs : Fragment.split false text = .ok fs)
    {joined : String} {unbound : List Ref} (hj : join lookup fs = .ok (joined, unbound)) :
    Sound lookup joined ∧ (∀ r, Reaches lookup joined r → Reaches lookup text r) ∧
      ∀ r s r', r ∈ refs text → lookup r = .ok (some s) → Reaches lookup s r' → Reaches lookup joined r' := by
  obtain ⟨find, hfind, hlive, hjoined⟩ := h.join_eq hfs hj
  have hmem : ∀ r', r' ∈ refs joined ↔ ∃ r ∈ refs text,
      (∃ s, lookup r = .ok (some s) ∧ r' ∈ refs s) ∨ (lookup r = .ok none ∧ r' = r) := by
    intro r'
    rw [hjoined, h.live.refs_pass hlive, List.mem_flatMap]
    refine exists_congr fun r => and_congr_right fun hr => ?_
    rw [hfind r hr]
    cases find r <;> simp
  have hback : ∀ r', Reaches lookup joined r' → Reaches lookup text r' := by
    rintro r' (hr' | ⟨hr, hs, hreaches⟩)
    · obtain ⟨r, hr, ⟨s, hs, hr'⟩ | ⟨-, rfl⟩⟩ := (hmem r').mp hr'
      · exact .there hr hs (.here hr')
      · exact .here hr
    · obtain ⟨r', hr', ⟨s', hs', hr⟩ | ⟨hnone, rfl⟩⟩ := (hmem _).mp hr
      · exact .there hr' hs' (.there hr hs hreaches)
      · rw [hs] at hnone
        cases hnone
  refine ⟨⟨hjoined ▸ live_pass h.live hlive, fun hr => h.found (hback _ hr)⟩, hback, fun r s r' hr hs hreaches => ?_⟩
  rcases hreaches with hr' | ⟨hr', hs', hreaches⟩
  · exact .here ((hmem r').mpr ⟨r, hr, .inl ⟨s, hs, hr'⟩⟩)
  · exact .there ((hmem _).mpr ⟨r, hr, .inl ⟨s, hs, hr'⟩⟩) hs' hreaches

theorem Sound.settle_succ (h : Sound lookup text) (passes : Nat) : ∃ fs, Fragment.split false text = .ok fs ∧
    Fragment.refs fs = refs text ∧ settle lookup (passes + 1) text = Template.join lookup fs >>= fun out =>
      if out.2 = refs text then pure out.1 else settle lookup passes out.1 := by
  obtain ⟨fs, hfs, hrefs, -⟩ := h.live.split_join false
  refine ⟨fs, hfs, hrefs, ?_⟩
  rw [settle, hfs, ← hrefs]
  rfl

/-! ## All passes -/

theorem Sound.settled (h : Sound lookup text) {passes : Nat} {settled : String}
    (hs : settle lookup passes text = .ok settled) : Live settled ∧ ∀ r ∈ refs settled, Reaches lookup text r := by
  induction passes generalizing text with
  | zero => cases hs
  | succ passes ih =>
      obtain ⟨fs, hfs, -, hstep⟩ := h.settle_succ passes
      rw [hstep] at hs
      obtain ⟨out, hj, hs⟩ := Except.bind_ok hs
      obtain ⟨hnext, hback, -⟩ := h.join hfs hj
      split at hs
      · cases hs
        exact ⟨hnext.live, fun r hr => hback r (.here hr)⟩
      · exact (ih hnext hs).imp_right fun hreaches r hr => hback r (hreaches r hr)

theorem Sound.settle_congr (h : Sound lookup text) (hsame : ∀ r, Reaches lookup text r → lookup r = lookup' r)
    (passes : Nat) : settle lookup passes text = settle lookup' passes text := by
  induction passes generalizing text with
  | zero => rfl
  | succ passes ih =>
      obtain ⟨fs, hfs, hrefs, -⟩ := h.live.split_join false
      rw [settle, settle, hfs]
      simp only [bind, Except.bind]
      rw [← join_congr fun r hr => hsame r (.here (hrefs ▸ hr))]
      cases hj : Template.join lookup fs with
      | error e => rfl
      | ok out =>
          obtain ⟨hnext, hback, -⟩ := h.join hfs hj
          dsimp only
          rw [ih hnext fun r hr => hsame r (hback r hr)]

/-- Resolving depends on no other references than those that it comes upon. -/
theorem Sound.resolve_congr (h : Sound lookup text) (hsame : ∀ r, Reaches lookup text r → lookup r = lookup' r) :
    resolve lookup text = resolve lookup' text := by
  rw [resolve, resolve, ← h.settle_congr hsame]
  cases hs : settle lookup maxPasses text with
  | error e => rfl
  | ok settled =>
      obtain ⟨hlive, hreaches⟩ := h.settled hs
      obtain ⟨fs, hfs, hrefs, -⟩ := hlive.split_join true
      simp only [bind, Except.bind, hfs]
      rw [join_congr fun r hr => hsame r (hreaches r (hrefs ▸ hr))]

theorem Sound.lookup_of_settle (h : Sound lookup text) {passes : Nat} {settled : String}
    (hs : settle lookup passes text = .ok settled) {r : Ref} (hr : Reaches lookup text r) :
    ∃ found, lookup r = .ok found := by
  induction passes generalizing text with
  | zero => cases hs
  | succ passes ih =>
      obtain ⟨fs, hfs, hrefs, hstep⟩ := h.settle_succ passes
      rw [hstep] at hs
      obtain ⟨out, hj, hs⟩ := Except.bind_ok hs
      obtain ⟨hnext, -, hon⟩ := h.join hfs hj
      cases hr with
      | here hr => exact lookup_of_join hj _ (hrefs ▸ hr)
      | there hr hfound hreaches =>
          split at hs
          · rename_i hunbound
            have hlast : Template.join lookup fs = .ok (out.1, Fragment.refs fs) := by rw [hj, hrefs, ← hunbound]
            have hnone := Fragment.unbound_of_join hlast _ (hrefs ▸ hr)
            rw [hfound] at hnone
            cases hnone
          · exact ih hnext hs (hon _ _ _ hr hfound hreaches)

/-- Where a text is resolved, no lookup on the way has failed. -/
theorem Sound.lookup_of_resolve (h : Sound lookup text) {out : String × List Ref} (hout : resolve lookup text = .ok out)
    {r : Ref} (hr : Reaches lookup text r) : ∃ found, lookup r = .ok found := by
  obtain ⟨settled, hs, -⟩ := Except.bind_ok hout
  exact h.lookup_of_settle hs hr

theorem Sound.error_of_settle (h : Sound lookup text) {passes : Nat} {e : Error}
    (he : settle lookup passes text = .error e) :
    e.kind = .uninterpolatable ∨ ∃ r, Reaches lookup text r ∧ lookup r = .error e := by
  induction passes generalizing text with
  | zero =>
      cases he
      exact .inl rfl
  | succ passes ih =>
      obtain ⟨fs, hfs, hrefs, hstep⟩ := h.settle_succ passes
      rw [hstep] at he
      obtain hj | ⟨out, hj, he⟩ := Except.bind_error he
      · obtain ⟨r, hr, he⟩ := error_of_join hj
        exact .inr ⟨r, .here (hrefs ▸ hr), he⟩
      · obtain ⟨hnext, hback, -⟩ := h.join hfs hj
        split at he
        · cases he
        · exact (ih hnext he).imp_right fun ⟨r, hr, he⟩ => ⟨r, hback r hr, he⟩

/-- Where a text is not resolved, a lookup on the way has failed, or the passes do not suffice. -/
theorem Sound.error_of_resolve (h : Sound lookup text) {e : Error} (he : resolve lookup text = .error e) :
    e.kind = .uninterpolatable ∨ ∃ r, Reaches lookup text r ∧ lookup r = .error e := by
  obtain hs | ⟨settled, hs, he⟩ := Except.bind_error he
  · exact h.error_of_settle hs
  · obtain ⟨hlive, hreaches⟩ := h.settled hs
    obtain ⟨fs, hfs, hrefs, -⟩ := hlive.split_join true
    obtain hfs' | ⟨fs', hfs', he⟩ := Except.bind_error he
    · rw [hfs] at hfs'
      cases hfs'
    · obtain rfl := Except.ok.inj (hfs.symm.trans hfs')
      obtain hj | ⟨_, -, he⟩ := Except.bind_error he
      · obtain ⟨r, hr, he⟩ := error_of_join hj
        exact .inr ⟨r, hreaches r (hrefs ▸ hr), he⟩
      · cases he

theorem Live.noPlaceholder (h : Live text) (hrefs : refs text = []) : hasPlaceholder text = false := by
  simp only [hasPlaceholder, List.any_eq_false]
  intro p hp hbraced
  cases p with
  | char c => cases hbraced
  | braced body =>
      obtain ⟨r, hr, -⟩ := h _ hp
      have hmem : r ∈ refs text := by
        rw [h.refs_eq]
        exact List.mem_filterMap.mpr ⟨_, hp, Piece.ref?_braced hr⟩
      rw [hrefs] at hmem
      cases hmem

/-! ## Two lookups -/

/-- The second lookup finds what the first one does, and what comes later for the others; the third one finds at least
what comes later. The texts that come later are live, and mention only what the first lookup does not know. -/
structure LaterLookup (first atOnce second : Lookup) (later : Ref → Option String) : Prop where
  live {r s} : later r = some s → Live s
  apart {r s} : later r = some s → ∀ r' ∈ refs s, first r' = .ok none
  known {r} : first r ≠ .ok none → atOnce r = first r
  unknown {r} : first r = .ok none → atOnce r = .ok (later r) ∧ second r = .ok (later r)

namespace LaterLookup

variable {first atOnce second : Lookup} {later : Ref → Option String}

/-- Nothing that is known from the start is come upon from where it is not mentioned. -/
theorem reaches_unknown (h : LaterLookup first atOnce second later) {lookup : Lookup}
    (hlookup : ∀ r, first r = .ok none → lookup r = .ok (later r)) {text : String} {r : Ref}
    (hrefs : ∀ r ∈ refs text, first r = .ok none) (hr : Reaches lookup text r) : first r = .ok none := by
  induction hr with
  | here hr => exact hrefs _ hr
  | there hr hs _ ih => exact ih (h.apart (Except.ok.inj ((hlookup _ (hrefs _ hr)).symm.trans hs)))

theorem reaches (h : LaterLookup first atOnce second later) {text : String} {r : Ref} (hr : Reaches atOnce text r) :
    Reaches first text r ∨ first r = .ok none := by
  induction hr with
  | here hr => exact .inl (.here hr)
  | @there text r s r' hr hs hreaches ih =>
      by_cases hnone : first r = .ok none
      · have hlater := (h.unknown hnone).1.symm.trans hs
        exact .inr (h.reaches_unknown (fun _ hr => (h.unknown hr).1) (h.apart (Except.ok.inj hlater)) hreaches)
      · exact ih.imp_left fun ih => .there hr ((h.known hnone).symm.trans hs) ih

theorem reaches_atOnce (h : LaterLookup first atOnce second later) {text : String} {r : Ref}
    (hr : Reaches first text r) : Reaches atOnce text r := by
  induction hr with
  | here hr => exact .here hr
  | there hr hs _ ih => exact .there hr ((h.known (by simp [hs])).trans hs) ih

theorem sound (h : LaterLookup first atOnce second later) {text : String} (hsound : Sound first text) :
    Sound atOnce text where
  live := hsound.live
  found {r s} hr hs := by
    by_cases hnone : first r = .ok none
    · exact h.live (Except.ok.inj ((h.unknown hnone).1.symm.trans hs))
    · exact hsound.found ((h.reaches hr).resolve_right hnone) ((h.known hnone).symm.trans hs)

/-- Where resolving at once fails, a lookup does that is known from the start, or the passes do not suffice. -/
theorem error_of_resolve (h : LaterLookup first atOnce second later) {text : String} (hsound : Sound first text)
    {e : Error} (he : resolve atOnce text = .error e) :
    e.kind = .uninterpolatable ∨ ∃ r, Reaches first text r ∧ first r = .error e := by
  refine ((h.sound hsound).error_of_resolve he).imp_right ?_
  rintro ⟨r, hr, hlookup⟩
  have hknown : first r ≠ .ok none := by
    intro hnone
    rw [(h.unknown hnone).1] at hlookup
    cases hlookup
  exact ⟨r, (h.reaches hr).resolve_right hknown, (h.known hknown).symm.trans hlookup⟩

/-- Where resolving at once succeeds, the first lookup has found something or nothing for all that the text leads to,
and it makes two stages with what comes later. -/
theorem stages (h : LaterLookup first atOnce second later) {text : String} (hsound : Sound first text)
    {out : String × List Ref} (hout : Template.resolve atOnce text = .ok out) :
    ∃ found : Ref → Option String, (∀ r, Reaches atOnce text r → first r = .ok (found r)) ∧ Stages found later := by
  have hok : ∀ r, Reaches atOnce text r → ∃ s, first r = .ok s := by
    intro r hr
    obtain ⟨s, hs⟩ := (h.sound hsound).lookup_of_resolve hout hr
    by_cases hnone : first r = .ok none
    · exact ⟨none, hnone⟩
    · exact ⟨s, (h.known hnone).symm.trans hs⟩
  classical
  let found : Ref → Option String := fun r => if Reaches atOnce text r then (first r).toOption.join else none
  have hfound : ∀ r, Reaches atOnce text r → first r = .ok (found r) := by
    intro r hr
    obtain ⟨s, hs⟩ := hok r hr
    simp [found, hr, hs, Except.toOption]
  refine ⟨found, hfound, fun {r s} hs => ?_, h.live, fun {r s} hs r' hr' => ?_⟩
  · have hr : Reaches atOnce text r := by
      by_contra hr
      simp [found, hr] at hs
    have hfirst := (hfound r hr).trans (congrArg _ hs)
    exact hsound.found ((h.reaches hr).resolve_right (by simp [hfirst])) hfirst
  · simp [found, h.apart hs r' hr', Except.toOption]

theorem atOnce_eq_both (h : LaterLookup first atOnce second later) {found : Ref → Option String} {r : Ref}
    (hfirst : first r = .ok (found r)) : atOnce r = .ok (both found later r) := by
  cases hs : found r with
  | none => rw [both_of_none hs, (h.unknown (hfirst.trans (congrArg _ hs))).1]
  | some s => rw [both_of_some hs, h.known (by simp [hfirst, hs]), hfirst, hs]

/-- Where resolving at once succeeds, so does the first stage, and what is left of it comes to the same later. -/
theorem resolve (h : LaterLookup first atOnce second later) {text : String} (hsound : Sound first text)
    {out : String × List Ref} (hout : resolve atOnce text = .ok out) :
    ∃ mid, Live mid ∧ resolve first text = .ok (mid, refs mid) ∧ resolve second mid = .ok out := by
  obtain ⟨found, hfound, hstages⟩ := h.stages hsound hout
  have hsame : Template.resolve atOnce text = Template.resolve (fun r => .ok (both found later r)) text :=
    (h.sound hsound).resolve_congr fun r hr => h.atOnce_eq_both (hfound r hr)
  rw [hsame] at hout
  obtain ⟨e, he, -⟩ | ⟨mid, left, out', hmid, hlive, hrefs, hlater, hout'⟩ := hstages.resolve hsound.live
  · rw [he] at hout
    cases hout
  obtain rfl := Except.ok.inj (hout.symm.trans hout')
  have hfirst : Template.resolve first text = .ok (mid, refs mid) := by
    rw [hsound.resolve_congr fun r hr => hfound r (h.reaches_atOnce hr), hmid, hrefs]
  have hleft : ∀ r ∈ refs mid, first r = .ok none := Template.lookup_of_resolve hfirst
  refine ⟨mid, hlive, hfirst, ?_⟩
  rw [← (sound_of_live (fun _ _ => h.live) hlive).resolve_congr, hlater]
  exact fun r hr => (h.unknown (h.reaches_unknown (fun _ _ => rfl) hleft hr)).2.symm

end LaterLookup

/-- What a sound text is resolved to is live, and mentions the references that are left. -/
theorem Sound.live_of_resolve (h : Sound lookup text) {mid : String} {left : List Ref}
    (hmid : resolve lookup text = .ok (mid, left)) : Live mid ∧ refs mid = left := by
  -- Nothing needs to come later.
  have hnothing : LaterLookup lookup lookup (fun _ => .ok none) fun _ => none :=
    ⟨by rintro _ _ ⟨⟩, by rintro _ _ ⟨⟩, fun _ => rfl, fun hnone => ⟨hnone, rfl⟩⟩
  obtain ⟨mid', hlive, hfirst, -⟩ := hnothing.resolve h hmid
  cases hmid.symm.trans hfirst
  exact ⟨hlive, rfl⟩

theorem Live.resolve_closed (h : Live text) (hrefs : refs text = []) (lookup : Lookup) :
    resolve lookup text = .ok (text, []) := by
  rw [resolve_eq, maxPasses, resolveWithin_of_noPlaceholder (h.noPlaceholder hrefs)]

end TypedTemplate.Template
