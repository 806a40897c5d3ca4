import TypedTemplate.Proofs.Template.Later
import TypedTemplate.Proofs.Template.Unbound

/-!
# The references that a text meets

Resolving looks up the references of the text, then those of the text that a pass has left, and so on, until a pass
finds nothing. It depends on no others. A reference that nothing is bound to stays in the text from the pass that meets
it to the end, so that in a text from which all references are gone, every reference that it has met was bound.
-/

namespace TypedTemplate

theorem Ref.components_ne_nil_of_parse {s : String} {r : Ref} (h : parse s = .ok r) : r.components ≠ [] := by
  intro hnil
  have haddress := (address_live h).1.1
  simp [address, hnil] at haddress

theorem Piece.parse_of_ref? {p : Piece} {r : Ref} (h : p.ref? = some r) :
    ∃ body, p = braced body ∧ Ref.parse (String.ofList body) = .ok r := by
  cases p with
  | char c => cases h
  | braced body =>
      cases hparse : Ref.parse (String.ofList body) with
      | error e => simp [ref?, hparse, Except.toOption] at h
      | ok r' =>
          rw [ref?_braced hparse] at h
          cases h
          exact ⟨body, rfl, hparse⟩

namespace Template

variable {lookup lookup' : Lookup} {text joined : String} {fs gs : List Fragment} {final : Bool} {r : Ref}

/-! ## References of a text -/

/-- A text has the same references whether or not it is final. -/
theorem refs_of_split (h : Fragment.split final text = .ok fs) : Fragment.refs fs = refs text := by
  obtain ⟨gs, hgs⟩ : ∃ gs, Fragment.split false text = .ok gs :=
    Fragment.ofPieces_ok_iff.mpr (Fragment.ofPieces_ok_iff.mp ⟨fs, h⟩)
  simp only [refs, hgs]
  rw [Fragment.refs_ofPieces h, Fragment.refs_ofPieces hgs]

theorem parse_of_mem_refs (h : r ∈ refs text) : ∃ body, .braced body ∈ Piece.scan text.toList ∧
    Ref.parse (String.ofList body) = .ok r := by
  cases hfs : Fragment.split false text with
  | error e => simp [refs, hfs] at h
  | ok fs =>
      rw [← refs_of_split hfs, Fragment.refs_ofPieces hfs, List.mem_filterMap] at h
      obtain ⟨p, hp, hr⟩ := h
      obtain ⟨body, rfl, hparse⟩ := Piece.parse_of_ref? hr
      exact ⟨body, hp, hparse⟩

/-- A pass that finds nothing leaves the references as they are. -/
theorem refs_of_join (hfs : Fragment.split false text = .ok fs) (hj : join lookup fs = .ok (joined, Fragment.refs fs))
    (hgs : Fragment.split final joined = .ok gs) : refs joined = refs text := by
  have hscan := scan_of_join hfs hj
  have hread := Fragment.ofPieces_ok_iff.mp ⟨fs, hfs⟩
  have hagain := Fragment.ofPieces_ok_iff.mp ⟨gs, hgs⟩
  rw [← refs_of_split hgs, ← refs_of_split hfs, Fragment.refs_ofPieces hgs, Fragment.refs_ofPieces hfs, hscan,
    List.filterMap_map]
  rw [hscan, List.forall_mem_map] at hagain
  exact List.filterMap_congr fun p hp => Piece.ref?_rewritten (hread p hp) (hagain p hp)

/-- A reference to which nothing is bound is still there after a pass. -/
theorem mem_refs_of_join (hfs : Fragment.split false text = .ok fs) {unbound : List Ref}
    (hj : join lookup fs = .ok (joined, unbound)) (hr : r ∈ refs text) (hnone : lookup r = .ok none)
    (hgs : Fragment.split final joined = .ok gs) : r ∈ refs joined := by
  obtain ⟨before, after, hjoined⟩ := Fragment.placeholder_of_join hj (refs_of_split hfs ▸ hr) hnone
  obtain ⟨body, -, hparse⟩ := parse_of_mem_refs hr
  obtain ⟨hwhole, hlive⟩ := Ref.address_live hparse
  have hpiece : .braced r.address.toList ∈ Piece.scan joined.toList := by
    rw [hjoined, ← Piece.text_braced_address]
    exact Piece.mem_scan hwhole before after
  obtain ⟨r', hr'⟩ := Fragment.parse_of_ofPieces hgs hpiece hlive
  obtain rfl : r' = r := Ref.eq_of_parse_address hparse (by simpa using hr')
  rw [← refs_of_split hgs, Fragment.refs_ofPieces hgs, List.mem_filterMap]
  exact ⟨_, hpiece, Piece.ref?_braced hr'⟩

/-! ## References that are met -/

/-- Resolving the text looks up the reference: it is one of the text, or is met after a pass that is not the last. -/
inductive Meets (lookup : Lookup) : String → Ref → Prop
  | here {text : String} {r : Ref} : r ∈ refs text → Meets lookup text r
  | next {text joined : String} {fs : List Fragment} {unbound : List Ref} {r : Ref} :
      Fragment.split false text = .ok fs → join lookup fs = .ok (joined, unbound) → unbound ≠ Fragment.refs fs →
      Meets lookup joined r → Meets lookup text r

theorem Meets.components_ne_nil (h : Meets lookup text r) : r.components ≠ [] := by
  induction h with
  | here hr =>
      obtain ⟨body, -, hparse⟩ := parse_of_mem_refs hr
      exact Ref.components_ne_nil_of_parse hparse
  | next _ _ _ _ ih => exact ih

theorem settle_congr (hsame : ∀ r, Meets lookup text r → lookup r = lookup' r) (passes : Nat) :
    settle lookup passes text = settle lookup' passes text := by
  induction passes generalizing text with
  | zero => rfl
  | succ passes ih =>
      rw [settle, settle]
      cases hfs : Fragment.split false text with
      | error e => rfl
      | ok fs =>
          simp only [bind, Except.bind]
          rw [← join_congr fun r hr => hsame r (.here (refs_of_split hfs ▸ hr))]
          cases hj : join lookup fs with
          | error e => rfl
          | ok out =>
              dsimp only
              split
              · rfl
              · rename_i hunbound
                exact ih fun r hr => hsame r (.next hfs hj hunbound hr)

/-- The references of the settled text have all been met. -/
theorem meets_of_settle {passes : Nat} {settled : String} (h : settle lookup passes text = .ok settled)
    (hfs : Fragment.split final settled = .ok fs) (hr : r ∈ refs settled) : Meets lookup text r := by
  induction passes generalizing text with
  | zero => cases h
  | succ passes ih =>
      obtain ⟨gs, hgs, h⟩ := Except.bind_ok h
      obtain ⟨⟨joined, unbound⟩, hj, h⟩ := Except.bind_ok h
      dsimp only at h
      split at h
      · rename_i hunbound
        cases h
        exact .here (refs_of_join hgs (hunbound ▸ hj) hfs ▸ hr)
      · rename_i hunbound
        exact .next hgs hj hunbound (ih h)

/-- Resolving depends on no other references than those that it meets. -/
theorem resolve_congr (hsame : ∀ r, Meets lookup text r → lookup r = lookup' r) :
    resolve lookup text = resolve lookup' text := by
  rw [resolve, resolve, ← settle_congr hsame]
  cases hsettled : settle lookup maxPasses text with
  | error e => rfl
  | ok settled =>
      simp only [bind, Except.bind]
      cases hfs : Fragment.split true settled with
      | error e => rfl
      | ok fs =>
          dsimp only
          rw [join_congr fun r hr => hsame r (meets_of_settle hsettled hfs (refs_of_split hfs ▸ hr))]

/-! ## References that are bound -/

theorem mem_refs_of_settle {passes : Nat} {settled : String} (h : settle lookup passes text = .ok settled)
    (hfs : Fragment.split final settled = .ok fs) (hr : r ∈ refs text) (hnone : lookup r = .ok none) :
    r ∈ refs settled := by
  induction passes generalizing text with
  | zero => cases h
  | succ passes ih =>
      obtain ⟨gs, hgs, h⟩ := Except.bind_ok h
      obtain ⟨⟨joined, unbound⟩, hj, h⟩ := Except.bind_ok h
      dsimp only at h
      split at h
      · cases h
        exact mem_refs_of_join hgs hj hr hnone hfs
      · -- The next pass splits the joined text again, and there the placeholder is read as the reference.
        cases passes with
        | zero => cases h
        | succ passes =>
            obtain ⟨fs', hfs', -⟩ := Except.bind_ok h
            exact ih h (mem_refs_of_join hgs hj hr hnone hfs')

theorem settle_next {passes : Nat} {settled : String} (h : settle lookup passes text = .ok settled)
    (hfs : Fragment.split false text = .ok fs) {unbound : List Ref} (hj : join lookup fs = .ok (joined, unbound))
    (hunbound : unbound ≠ Fragment.refs fs) : ∃ passes', settle lookup passes' joined = .ok settled := by
  cases passes with
  | zero => cases h
  | succ passes =>
      rw [settle, hfs] at h
      simp only [hj, hunbound, bind, Except.bind, ↓reduceIte] at h
      exact ⟨passes, h⟩

/-- Where nothing is bound to a reference that is met, it is left in the settled text. -/
theorem mem_refs_of_meets (hmeets : Meets lookup text r) {passes : Nat} {settled : String}
    (h : settle lookup passes text = .ok settled) (hfs : Fragment.split final settled = .ok fs)
    (hnone : lookup r = .ok none) : r ∈ refs settled := by
  induction hmeets generalizing passes with
  | here hr => exact mem_refs_of_settle h hfs hr hnone
  | next hgs hj hunbound _ ih =>
      obtain ⟨passes', h⟩ := settle_next h hgs hj hunbound
      exact ih h hnone

theorem lookup_of_settle (hmeets : Meets lookup text r) {passes : Nat} {settled : String}
    (h : settle lookup passes text = .ok settled) : ∃ found, lookup r = .ok found := by
  induction hmeets generalizing passes with
  | here hr =>
      cases passes with
      | zero => cases h
      | succ passes =>
          obtain ⟨fs, hfs, h⟩ := Except.bind_ok h
          obtain ⟨_, hj, -⟩ := Except.bind_ok h
          exact lookup_of_join hj _ (refs_of_split hfs ▸ hr)
  | next hgs hj hunbound _ ih =>
      obtain ⟨passes', h⟩ := settle_next h hgs hj hunbound
      exact ih h

/-- Where a text is resolved and no reference is left, each reference that was met is bound. -/
theorem bound_of_resolve (h : resolve lookup text = .ok (joined, [])) (hr : Meets lookup text r) :
    ∃ s, lookup r = .ok (some s) := by
  obtain ⟨settled, hsettled, h⟩ := Except.bind_ok h
  obtain ⟨fs, hfs, h⟩ := Except.bind_ok h
  obtain ⟨_, -, h⟩ := Except.bind_ok h
  have hleft : refs settled = [] := by
    rw [← refs_of_split hfs]
    simp only [pure, Except.pure, Except.ok.injEq, Prod.mk.injEq] at h
    exact h.2
  obtain ⟨found, hfound⟩ := lookup_of_settle hr hsettled
  cases found with
  | some s => exact ⟨s, hfound⟩
  | none =>
      have hmem := mem_refs_of_meets hr hsettled hfs hfound
      rw [hleft] at hmem
      cases hmem

end Template

end TypedTemplate
