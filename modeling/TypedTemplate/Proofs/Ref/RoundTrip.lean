import TypedTemplate.Proofs.Ref.Address

/-!
# Reading addresses again

The address of a reference leaves out the dot of a leading name. Reading puts a dot back only before an ASCII letter or
`_`, but a name may start with any letter: an address that spells the dot before another letter is the one kind that
cannot be read again from the reference.
-/

namespace TypedTemplate

namespace Ref

/-- Whether the first name stands behind a dot that it cannot do without. -/
def needsDot : List Char → Bool
  | '.' :: c :: _ => !(Text.isAsciiLetter c || c == '_')
  | _ => false

theorem ne_of_isNameStart {c : Char} (h : Text.isNameStart c = true) : c ≠ '[' ∧ c ≠ '.' := by
  constructor <;> rintro rfl <;> exact absurd h (by decide)

/-- A name without its dot gets it back if it starts with an ASCII letter or `_`, and is refused otherwise. -/
theorem normalize_name {c : Char} (h : Text.isNameStart c = true) (cs : List Char) :
    normalize (c :: cs) = if needsDot ('.' :: c :: cs) then none else some ('.' :: c :: cs) := by
  obtain ⟨hbracket, hdot⟩ := ne_of_isNameStart h
  cases hletter : Text.isAsciiLetter c <;> by_cases hc : c = '_' <;>
    simp [normalize, needsDot, hbracket, hdot, hletter, hc]

theorem parse_of_normalize {s : String} {cs : List Char} {components : List Component}
    (hn : normalize s.toList = some cs) (hs : Component.scanAll cs = .ok components) :
    parse s = .ok ⟨components⟩ := by
  simp [parse, hn, hs]

theorem parse_of_normalize_none {s : String} (hn : normalize s.toList = none) :
    parse s = .error (Error.invalidRef s) := by
  simp [parse, hn]

theorem parse_error {s : String} {e : Error} (h : parse s = .error e) :
    ∃ cause, e = { Error.invalidRef s with cause := cause } := by
  unfold parse at h
  split at h
  · cases h
    exact ⟨_, rfl⟩
  · split at h
    · cases h
    · cases h
      exact ⟨_, rfl⟩

theorem kind_of_parse {s : String} {e : Error} (h : parse s = .error e) : e.kind = .invalidRef s := by
  obtain ⟨cause, rfl⟩ := parse_error h
  rfl

/-- What a reference was read from: an index stands first, or a name whose dot may have been left out. -/
theorem written_head {s : String} {r : Ref} (h : parse s = .ok r) :
    (∃ rest, r.address.toList = '[' :: rest ∧ s.toList = '[' :: rest ∧
      Component.scanAll ('[' :: rest) = .ok r.components) ∨
    (∃ c rest, r.address.toList = c :: rest ∧ Text.isNameStart c = true ∧
      (s.toList = '.' :: c :: rest ∨ s.toList = c :: rest ∧ needsDot ('.' :: c :: rest) = false) ∧
      Component.scanAll ('.' :: c :: rest) = .ok r.components) := by
  obtain ⟨hnormal, hscan⟩ := parse_written h
  have hhead := Component.scanAll_head hscan
  obtain ⟨components⟩ := r
  cases components with
  | nil =>
      rcases normalize_cases hnormal with hs | hs
      · rw [← hs] at hnormal
        cases hnormal
      · cases hs
  | cons first others =>
      cases first with
      | index token =>
          left
          have hwritten : (Component.index token :: others).flatMap (·.toString.toList) =
              (address ⟨.index token :: others⟩).toList := by
            simp [address, Component.toString, String.toList_join, List.flatMap_map]
          obtain ⟨rest, haddress⟩ : ∃ rest, (address ⟨.index token :: others⟩).toList = '[' :: rest := by
            simp [address, Component.toString, String.toList_join]
          simp only [hwritten, haddress] at hnormal hscan
          refine ⟨rest, haddress, ?_, hscan⟩
          rcases normalize_cases hnormal with hs | hs
          · exact hs.symm
          · simp at hs
      | dereference name =>
          right
          have hwritten : (Component.dereference name :: others).flatMap (·.toString.toList) =
              '.' :: (address ⟨.dereference name :: others⟩).toList := by
            simp [address, Component.toString, String.toList_join, List.flatMap_map]
          simp only [hwritten] at hnormal hscan hhead
          rcases hhead with hnil | ⟨rest, hr⟩ | ⟨c, rest, hr, hc⟩
          · cases hnil
          · simp at hr
          · obtain ⟨-, hr⟩ := List.cons.inj hr
            rw [hr] at hnormal hscan ⊢
            refine ⟨c, rest, rfl, hc, ?_, hscan⟩
            rcases normalize_cases hnormal with hs | hs
            · exact .inl hs.symm
            · obtain ⟨-, hs⟩ := List.cons.inj hs
              rw [← hs, normalize_name hc] at hnormal
              exact .inr ⟨hs.symm, by simpa using hnormal⟩

/-- The address of a reference that was read from a text is read as the same reference, unless the text has a dot
before a letter beyond ASCII; then it is refused. -/
theorem parse_address {s : String} {r : Ref} (h : parse s = .ok r) :
    parse r.address = if needsDot s.toList then .error (Error.invalidRef r.address) else .ok r := by
  rcases written_head h with ⟨rest, haddress, hs, hscan⟩ | ⟨c, rest, haddress, hc, hs, hscan⟩
  · rw [hs]
    exact parse_of_normalize (by rw [haddress, normalize, if_pos (.inl rfl)]) hscan
  · have hdot : needsDot s.toList = needsDot ('.' :: c :: rest) := by
      rcases hs with hs | ⟨hs, hplain⟩
      · rw [hs]
      · rw [hs, hplain]
        have := (ne_of_isNameStart hc).2
        cases rest <;> simp [needsDot, this]
    have hnormal : normalize r.address.toList =
        if needsDot s.toList then none else some ('.' :: c :: rest) := by
      rw [haddress, hdot, normalize_name hc]
    split
    · rw [if_pos ‹_›] at hnormal
      exact parse_of_normalize_none hnormal
    · rw [if_neg ‹_›] at hnormal
      exact parse_of_normalize hnormal hscan

/-- The address of `.é` is `é`, which is no address. -/
theorem parse_address_beyond_ascii :
    ∃ r, parse ".é" = .ok r ∧ r.address = "é" ∧ parse r.address = .error (Error.invalidRef "é") :=
  ⟨⟨[.dereference "é"]⟩, by cbv, by cbv, by cbv⟩

theorem parse_address_nested : ∃ r, parse "a.é[b/c].d" = .ok r ∧ parse r.address = .ok r := by
  have h : parse "a.é[b/c].d" = .ok ⟨[.dereference "a", .dereference "é", .index "b/c", .dereference "d"]⟩ := by cbv
  exact ⟨_, h, (parse_address h).trans (if_neg (by decide))⟩

end Ref

end TypedTemplate
