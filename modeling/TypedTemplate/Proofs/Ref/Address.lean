import TypedTemplate.Proofs.Template.Pieces

/-!
# Addresses of references that were read

What is read from a text is written back as the text, up to the dot of a leading name. Where the address of a
reference can be read again, it gives the same reference.
-/

namespace TypedTemplate

namespace Component

theorem scan_written {cs rest : List Char} {c : Component} (h : scan cs = some (c, rest)) :
    cs = c.toString.toList ++ rest := by
  unfold scan at h
  split at h
  · rename_i c cs
    split at h
    · simp only [Option.some.injEq, Prod.mk.injEq] at h
      obtain ⟨rfl, rfl⟩ := h
      simp [toString, List.takeWhile_append_dropWhile]
    · cases h
  · rename_i cs
    split at h
    · rename_i c token rest ht hd
      simp only [Option.some.injEq, Prod.mk.injEq] at h
      obtain ⟨rfl, rfl⟩ := h
      have hcs : cs = (c :: token) ++ ']' :: rest := by rw [← ht, ← hd, List.takeWhile_append_dropWhile]
      simp [toString, hcs]
    · cases h
  · cases h

theorem scanAll_written {cs : List Char} {components : List Component} (h : scanAll cs = .ok components) :
    cs = components.flatMap (·.toString.toList) := by
  fun_induction scanAll cs generalizing components with
  | case1 cs _ hempty =>
      cases h
      exact List.isEmpty_iff.mp hempty
  | case2 => cases h
  | case3 cs c rest hscan ih =>
      cases hrest : scanAll rest with
      | error e => rw [hrest] at h; cases h
      | ok others =>
          rw [hrest] at h
          cases h
          rw [List.flatMap_cons, ← ih hrest]
          exact scan_written hscan

end Component

theorem Component.scanAll_head {cs : List Char} {components : List Component}
    (h : Component.scanAll cs = .ok components) :
    cs = [] ∨ (∃ rest, cs = '[' :: rest) ∨ ∃ c rest, cs = '.' :: c :: rest ∧ Text.isNameStart c = true := by
  unfold Component.scanAll at h
  split at h
  · split at h
    · rename_i hempty
      exact .inl (List.isEmpty_iff.mp hempty)
    · cases h
  · rename_i c rest hscan
    right
    unfold Component.scan at hscan
    split at hscan
    · rename_i c' cs'
      split at hscan
      · rename_i hc
        exact .inr ⟨c', cs', rfl, hc⟩
      · cases hscan
    · exact .inl ⟨_, rfl⟩
    · cases hscan

namespace Ref

/-- The normal form of a text that is read as a reference is the written form of its components. -/
theorem parse_written {s : String} {r : Ref} (h : parse s = .ok r) :
    normalize s.toList = some (r.components.flatMap (·.toString.toList)) ∧
      Component.scanAll (r.components.flatMap (·.toString.toList)) = .ok r.components := by
  unfold parse at h
  cases hn : normalize s.toList with
  | none => rw [hn] at h; cases h
  | some cs =>
      simp only [hn] at h
      cases hs : Component.scanAll cs with
      | error rest => rw [hs] at h; cases h
      | ok components =>
          rw [hs] at h
          cases h
          rw [← Component.scanAll_written hs]
          exact ⟨rfl, hs⟩

theorem address_written (r : Ref) :
    r.components.flatMap (·.toString.toList) = r.address.toList ∨
      r.components.flatMap (·.toString.toList) = '.' :: r.address.toList := by
  obtain ⟨components⟩ := r
  match components with
  | [] => exact .inl rfl
  | .dereference name :: rest =>
      right
      simp [address, Component.toString, String.toList_join, List.flatMap_map]
  | .index token :: rest =>
      left
      simp [address, String.toList_join, List.flatMap_map]

theorem normalize_cases {cs cs' : List Char} (h : normalize cs = some cs') :
    cs' = cs ∨ cs' = '.' :: cs := by
  cases cs with
  | nil => cases h
  | cons c rest =>
      simp only [normalize] at h
      split at h
      · exact .inl (Option.some.inj h).symm
      · split at h
        · exact .inr (Option.some.inj h).symm
        · cases h

/-- The address of a reference that was read is read as no other reference. -/
theorem eq_of_parse_address {s : String} {r r' : Ref} (h : parse s = .ok r) (h' : parse r.address = .ok r') :
    r' = r := by
  obtain ⟨-, hscan⟩ := parse_written h
  obtain ⟨hnormal, hscan'⟩ := parse_written h'
  have hwritten : r'.components.flatMap (·.toString.toList) = r.components.flatMap (·.toString.toList) := by
    have hhead := Component.scanAll_head hscan
    rcases address_written r with hw | hw <;> rw [hw] at hhead ⊢ <;>
      rcases normalize_cases hnormal with hn | hn <;> rw [hn] at hnormal ⊢
    · rcases hhead with hnil | ⟨rest, hr⟩ | ⟨c, rest, hr, -⟩
      · rw [hnil] at hnormal
        cases hnormal
      · rw [hr] at hnormal
        cases hnormal
      · rw [hr] at hnormal
        cases hnormal
    · rcases hhead with hnil | ⟨rest, hr⟩ | ⟨c, rest, hr, hc⟩
      · cases hnil
      · cases hr
      · obtain ⟨-, hr⟩ := List.cons.inj hr
        rw [hr, normalize] at hnormal
        split at hnormal
        · rename_i hbracket
          rcases hbracket with rfl | rfl <;> exact absurd hc (by decide)
        · split at hnormal
          · cases hnormal
          · cases hnormal
  rw [hwritten, hscan] at hscan'
  cases r
  cases r'
  simpa using hscan'.symm

/-- The placeholder of a reference that was read is one piece, and no escaped one. -/
theorem address_live {s : String} {r : Ref} (h : parse s = .ok r) :
    (Piece.braced r.address.toList).Whole ∧ Piece.escaped? r.address.toList = none := by
  obtain ⟨hnormal, hscan⟩ := parse_written h
  have hbrace := Component.scanAll_noBrace hscan
  have hhead := Component.scanAll_head hscan
  have hne : r.components.flatMap (·.toString.toList) ≠ [] := by
    intro hnil
    rw [hnil] at hnormal
    rcases normalize_cases hnormal with hn | hn
    · rw [← hn] at hnormal
      cases hnormal
    · cases hn
  rcases address_written r with hw | hw <;> rw [hw] at hbrace hhead hne
  · refine ⟨⟨hne, hbrace⟩, ?_⟩
    rcases hhead with hnil | ⟨rest, hr⟩ | ⟨c, rest, hr, -⟩
    · exact absurd hnil hne
    · rw [hr]
      rfl
    · rw [hr]
      rfl
  · rcases hhead with hnil | ⟨rest, hr⟩ | ⟨c, rest, hr, hc⟩
    · cases hnil
    · cases hr
    · obtain ⟨-, hr⟩ := List.cons.inj hr
      refine ⟨⟨by simp [hr], fun x hx => hbrace x (List.mem_cons_of_mem _ hx)⟩, ?_⟩
      rw [hr]
      unfold Piece.escaped?
      split
      · rename_i heq
        obtain ⟨rfl, -⟩ := List.cons.inj heq
        exact absurd hc (by decide)
      · rfl

end Ref

end TypedTemplate
