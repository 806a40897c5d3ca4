import TypedTemplate.Proofs.Ref.RoundTrip

/-!
# The grammar of addresses

An address is read as a reference exactly if it is what the components of the reference are written as, one behind the
other, where the dot of a leading name may be left out before an ASCII letter or `_`. No component can be read further
or less far than it was written: what follows it starts with a dot or a bracket, which belong to no word.
-/

namespace TypedTemplate

open Text

/-! ## One component -/

namespace Component

/-- A name starts with a word character that is no decimal digit, and goes on with word characters. A token between
brackets has at least one character, each a word character, a dash, a dot or a slash. -/
inductive Spelled : Component → Prop
  | dereference {name : String} {c cs} : name.toList = c :: cs → isWord c = true → isDigit c = false →
      (∀ x ∈ cs, isWord x = true) → Spelled (.dereference name)
  | index {token : String} : token ≠ "" → (∀ c ∈ token.toList, isWord c = true ∨ c = '-' ∨ c = '.' ∨ c = '/') →
      Spelled (.index token)

theorem isTokenChar_iff {c : Char} : isTokenChar c = true ↔ isWord c = true ∨ c = '-' ∨ c = '.' ∨ c = '/' := by
  simp [isTokenChar, or_assoc]

theorem spelled_of_scan {cs rest : List Char} {c : Component} (h : scan cs = some (c, rest)) : c.Spelled := by
  unfold scan at h
  split at h
  · split at h
    · rename_i c cs hstart
      cases h
      simp only [isNameStart, Bool.and_eq_true, Bool.not_eq_true'] at hstart
      exact .dereference String.toList_ofList hstart.1 hstart.2 fun x hx => List.mem_takeWhile_imp hx
    · cases h
  · split at h
    · rename_i c token rest ht hd
      cases h
      refine .index (by simp) fun x hx => isTokenChar_iff.mp ?_
      rw [String.toList_ofList, ← ht] at hx
      exact List.mem_takeWhile_imp hx
    · cases h
  · cases h

/-- A component is read as far as it was written, if no word goes on behind it. -/
theorem scan_of_spelled {c : Component} (h : c.Spelled) {rest : List Char} (hrest : ∀ x ∈ rest.head?, isWord x = false) :
    scan (c.toString.toList ++ rest) = some (c, rest) := by
  cases h with
  | @dereference name c cs hname hword hdigit hcs =>
      have hstart : isNameStart c = true := by simp [isNameStart, hword, hdigit]
      have hstop : rest.takeWhile isWord = [] ∧ rest.dropWhile isWord = rest := by
        cases rest with
        | nil => exact ⟨rfl, rfl⟩
        | cons x rest => simp [hrest x rfl]
      have hwritten : (dereference name).toString.toList ++ rest = '.' :: c :: (cs ++ rest) := by
        simp [toString, hname]
      rw [hwritten, scan, if_pos hstart, List.takeWhile_append_of_pos hcs, List.dropWhile_append_of_pos hcs,
        hstop.1, hstop.2, List.append_nil, ← hname, String.ofList_toList]
  | @index token hne htoken =>
      have hchars : ∀ c ∈ token.toList, isTokenChar c = true := fun c hc => isTokenChar_iff.mpr (htoken c hc)
      obtain ⟨c, cs, hcs⟩ := List.exists_cons_of_ne_nil (l := token.toList) (by simpa using hne)
      have hwritten : (index token).toString.toList ++ rest = '[' :: (token.toList ++ ']' :: rest) := by simp [toString]
      have hbracket : isTokenChar ']' = false := by decide
      have htake : (token.toList ++ ']' :: rest).takeWhile isTokenChar = c :: cs := by
        rw [List.takeWhile_append_of_pos hchars, List.takeWhile_cons_of_neg (by simp [hbracket]), List.append_nil, hcs]
      have hdrop : (token.toList ++ ']' :: rest).dropWhile isTokenChar = ']' :: rest := by
        rw [List.dropWhile_append_of_pos hchars, List.dropWhile_cons_of_neg (by simp [hbracket])]
      rw [hwritten, scan.eq_2, htake, hdrop]
      show some (index (String.ofList (c :: cs)), rest) = _
      rw [← hcs, String.ofList_toList]

/-! ## A sequence of components -/

theorem spelled_of_scanAll {cs : List Char} {components : List Component} (h : scanAll cs = .ok components) :
    ∀ c ∈ components, c.Spelled := by
  fun_induction scanAll cs generalizing components with
  | case1 =>
      cases h
      rintro _ ⟨⟩
  | case2 => cases h
  | case3 cs c rest hscan ih =>
      cases hrest : scanAll rest with
      | error e => rw [hrest] at h; cases h
      | ok others =>
          rw [hrest] at h
          cases h
          exact List.forall_mem_cons.mpr ⟨spelled_of_scan hscan, ih hrest⟩

theorem head_written (c : Component) : c.toString.toList.head? = some '.' ∨ c.toString.toList.head? = some '[' := by
  cases c with
  | dereference name => exact .inl (by simp [toString])
  | index token => exact .inr (by simp [toString])

theorem scanAll_of_spelled {components : List Component} (h : ∀ c ∈ components, c.Spelled) :
    scanAll (components.flatMap (·.toString.toList)) = .ok components := by
  induction components with
  | nil => cbv
  | cons c rest ih =>
      obtain ⟨hc, hrest⟩ := List.forall_mem_cons.mp h
      have hstop : ∀ x ∈ (rest.flatMap (·.toString.toList)).head?, isWord x = false := by
        intro x hx
        cases rest with
        | nil => cases hx
        | cons next others =>
            rw [List.flatMap_cons, List.head?_append] at hx
            rcases next.head_written with hhead | hhead <;> rw [hhead] at hx <;> cases hx <;> decide
      have hscan := scan_of_spelled hc hstop
      rw [List.flatMap_cons, scanAll]
      split
      · rename_i hnone
        rw [hscan] at hnone
        cases hnone
      · rename_i c' rest' hsome
        rw [hscan] at hsome
        cases hsome
        rw [ih hrest]
        rfl

end Component

/-! ## Addresses -/

namespace Ref

/-- All components as they are written, one behind the other. -/
def written (r : Ref) : String := String.join (r.components.map Component.toString)

theorem toList_written (r : Ref) : r.written.toList = r.components.flatMap (·.toString.toList) := by
  simp [written, String.toList_join, List.flatMap_map]

/-- The text spells the reference: it is what the components are written as, or that without the leading dot. -/
structure Spells (s : String) (r : Ref) : Prop where
  ne_nil : r.components ≠ []
  spelled : ∀ c ∈ r.components, c.Spelled
  text : (∃ c ∈ s.toList.head?, c = '.' ∨ c = '[') ∧ s = r.written ∨
    (∃ c ∈ s.toList.head?, isAsciiLetter c = true ∨ c = '_') ∧ "." ++ s = r.written

theorem normalize_eq_some_iff {cs cs' : List Char} : normalize cs = some cs' ↔
    (∃ c ∈ cs.head?, c = '.' ∨ c = '[') ∧ cs' = cs ∨
      (∃ c ∈ cs.head?, isAsciiLetter c = true ∨ c = '_') ∧ cs' = '.' :: cs := by
  cases cs with
  | nil => simp [normalize]
  | cons c rest =>
      have hletter : isAsciiLetter c = true ∨ c = '_' → ¬ (c = '[' ∨ c = '.') := by
        rintro h (rfl | rfl) <;> revert h <;> decide
      simp only [normalize, List.head?_cons, Option.mem_def, Option.some.injEq, exists_eq_left']
      rw [or_comm (a := c = '.'), eq_comm (a := cs'), eq_comm (a := cs')]
      split
      · rename_i hmark
        rw [Option.some_inj]
        constructor
        · exact fun heq => .inl ⟨hmark, heq⟩
        · rintro (⟨-, heq⟩ | ⟨h, -⟩)
          · exact heq
          · exact absurd hmark (hletter h)
      · rename_i hmark
        split
        · rename_i h
          rw [Option.some_inj]
          constructor
          · exact fun heq => .inr ⟨h, heq⟩
          · rintro (⟨hmark', -⟩ | ⟨-, heq⟩)
            · exact absurd hmark' hmark
            · exact heq
        · rename_i h
          refine iff_of_false (Option.some_ne_none _).symm ?_
          rintro (⟨hmark', -⟩ | ⟨h', -⟩)
          · exact hmark hmark'
          · exact h h'

theorem spells_iff {s : String} {r : Ref} : Spells s r ↔
    r.components ≠ [] ∧ (∀ c ∈ r.components, c.Spelled) ∧ normalize s.toList = some r.written.toList := by
  have hdot : ∀ t : String, t.toList = '.' :: s.toList ↔ "." ++ s = t := by
    intro t
    rw [← String.toList_inj, String.toList_append, eq_comm]
    rfl
  rw [normalize_eq_some_iff, String.toList_inj, hdot, eq_comm (a := r.written)]
  exact ⟨fun h => ⟨h.ne_nil, h.spelled, h.text⟩, fun ⟨hne, hspelled, htext⟩ => ⟨hne, hspelled, htext⟩⟩

theorem parse_eq_ok_iff {s : String} {r : Ref} : parse s = .ok r ↔ Spells s r := by
  rw [spells_iff, toList_written]
  constructor
  · intro h
    obtain ⟨hnormal, hscan⟩ := parse_written h
    refine ⟨fun hnil => ?_, Component.spelled_of_scanAll hscan, hnormal⟩
    rw [hnil] at hnormal
    rcases normalize_cases hnormal with hs | hs
    · rw [← hs] at hnormal
      cases hnormal
    · cases hs
  · rintro ⟨-, hspelled, hnormal⟩
    exact parse_of_normalize hnormal (Component.scanAll_of_spelled hspelled)

/-- An address is read as a reference exactly if it spells it. Every text spells one reference, or else none, and then it
is refused as an address. -/
theorem parse_iff_spells (s : String) : (∀ r, parse s = .ok r ↔ Spells s r) ∧
    ((∃! r, Spells s r) ∨ (∀ r, ¬ Spells s r) ∧ ∃ e, parse s = .error e ∧ e.kind = .invalidRef s) := by
  refine ⟨fun r => parse_eq_ok_iff, ?_⟩
  simp only [← parse_eq_ok_iff]
  cases hparse : parse s with
  | ok r => exact .inl ⟨r, rfl, fun r' hr' => (Except.ok.inj hr').symm⟩
  | error e => exact .inr ⟨by rintro _ ⟨⟩, e, rfl, kind_of_parse hparse⟩

end Ref

end TypedTemplate
