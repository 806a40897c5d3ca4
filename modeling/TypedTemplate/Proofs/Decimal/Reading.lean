import Mathlib.Data.List.Basic
import TypedTemplate.Ty.Coerce

/-!
# Integers and their texts

The text of an integer consists of decimal digits, perhaps behind a minus sign, without blanks; the integer is read
back from it.
-/

namespace TypedTemplate

namespace Text

theorem isAsciiDigit_iff {c : Char} : isAsciiDigit c = true ↔ 48 ≤ c.toNat ∧ c.toNat ≤ 57 := by
  rw [isAsciiDigit, Bool.and_eq_true, decide_eq_true_eq, decide_eq_true_eq]
  exact Iff.rfl

theorem not_isBlank_of_isAsciiDigit {c : Char} (h : isAsciiDigit c = true) : isBlank c = false := by
  rw [isAsciiDigit_iff] at h
  simp only [isBlank, Bool.or_eq_false_iff, Bool.and_eq_false_iff, beq_eq_false_iff_ne, decide_eq_false_iff_not]
  omega

theorem trimBlank_of_forall {cs : List Char} (h : ∀ c ∈ cs, isBlank c = false) : trimBlank cs = cs := by
  have hdrop : ∀ {cs : List Char}, (∀ c ∈ cs, isBlank c = false) → cs.dropWhile isBlank = cs := by
    intro cs h
    cases cs with
    | nil => rfl
    | cons c rest => exact List.dropWhile_cons_of_neg (by simp [h c (by simp)])
  rw [trimBlank, dropEndWhile, hdrop h, hdrop fun c hc => h c (List.mem_reverse.mp hc), List.reverse_reverse]

end Text

namespace Decimal

open Text

theorem isAsciiDigit_of_mem_toDigits {n : Nat} {c : Char} (h : c ∈ Nat.toDigits 10 n) : isAsciiDigit c = true := by
  have hdigit := Nat.isDigit_of_mem_toDigits (by decide) (by decide) h
  rw [Char.isDigit, Bool.and_eq_true, decide_eq_true_eq, decide_eq_true_eq] at hdigit
  exact isAsciiDigit_iff.mpr hdigit

theorem natural?_toDigits (n : Nat) : natural? (Nat.toDigits 10 n) = some n := by
  have hall : (Nat.toDigits 10 n).all isAsciiDigit = true :=
    List.all_eq_true.mpr fun c hc => isAsciiDigit_of_mem_toDigits hc
  have hvalue : natOfDigits (Nat.toDigits 10 n) = n := Nat.ofDigitChars_ten_toDigits
  rw [natural?, hall, hvalue]
  simp [Nat.toDigits_ne_nil]

theorem sign_of_isAsciiDigit {cs : List Char} (h : ∀ c ∈ cs, isAsciiDigit c = true) : sign cs = (false, cs) := by
  unfold sign
  split
  · exact absurd (h '-' (by simp)) (by decide)
  · exact absurd (h '+' (by simp)) (by decide)
  · rfl

theorem toList_repr (i : Int) :
    i.repr.toList = if 0 ≤ i then Nat.toDigits 10 i.toNat else '-' :: Nat.toDigits 10 (-i).toNat := by
  rw [Int.repr_eq_if]
  split
  · rw [Nat.repr_eq_ofList_toDigits, String.toList_ofList]
  · rw [String.toList_append, Nat.repr_eq_ofList_toDigits, String.toList_ofList (l := Nat.toDigits 10 _)]
    rfl

/-- An integer is read back from its decimal digits. -/
theorem integer?_repr (i : Int) : integer? i.repr.toList = some i := by
  rw [toList_repr]
  split
  · rename_i hi
    have hnat : (i.toNat : Int) = i := Int.toNat_of_nonneg hi
    rw [integer?, sign_of_isAsciiDigit fun c hc => isAsciiDigit_of_mem_toDigits hc]
    simp only [natural?_toDigits, Option.bind_eq_bind, Option.bind_some, Option.pure_def, Option.map_some,
      Bool.false_eq_true, if_false, hnat]
  · rename_i hi
    have hneg : ((-i).toNat : Int) = -i := Int.toNat_of_nonneg (by omega)
    simp [integer?, sign, natural?_toDigits, hneg]

theorem not_isBlank_of_mem_repr {i : Int} {c : Char} (h : c ∈ i.repr.toList) : isBlank c = false := by
  rw [toList_repr] at h
  split at h
  · exact not_isBlank_of_isAsciiDigit (isAsciiDigit_of_mem_toDigits h)
  · rcases List.mem_cons.mp h with rfl | h
    · decide
    · exact not_isBlank_of_isAsciiDigit (isAsciiDigit_of_mem_toDigits h)

/-- An integer of 64 bits is read back from its text. -/
theorem int64?_integerText (i : Int64) : int64? (trimBlank (Scalar.integerText i).toList) = some i := by
  have hfits : fitsInt64 i.toInt = true := by
    rw [fitsInt64, Bool.and_eq_true, decide_eq_true_eq, decide_eq_true_eq]
    exact ⟨i.le_toInt, i.toInt_lt⟩
  rw [Scalar.integerText, trimBlank_of_forall fun c hc => not_isBlank_of_mem_repr hc, int64?, integer?_repr,
    Option.bind_some, if_pos hfits, Int64.ofInt_toInt]

end Decimal

end TypedTemplate
