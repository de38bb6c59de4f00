import Mathlib.Data.Nat.Digits.Lemmas
import Boardwalk.Proofs.Number.Decimal
import Boardwalk.Text.Blank
import Boardwalk.Text.Digit
/-!
# Numerals of any script

A text of decimal digits, whatever scripts they are taken from, is read as the number that they stand for in base ten,
unless there are too many of them (`readNumeral_ok_iff`). Digit signs that are no decimal digits are not read at all. The
digits that a number is written with stand for that number (`decimalValue_toDigits`).
-/

namespace Boardwalk.Text

def isDecimal (cs : List Char) : Bool := !cs.isEmpty && cs.all fun c => (digitValue? c).isSome

/-- The number that decimal digits stand for, the first one counting most. -/
def decimalValue (cs : List Char) : Nat := Nat.ofDigits 10 (cs.map fun c => (digitValue? c).getD 0).reverse

theorem isDecimal_iff {cs : List Char} :
    isDecimal cs = true ↔ cs ≠ [] ∧ ∀ c ∈ cs, (digitValue? c).isSome = true := by
  simp [isDecimal]

theorem allDigitSigns_of_isDecimal {cs : List Char} (h : isDecimal cs = true) : allDigitSigns cs = true := by
  obtain ⟨hne, hall⟩ := isDecimal_iff.mp h
  simp only [allDigitSigns, Bool.and_eq_true, Bool.not_eq_true', List.isEmpty_eq_false_iff, List.all_eq_true]
  refine ⟨hne, fun c hc => ?_⟩
  simp [isDigitSign, hall c hc]

theorem digitValue?_lt {c : Char} {d : Nat} (h : digitValue? c = some d) : d < 10 := by
  obtain ⟨z, hz, rfl⟩ := Option.map_eq_some_iff.mp h
  have hmem := List.find?_some hz
  simp only [Bool.and_eq_true, decide_eq_true_eq] at hmem
  omega

theorem decimalValue_lt (cs : List Char) : decimalValue cs < 10 ^ cs.length := by
  have hlt : ∀ d ∈ (cs.map fun c => (digitValue? c).getD 0).reverse, d < 10 := by
    intro d hd
    obtain ⟨c, -, rfl⟩ := List.mem_map.mp (List.mem_reverse.mp hd)
    cases h : digitValue? c with
    | none => simp
    | some d => simpa using digitValue?_lt h
  have := Nat.ofDigits_lt_base_pow_length (by decide) hlt
  rwa [List.length_reverse, List.length_map] at this

theorem decimalValue_eq_foldl (cs : List Char) :
    decimalValue cs = (cs.map digitValue?).foldl (fun n v => 10 * n + v.getD 0) 0 := by
  unfold decimalValue
  rw [Nat.ofDigits_eq_foldr, List.foldr_reverse, List.foldl_map, List.foldl_map]
  simp only [Nat.cast_id, Nat.add_comm]

theorem takeWhile_digits_eq {cs : List Char} :
    ((cs.map digitValue?).takeWhile Option.isSome).length = cs.length ↔ ∀ c ∈ cs, (digitValue? c).isSome = true := by
  induction cs with
  | nil => simp
  | cons c cs ih =>
    rw [List.map_cons, List.forall_mem_cons]
    by_cases h : (digitValue? c).isSome = true
    · rw [List.takeWhile_cons_of_pos h, List.length_cons, List.length_cons, Nat.succ_inj, ih]
      simp [h]
    · rw [List.takeWhile_cons_of_neg h]
      simp [h]

/-- **What is read as a numeral, and as which number.** -/
theorem readNumeral_ok_iff {cs : List Char} {n : Nat} :
    readNumeral cs = .ok n ↔ isDecimal cs = true ∧ cs.length ≤ Number.numeralLimit ∧ n = decimalValue cs := by
  have hle : ((cs.map digitValue?).takeWhile Option.isSome).length ≤ cs.length := by
    simpa using (List.takeWhile_prefix Option.isSome (l := cs.map digitValue?)).length_le
  rw [isDecimal_iff, ← takeWhile_digits_eq]
  unfold readNumeral
  generalize Number.numeralLimit = limit
  dsimp only
  by_cases hall : ((cs.map digitValue?).takeWhile Option.isSome).length = cs.length
  · have htake : (cs.map digitValue?).takeWhile Option.isSome = cs.map digitValue? :=
      (List.takeWhile_prefix _).eq_of_length (by simpa using hall)
    rw [htake, decimalValue_eq_foldl]
    by_cases hlimit : limit < cs.length
    · simp [hlimit]
    · by_cases hne : cs = []
      · simp [hne]
      · simp [hlimit, hne, Nat.le_of_not_lt hlimit]
        exact eq_comm
  · have hlt : ((cs.map digitValue?).takeWhile Option.isSome).length < cs.length := by omega
    by_cases hlimit : limit < ((cs.map digitValue?).takeWhile Option.isSome).length
    · simp [hlimit, hall]
    · simp [hlimit, hall, hlt]

/-! ## The digits that a number is written with -/

theorem toNat_of_isDigit {c : Char} (h : c.isDigit = true) : 48 ≤ c.toNat ∧ c.toNat ≤ 57 := by
  simpa [Char.isDigit, UInt32.le_iff_toNat_le] using h

theorem digitValue?_of_isDigit {c : Char} (h : c.isDigit = true) : digitValue? c = some (c.toNat - 48) := by
  obtain ⟨hlow, hhigh⟩ := toNat_of_isDigit h
  unfold digitValue? zeros
  rw [List.find?_cons_of_pos (by simp; omega), Option.map_some]

theorem isDecimal_toDigits (n : Nat) : isDecimal (Nat.toDigits 10 n) = true := by
  have hnumeral := Number.isNumeral_toDigits n
  refine isDecimal_iff.mpr ⟨hnumeral.ne_nil, fun c hc => ?_⟩
  rw [digitValue?_of_isDigit (hnumeral.digits c hc)]
  rfl

theorem decimalValue_toDigits (n : Nat) : decimalValue (Nat.toDigits 10 n) = n := by
  have hvalues : (Nat.toDigits 10 n).map digitValue? = (Nat.toDigits 10 n).map fun c => some (c.toNat - 48) :=
    List.map_congr_left fun c hc => digitValue?_of_isDigit ((Number.isNumeral_toDigits n).digits c hc)
  rw [decimalValue_eq_foldl, hvalues, List.foldl_map]
  exact Number.digitsValue_toDigits n

theorem not_isBlank_of_isDigit {c : Char} (h : c.isDigit = true) : isBlank c = false := by
  obtain ⟨hlow, hhigh⟩ := toNat_of_isDigit h
  simp only [isBlank, isSpace, Bool.or_eq_false_iff, Bool.and_eq_false_iff, decide_eq_false_iff_not, beq_eq_false_iff_ne]
  omega

end Boardwalk.Text
