import Boardwalk.Number.Numeral
import Boardwalk.Number.Shortest
/-!
# The digits of decimal texts

`Parts.decimal` of a finite number is a numeral: digits, the first of which is no zero unless the number
is zero (`Parts.decimal_isNumeral`). A reader of the text of the number therefore meets all of its digits.
-/

namespace Boardwalk.Number

theorem digitsValue_eq (ds : List Char) : digitsValue ds = Nat.ofDigitChars 10 ds 0 := rfl

theorem digitsValue_append (xs ys : List Char) :
    digitsValue (xs ++ ys) = tenTo ys.length * digitsValue xs + digitsValue ys := by
  rw [digitsValue_eq, Nat.ofDigitChars_append, Nat.ofDigitChars_eq_ofDigitChars_zero]
  rfl

theorem digitsValue_zeros (n : Nat) : digitsValue (List.replicate n '0') = 0 := by
  rw [digitsValue_eq, Nat.ofDigitChars_replicate_zero, Nat.mul_zero]

theorem digitsValue_toDigits (n : Nat) : digitsValue (Nat.toDigits 10 n) = n :=
  Nat.ofDigitChars_ten_toDigits

theorem tenTo_pos (n : Nat) : 0 < tenTo n := Nat.pow_pos (by decide)

theorem twoTo_pos (n : Nat) : 0 < twoTo n := Nat.pow_pos (by decide)

theorem head?_toDigits {n : Nat} (hn : 0 < n) : (Nat.toDigits 10 n).head? ≠ some '0' := by
  induction n using Nat.strongRecOn with
  | ind n ih =>
    rw [Nat.toDigits_eq_if (by decide)]
    split
    · rename_i h
      have : ∀ m, m < 10 → 0 < m → some m.digitChar ≠ some '0' := by decide
      exact this n h hn
    · rename_i h
      have h₀ : 0 < n / 10 := Nat.div_pos (by omega) (by decide)
      obtain ⟨c, cs, hc⟩ := List.exists_cons_of_ne_nil (Nat.toDigits_ne_nil (n := n / 10) (b := 10))
      have hn' := ih (n / 10) (Nat.div_lt_self hn (by decide)) h₀
      rw [hc] at hn' ⊢
      exact hn'

/-- Digits as a number is written with: no zero stands in front, unless it is the only digit. -/
structure IsNumeral (ds : List Char) : Prop where
  ne_nil : ds ≠ []
  digits : ∀ c ∈ ds, c.isDigit = true
  head : ds.head? = some '0' → ds = ['0']

theorem isNumeral_zero : IsNumeral ['0'] :=
  ⟨by simp, by simp, fun _ => rfl⟩

theorem isNumeral_toDigits (n : Nat) : IsNumeral (Nat.toDigits 10 n) := by
  refine ⟨Nat.toDigits_ne_nil, fun c hc => Nat.isDigit_of_mem_toDigits (by decide) (by decide) hc, ?_⟩
  rcases Nat.eq_zero_or_pos n with h | h
  · subst h
    intro _
    exact Nat.toDigits_zero 10
  · intro h₀
    exact absurd h₀ (head?_toDigits h)

theorem hasNumeral_iff {n : Int} :
    hasNumeral n = true ↔ (Nat.toDigits 10 n.natAbs).length ≤ numeralLimit := by
  have hk : 0 < numeralLimit := by decide
  unfold hasNumeral
  generalize numeralLimit = k at hk ⊢
  rw [Nat.length_toDigits_le_iff (by decide) hk]
  exact decide_eq_true_iff

/-! ## The search for the shortest digits starts at the leading one -/

def Reach.reaches (r : Reach) (e : Int) : Prop :=
  if 0 ≤ e then r.den * tenTo e.toNat ≤ r.value else r.den ≤ r.value * tenTo (-e).toNat

theorem Reach.neighbours_pos {r : Reach} {e : Int} (hd : 0 < r.den) (h : r.reaches e) :
    0 < (r.neighbours e).1 := by
  unfold Reach.reaches at h
  unfold Reach.neighbours
  by_cases he : 0 ≤ e
  · simp only [he, if_true] at h ⊢
    exact Nat.div_pos h (Nat.mul_pos hd (tenTo_pos _))
  · simp only [he, if_false] at h ⊢
    exact Nat.div_pos h hd

theorem Reach.reaches_pred {r : Reach} {e : Int} (h : r.reaches e) : r.reaches (e - 1) := by
  unfold Reach.reaches at h ⊢
  by_cases he : 0 ≤ e - 1
  · have h₀ : 0 ≤ e := by omega
    simp only [he, h₀, if_true] at h ⊢
    refine Nat.le_trans (Nat.mul_le_mul_left _ ?_) h
    exact Nat.pow_le_pow_right (by decide) (by omega)
  · simp only [he, if_false]
    by_cases h₀ : 0 ≤ e
    · have : e = 0 := by omega
      subst this
      have hv : r.den ≤ r.value := by simpa [tenTo] using h
      exact Nat.le_trans hv (Nat.le_mul_of_pos_right _ (tenTo_pos _))
    · simp only [h₀, if_false] at h
      refine Nat.le_trans h (Nat.mul_le_mul_left _ ?_)
      exact Nat.pow_le_pow_right (by decide) (by omega)

theorem Reach.reaches_leading {r : Reach} (hd : 0 < r.den) (hv : 0 < r.value) :
    r.reaches r.leading := by
  unfold Reach.leading
  by_cases h : r.den ≤ r.value
  · simp only [h, if_true]
    have hq : 0 < r.value / r.den := Nat.div_pos h hd
    have hl : 0 < (Nat.toDigits 10 (r.value / r.den)).length := Nat.length_toDigits_pos
    -- so many digits make at least the power of ten with one zero less
    have hp : tenTo ((Nat.toDigits 10 (r.value / r.den)).length - 1) ≤ r.value / r.den := by
      rcases Nat.eq_zero_or_pos ((Nat.toDigits 10 (r.value / r.den)).length - 1) with h₀ | h₀
      · rw [h₀]; exact hq
      · apply Nat.le_of_not_lt
        intro hlt
        have := (Nat.length_toDigits_le_iff (by decide) h₀).mpr hlt
        omega
    have he : (0 : Int) ≤ ((Nat.toDigits 10 (r.value / r.den)).length : Int) - 1 := by omega
    unfold Reach.reaches
    simp only [he, if_true]
    rw [show (((Nat.toDigits 10 (r.value / r.den)).length : Int) - 1).toNat =
      (Nat.toDigits 10 (r.value / r.den)).length - 1 by omega]
    calc r.den * tenTo ((Nat.toDigits 10 (r.value / r.den)).length - 1)
        ≤ r.den * (r.value / r.den) := Nat.mul_le_mul_left _ hp
      _ ≤ r.value := Nat.mul_div_le _ _
  · simp only [h, if_false]
    have hl : 0 < (Nat.toDigits 10 (r.den / r.value)).length := Nat.length_toDigits_pos
    generalize hn : (Nat.toDigits 10 (r.den / r.value)).length = l at hl
    by_cases hs : r.den ≤ r.value * tenTo (l - 1)
    · simp only [hs, if_true]
      have hl₁ : l ≠ 1 := by
        intro e
        subst e
        exact h (by simpa [tenTo] using hs)
      unfold Reach.reaches
      rw [if_neg (by omega), show (-(-((l : Int) - 1))).toNat = l - 1 by omega]
      exact hs
    · simp only [hs, if_false]
      unfold Reach.reaches
      rw [if_neg (by omega), show (-(-(l : Int))).toNat = l by omega]
      have hq : r.den / r.value < 10 ^ l := (Nat.length_toDigits_le_iff (by decide) hl).mp (by omega)
      have := Nat.lt_mul_of_div_lt hq hv
      rw [Nat.mul_comm] at this
      exact Nat.le_of_lt this

theorem Reach.search_pos {r : Reach} (hd : 0 < r.den) :
    ∀ (tries : Nat) {e : Int}, r.reaches e → 0 < (r.search tries e).1
  | 0, e, h => Reach.neighbours_pos hd h
  | tries + 1, e, h => by
    have hn := Reach.neighbours_pos hd h
    have hn' : 0 < (r.neighbours e).2.1 := Nat.succ_pos _
    simp only [Reach.search]
    split
    · split
      · exact hn'
      · exact hn
    · exact hn
    · exact hn'
    · exact Reach.search_pos hd tries (Reach.reaches_pred h)

theorem Parts.reach_value_pos {p : Parts} (h : p.digits ≠ 0) : 0 < p.reach.value := by
  unfold Parts.reach
  apply Nat.mul_pos (Nat.mul_pos (by decide) (Nat.pos_of_ne_zero h))
  split
  · exact twoTo_pos _
  · decide

theorem Parts.reach_den_pos (p : Parts) : 0 < p.reach.den := by
  unfold Parts.reach
  apply Nat.mul_pos (by decide)
  split
  · decide
  · exact twoTo_pos _

theorem Parts.shortest_pos {p : Parts} (h : p.digits ≠ 0) : 0 < p.shortest.1 :=
  Reach.search_pos p.reach_den_pos _ (Reach.reaches_leading p.reach_den_pos (p.reach_value_pos h))

/-! ## The digits without zeros at the end -/

theorem dropZeros_cons {c : Char} (hc : c ≠ '0') (cs : List Char) :
    ∃ ys, ((c :: cs).reverse.dropWhile (· = '0')).reverse = c :: ys := by
  rw [List.reverse_cons, List.dropWhile_append]
  split
  · exact ⟨[], by simp [hc]⟩
  · exact ⟨_, by simp; rfl⟩

theorem isNumeral_dropZeros {ds : List Char} (h : IsNumeral ds) (h₀ : ds.head? ≠ some '0') :
    IsNumeral (ds.reverse.dropWhile (· = '0')).reverse ∧
      (ds.reverse.dropWhile (· = '0')).reverse ≠ ['0'] := by
  obtain ⟨c, cs, rfl⟩ := List.exists_cons_of_ne_nil h.ne_nil
  have hc : c ≠ '0' := by
    intro e
    subst e
    exact h₀ rfl
  obtain ⟨ys, hys⟩ := dropZeros_cons hc cs
  refine ⟨⟨?_, ?_, ?_⟩, ?_⟩
  · rw [hys]
    exact List.cons_ne_nil _ _
  · intro x hx
    have hx' := (List.dropWhile_sublist _).mem (List.mem_reverse.mp hx)
    exact h.digits x (List.mem_reverse.mp hx')
  · rw [hys, List.head?_cons]
    intro e
    exact absurd (Option.some.inj e) hc
  · rw [hys]
    intro e
    exact hc (List.head_eq_of_cons_eq e)

/-- **The digits of a finite number are a numeral.** -/
theorem Parts.decimal_isNumeral (p : Parts) : IsNumeral p.decimal.1 := by
  unfold Parts.decimal
  by_cases h : p.digits = 0
  · simp only [h, if_true]
    exact isNumeral_zero
  · simp only [h, if_false]
    exact (isNumeral_dropZeros (isNumeral_toDigits _) (head?_toDigits (p.shortest_pos h))).1

theorem Parts.decimal_zero {p : Parts} (h : p.decimal.1 = ['0']) : p.decimal.2 = 0 := by
  unfold Parts.decimal at h ⊢
  by_cases hp : p.digits = 0
  · simp only [hp, if_true]
  · simp only [hp, if_false] at h
    have hd := isNumeral_dropZeros (isNumeral_toDigits _) (head?_toDigits (p.shortest_pos hp))
    exact absurd h hd.2

/-- The number that the decimal text of a finite number reads back as. A whole number is written with a
zero after the point. -/
def Parts.reread (p : Parts) : Float :=
  let ds := p.decimal.1
  let e := p.decimal.2
  if 0 ≤ e ∧ e < 16 ∧ ds.length ≤ e + 1 then
    ofDecimal p.negative (digitsValue ds * tenTo (e.toNat + 2 - ds.length)) (-1)
  else ofDecimal p.negative (digitsValue ds) (e + 1 - ds.length)

end Boardwalk.Number
