import Boardwalk.Json.Parser
import Boardwalk.Json.Printer
import Boardwalk.Proofs.Number.Decimal
/-!
# Reading back strings and numbers

The reader undoes what the printer does to a string, and takes a numeral off the front of a text as soon as
something follows that cannot belong to a number (`Stops`). A finite number is read as the decimal number that
its text shows (`Number.Parts.reread`).
-/

namespace Boardwalk.Json

/-! ## Digits -/

theorem digit?_isSome (c : Char) : (digit? c).isSome = c.isDigit := by
  have h : ('0' ≤ c && c ≤ '9') = c.isDigit := rfl
  unfold digit?
  rw [h]
  cases c.isDigit with
  | true => rfl
  | false => rfl

def NoDigit (rest : List Char) : Prop := ∀ c ∈ rest.head?, c.isDigit = false

def Stops (rest : List Char) : Prop :=
  ∀ c ∈ rest.head?, c.isDigit = false ∧ c ≠ '.' ∧ c ≠ 'e' ∧ c ≠ 'E'

theorem Stops.noDigit {rest : List Char} (h : Stops rest) : NoDigit rest := fun c hc => (h c hc).1

theorem noDigit_cons {c : Char} {rest : List Char} (h : c.isDigit = false) : NoDigit (c :: rest) := by
  intro c' hc'
  cases Option.mem_some.mp hc'
  exact h

theorem spanDigits_append {ds rest : List Char} (hd : ∀ c ∈ ds, c.isDigit = true) (hr : NoDigit rest) :
    spanDigits (ds ++ rest) = (ds, rest) := by
  induction ds with
  | nil =>
    cases rest with
    | nil => rfl
    | cons c cs => simp only [List.nil_append, spanDigits, digit?_isSome, hr c rfl, Bool.false_eq_true, if_false]
  | cons c ds ih =>
    have hc := hd c List.mem_cons_self
    have ht := ih fun x hx => hd x (List.mem_cons_of_mem _ hx)
    simp only [List.cons_append, spanDigits, digit?_isSome, hc, if_true, ht]

theorem ofDigits_eq (ds : List Char) : ofDigits ds = Number.digitsValue ds := rfl

theorem ofDigits_zero_cons (ds : List Char) : ofDigits ('0' :: ds) = ofDigits ds := rfl

/-! ## The parts of a number -/

theorem readWhole_append {ds rest : List Char} (h : Number.IsNumeral ds) (hr : NoDigit rest) :
    readWhole (ds ++ rest) = some (ds, rest) := by
  obtain ⟨c, cs, rfl⟩ := List.exists_cons_of_ne_nil h.ne_nil
  by_cases hc : c = '0'
  · subst hc
    have : cs = [] := by simpa using h.head rfl
    subst this
    rfl
  · have hs := spanDigits_append h.digits hr
    unfold readWhole
    split
    · rename_i heq
      exact absurd (List.head_eq_of_cons_eq heq) hc
    · rw [hs]

theorem readFraction_none {rest : List Char} (h : rest.head? ≠ some '.') : readFraction rest = ([], rest) := by
  unfold readFraction
  split
  · exact absurd rfl h
  · rfl

theorem readFraction_digits {ds rest : List Char} (hn : ds ≠ []) (hd : ∀ c ∈ ds, c.isDigit = true)
    (hr : NoDigit rest) : readFraction ('.' :: (ds ++ rest)) = (ds, rest) := by
  unfold readFraction
  simp only [spanDigits_append hd hr]
  split
  · rename_i heq
    exact absurd (congrArg Prod.fst heq) hn
  · rfl

theorem readExponent_none {rest : List Char} (h : ∀ c ∈ rest.head?, c ≠ 'e' ∧ c ≠ 'E') :
    readExponent rest = (none, rest) := by
  cases rest with
  | nil => rfl
  | cons c cs =>
    obtain ⟨h₁, h₂⟩ := h c rfl
    simp only [readExponent, h₁, h₂, decide_false, Bool.or_self, Bool.false_eq_true, if_false]

def exponentDigits (e : Int) : List Char :=
  let ds := Nat.toDigits 10 e.natAbs
  if ds.length < 2 then '0' :: ds else ds

theorem exponentText_eq (e : Int) :
    Number.exponentText e = 'e' :: (if e < 0 then '-' else '+') :: exponentDigits e := rfl

theorem exponentDigits_digits (e : Int) : ∀ c ∈ exponentDigits e, c.isDigit = true := by
  have h := (Number.isNumeral_toDigits e.natAbs).digits
  unfold exponentDigits
  intro c hc
  dsimp only at hc
  split at hc
  · rcases List.mem_cons.mp hc with rfl | hc
    · rfl
    · exact h c hc
  · exact h c hc

theorem exponentDigits_ne_nil (e : Int) : exponentDigits e ≠ [] := by
  unfold exponentDigits
  dsimp only
  split
  · exact List.cons_ne_nil _ _
  · exact Nat.toDigits_ne_nil

theorem ofDigits_exponentDigits (e : Int) : ofDigits (exponentDigits e) = e.natAbs := by
  unfold exponentDigits
  dsimp only
  split
  · rw [ofDigits_zero_cons]
    exact Number.digitsValue_toDigits _
  · exact Number.digitsValue_toDigits _

theorem readExponent_text (e : Int) {rest : List Char} (hr : NoDigit rest) :
    readExponent (Number.exponentText e ++ rest) = (some e, rest) := by
  have hs := spanDigits_append (exponentDigits_digits e) hr
  have hn := exponentDigits_ne_nil e
  have hv := ofDigits_exponentDigits e
  obtain ⟨d, ds, hd⟩ := List.exists_cons_of_ne_nil hn
  rw [hd] at hs hv
  rw [exponentText_eq, hd]
  simp only [List.cons_append] at hs ⊢
  by_cases he : e < 0
  · rw [if_pos he]
    have : -1 * (e.natAbs : Int) = e := by omega
    simp only [readExponent, decide_true, Bool.true_or, if_true, hs, hv, this]
  · rw [if_neg he]
    have : 1 * (e.natAbs : Int) = e := by omega
    simp only [readExponent, decide_true, Bool.true_or, if_true, hs, hv, this]

/-! ## Numbers -/

theorem readNumber_int {ds rest : List Char} (negative : Bool) (h : Number.IsNumeral ds)
    (hl : ds.length ≤ Number.numeralLimit) (hr : Stops rest) :
    readNumber negative (ds ++ rest) =
      .ok (.int (if negative then -(Number.digitsValue ds : Int) else Number.digitsValue ds), rest) := by
  have hw := readWhole_append h hr.noDigit
  have hf : readFraction rest = ([], rest) := readFraction_none fun e => (hr '.' e).2.1 rfl
  have he : readExponent rest = (none, rest) := readExponent_none fun c hc => (hr c hc).2.2
  have hl' : ¬ Number.numeralLimit < ds.length := by omega
  unfold readNumber
  rw [hw]
  simp only [wellFormed, hf, he, List.isEmpty_nil, Option.isNone_none, Bool.and_self, if_true, hl', if_false,
    ofDigits_eq, bind, Except.bind]

theorem readNumber_float {negative : Bool} {cs w fr r₁ r₂ rest : List Char} {ex : Option Int}
    (hw : readWhole cs = some (w, r₁)) (hf : readFraction r₁ = (fr, r₂)) (he : readExponent r₂ = (ex, rest))
    (hx : fr ≠ [] ∨ ex ≠ none) :
    readNumber negative cs =
      .ok (.float (Number.ofDecimal negative (ofDigits (w ++ fr)) (ex.getD 0 - fr.length)), rest) := by
  have hb : ¬ ((fr.isEmpty && ex.isNone) = true) := by
    intro h
    rw [Bool.and_eq_true, List.isEmpty_iff, Option.isNone_iff_eq_none] at h
    rcases hx with hx | hx
    · exact hx h.1
    · exact hx h.2
  unfold readNumber
  rw [hw]
  simp only [wellFormed, hf, he, hb, if_false, bind, Except.bind, Bool.false_eq_true]

/-! ## The four layouts of a decimal number -/

section

variable {ds rest : List Char} {e : Int} (negative : Bool) (h : Number.IsNumeral ds) (hr : Stops rest)
include h hr

theorem readNumber_exponent (he : e < -4 ∨ 16 ≤ e) :
    readNumber negative (Number.layOut ds e ++ rest) =
      .ok (.float (Number.ofDecimal negative (Number.digitsValue ds) (e + 1 - ds.length)), rest) := by
  obtain ⟨d, cs, rfl⟩ := List.exists_cons_of_ne_nil h.ne_nil
  have hd : d.isDigit = true := h.digits d List.mem_cons_self
  have hcs : ∀ c ∈ cs, c.isDigit = true := fun c hc => h.digits c (List.mem_cons_of_mem _ hc)
  have hd₁ : Number.IsNumeral [d] := ⟨List.cons_ne_nil _ _, by simpa using hd, by simp⟩
  have hone : ∀ r : List Char, NoDigit r → readWhole (d :: r) = some ([d], r) := fun r hn =>
    readWhole_append hd₁ hn
  have hx := readExponent_text e hr.noDigit
  have hb : (decide (e < -4) || decide (16 ≤ e)) = true := by simpa using he
  unfold Number.layOut
  rw [if_pos hb]
  rw [exponentText_eq] at hx ⊢
  generalize hs : (if e < 0 then '-' else '+') :: exponentDigits e = s at hx ⊢
  have hsign : NoDigit ('e' :: (s ++ rest)) := noDigit_cons rfl
  cases cs with
  | nil =>
    have hw := hone _ hsign
    have hf : readFraction ('e' :: (s ++ rest)) = ([], 'e' :: (s ++ rest)) := readFraction_none (by simp)
    simp only [List.cons_append, List.nil_append] at hx ⊢
    rw [readNumber_float hw hf hx (.inr (by simp))]
    simp [ofDigits_eq]
  | cons c cs =>
    have hw := hone ('.' :: (c :: cs ++ 'e' :: (s ++ rest))) (noDigit_cons rfl)
    have hf := readFraction_digits (List.cons_ne_nil c cs) hcs hsign
    simp only [List.cons_append, List.append_assoc] at hw hf hx ⊢
    rw [readNumber_float hw hf hx (.inl (List.cons_ne_nil _ _))]
    simp only [ofDigits_eq, List.cons_append, List.nil_append, Option.getD_some, List.length_cons]
    congr 4
    omega

theorem readNumber_below (hl : -4 ≤ e) (he : e < 0) :
    readNumber negative (Number.layOut ds e ++ rest) =
      .ok (.float (Number.ofDecimal negative (Number.digitsValue ds) (e + 1 - ds.length)), rest) := by
  have hnone : readExponent rest = (none, rest) := readExponent_none fun c hc => (hr c hc).2.2
  have hb : ¬ (decide (e < -4) || decide (16 ≤ e)) = true := by
    rw [Bool.or_eq_true, decide_eq_true_eq, decide_eq_true_eq]
    omega
  unfold Number.layOut
  rw [if_neg hb, if_pos he]
  generalize hz : List.replicate (-e - 1).toNat '0' = zs
  have hds : ∀ c ∈ zs ++ ds, c.isDigit = true := by
    intro c hc
    rcases List.mem_append.mp hc with hc | hc
    · rw [← hz] at hc
      rw [List.eq_of_mem_replicate hc]
      rfl
    · exact h.digits c hc
  have hne : zs ++ ds ≠ [] := List.append_ne_nil_of_right_ne_nil _ h.ne_nil
  have hw : readWhole ('0' :: '.' :: (zs ++ ds ++ rest)) = some (['0'], '.' :: (zs ++ ds ++ rest)) := rfl
  have hf := readFraction_digits hne hds hr.noDigit
  have hv : ofDigits ('0' :: (zs ++ ds)) = Number.digitsValue ds := by
    rw [ofDigits_zero_cons, ofDigits_eq, Number.digitsValue_append, ← hz, Number.digitsValue_zeros,
      Nat.mul_zero, Nat.zero_add]
  simp only [List.cons_append]
  rw [readNumber_float hw hf hnone (.inl hne), List.singleton_append, hv, ← hz]
  simp only [Option.getD_none, List.length_append, List.length_replicate]
  congr 4
  omega

theorem readNumber_wholeDigits (he : 0 ≤ e) (hl : e < 16) (h₀ : ds = ['0'] → e = 0)
    (hn : (ds.length : Int) ≤ e + 1) :
    readNumber negative (Number.layOut ds e ++ rest) =
      .ok (.float (Number.ofDecimal negative
        (Number.digitsValue ds * Number.tenTo (e.toNat + 2 - ds.length)) (-1)), rest) := by
  have hnone : readExponent rest = (none, rest) := readExponent_none fun c hc => (hr c hc).2.2
  have hb : ¬ (decide (e < -4) || decide (16 ≤ e)) = true := by
    rw [Bool.or_eq_true, decide_eq_true_eq, decide_eq_true_eq]
    omega
  unfold Number.layOut
  rw [if_neg hb, if_neg (by omega)]
  dsimp only
  rw [if_pos (by omega)]
  generalize hk : e.toNat + 1 - ds.length = k
  have hwn : Number.IsNumeral (ds ++ List.replicate k '0') := by
    refine ⟨List.append_ne_nil_of_left_ne_nil h.ne_nil _, ?_, ?_⟩
    · intro c hc
      rcases List.mem_append.mp hc with hc | hc
      · exact h.digits c hc
      · rw [List.eq_of_mem_replicate hc]
        rfl
    · intro hh
      obtain ⟨d, cs, hds⟩ := List.exists_cons_of_ne_nil h.ne_nil
      have hz : ds = ['0'] := h.head (by rw [hds] at hh ⊢; exact hh)
      rw [← hk, h₀ hz, hz]
      rfl
  have hw : readWhole (ds ++ List.replicate k '0' ++ '.' :: '0' :: rest) = some (_, '.' :: '0' :: rest) :=
    readWhole_append hwn (noDigit_cons rfl)
  have hf : readFraction ('.' :: (['0'] ++ rest)) = (['0'], rest) :=
    readFraction_digits (by simp) (by simp) hr.noDigit
  have hv : ofDigits (ds ++ List.replicate k '0' ++ ['0']) =
      Number.digitsValue ds * Number.tenTo (e.toNat + 2 - ds.length) := by
    rw [List.append_assoc, ← List.replicate_succ', ofDigits_eq, Number.digitsValue_append,
      Number.digitsValue_zeros, List.length_replicate, Nat.mul_comm, Nat.add_zero]
    congr 2
    omega
  simp only [List.append_assoc, List.cons_append, List.nil_append] at hw hf hv ⊢
  rw [readNumber_float hw hf hnone (.inl (by simp)), List.append_assoc, hv]
  rfl

theorem readNumber_point (he : 0 ≤ e) (hl : e < 16) (hn : e + 1 < (ds.length : Int)) :
    readNumber negative (Number.layOut ds e ++ rest) =
      .ok (.float (Number.ofDecimal negative (Number.digitsValue ds) (e + 1 - ds.length)), rest) := by
  have hnone : readExponent rest = (none, rest) := readExponent_none fun c hc => (hr c hc).2.2
  have hb : ¬ (decide (e < -4) || decide (16 ≤ e)) = true := by
    rw [Bool.or_eq_true, decide_eq_true_eq, decide_eq_true_eq]
    omega
  unfold Number.layOut
  rw [if_neg hb, if_neg (by omega)]
  dsimp only
  rw [if_neg (by omega)]
  have hwn : Number.IsNumeral (ds.take (e.toNat + 1)) := by
    obtain ⟨d, cs, hds⟩ := List.exists_cons_of_ne_nil h.ne_nil
    refine ⟨by rw [hds]; exact List.cons_ne_nil _ _, fun c hc => h.digits c (List.mem_of_mem_take hc), ?_⟩
    intro hh
    have hz : ds = ['0'] := h.head (by rw [hds] at hh ⊢; exact hh)
    rw [hz, List.length_singleton] at hn
    omega
  have hne : ds.drop (e.toNat + 1) ≠ [] := by
    intro hd
    have := List.drop_eq_nil_iff.mp hd
    omega
  have hw : readWhole (ds.take (e.toNat + 1) ++ '.' :: (ds.drop (e.toNat + 1) ++ rest)) =
      some (_, '.' :: (ds.drop (e.toNat + 1) ++ rest)) := readWhole_append hwn (noDigit_cons rfl)
  have hf := readFraction_digits hne (fun c hc => h.digits c (List.mem_of_mem_drop hc)) hr.noDigit
  rw [List.append_assoc, List.cons_append, readNumber_float hw hf hnone (.inl hne), List.take_append_drop,
    ofDigits_eq, List.length_drop, Option.getD_none]
  congr 4
  omega

end

theorem readNumber_decimal (p : Number.Parts) {rest : List Char} (hr : Stops rest) :
    readNumber p.negative (Number.layOut p.decimal.1 p.decimal.2 ++ rest) = .ok (.float p.reread, rest) := by
  have h := p.decimal_isNumeral
  unfold Number.Parts.reread
  dsimp only
  by_cases hx : p.decimal.2 < -4 ∨ 16 ≤ p.decimal.2
  · rw [if_neg (by omega)]
    exact readNumber_exponent p.negative h hr hx
  · by_cases hn : p.decimal.2 < 0
    · rw [if_neg (by omega)]
      exact readNumber_below p.negative h hr (by omega) hn
    · by_cases hl : (p.decimal.1.length : Int) ≤ p.decimal.2 + 1
      · rw [if_pos ⟨by omega, by omega, hl⟩]
        exact readNumber_wholeDigits p.negative h hr (by omega) (by omega) p.decimal_zero hl
      · rw [if_neg (by omega)]
        exact readNumber_point p.negative h hr (by omega) (by omega) (by omega)

/-! ## Strings -/

/-- Text in which an escape by number, if one is at the front, is complete and no half of a pair. -/
def WholeEscape (cs : List Char) : Prop :=
  ∀ a b c d r, cs = '\\' :: 'u' :: a :: b :: c :: d :: r → ∃ n, hex4? a b c d = some n ∧ n < 0xd800

theorem hex4?_control : ∀ n < 32, ∃ a b c d, Text.hexDigits 4 n = [a, b, c, d] ∧ hex4? a b c d = some n :=
  fun n hn => ⟨Text.hexDigit (n / 16 / 16 / 16 % 16), Text.hexDigit (n / 16 / 16 % 16),
    Text.hexDigit (n / 16 % 16), Text.hexDigit (n % 16), rfl, by revert n; decide⟩

theorem ofUnit_toNat {c : Char} (h : c.toNat < 0xd800) : ofUnit c.toNat = c := by
  have hl : ¬ 0xd800 ≤ c.toNat := by omega
  simp only [ofUnit, hl, decide_false, Bool.false_and, Bool.false_eq_true, if_false, Char.ofNat_toNat]

theorem readString_plain {c : Char} {rest : List Char} (h₁ : c ≠ '"') (h₂ : c ≠ '\\') (h₃ : ¬ c.toNat < 32) :
    readString (c :: rest) = (readString rest).map fun r => (c :: r.1, r.2) := by
  rw [readString.eq_def]
  split
  · contradiction
  · rename_i heq
    exact absurd (List.head_eq_of_cons_eq heq) h₁
  · rename_i heq
    exact absurd (List.head_eq_of_cons_eq heq) h₂
  · rename_i heq
    exact absurd (List.head_eq_of_cons_eq heq) h₂
  · rename_i heq
    exact absurd (List.head_eq_of_cons_eq heq) h₂
  · rename_i heq
    cases heq
    have : ¬ ((decide (c = '\\') || decide (c.toNat < 32)) = true) := by simp [h₂, h₃]
    rw [if_neg this]
    cases readString rest <;> rfl

theorem readString_escaped {e c : Char} {rest : List Char} (hu : e ≠ 'u') (h : escaped? e = some c) :
    readString ('\\' :: e :: rest) = (readString rest).map fun r => (c :: r.1, r.2) := by
  rw [readString.eq_def]
  split
  · contradiction
  · rename_i heq
    exact absurd (List.head_eq_of_cons_eq heq) (by decide)
  · rename_i heq
    exact absurd (List.head_eq_of_cons_eq (List.tail_eq_of_cons_eq heq)) hu
  · rename_i heq
    exact absurd (List.head_eq_of_cons_eq (List.tail_eq_of_cons_eq heq)) hu
  · rename_i heq
    cases heq
    rw [h]
    cases readString rest <;> rfl
  · rename_i hn heq
    cases heq
    exact absurd rfl (hn e rest rfl)

theorem readString_numbered {a b c d x : Char} {rest : List Char} (h : hex4? a b c d = some x.toNat)
    (hx : x.toNat < 32) (hr : WholeEscape rest) :
    readString ('\\' :: 'u' :: a :: b :: c :: d :: rest) = (readString rest).map fun r => (x :: r.1, r.2) := by
  rw [readString.eq_def]
  split
  · contradiction
  · rename_i heq
    exact absurd (List.head_eq_of_cons_eq heq) (by decide)
  · rename_i a' b' c' d' r heq
    cases heq
    obtain ⟨n, hn, -⟩ := hr a' b' c' d' r rfl
    have hl : ¬ 0xd800 ≤ x.toNat := by omega
    simp only [h, hn, hl, decide_false, Bool.false_and, Bool.false_eq_true, if_false]
    rw [ofUnit_toNat (by omega)]
    cases readString ('\\' :: 'u' :: a' :: b' :: c' :: d' :: r) <;> rfl
  · rename_i heq
    cases heq
    simp only [h, bind, Option.bind_some]
    rw [ofUnit_toNat (by omega)]
    cases readString rest <;> rfl
  · rename_i hn heq
    cases heq
    exact absurd rfl (hn a b c d rest rfl)
  · rename_i hn heq
    cases heq
    exact absurd rfl (hn 'u' (a :: b :: c :: d :: rest) rfl)

theorem readString_escapeChar (c : Char) {rest : List Char} (hr : WholeEscape rest) :
    readString (escapeChar c ++ rest) = (readString rest).map fun r => (c :: r.1, r.2) := by
  unfold escapeChar
  by_cases h₁ : c = '"'
  · subst h₁
    exact readString_escaped (by decide) rfl
  rw [if_neg h₁]
  by_cases h₂ : c = '\\'
  · subst h₂
    exact readString_escaped (by decide) rfl
  rw [if_neg h₂]
  by_cases h₃ : c = '\n'
  · subst h₃
    exact readString_escaped (by decide) rfl
  rw [if_neg h₃]
  by_cases h₄ : c = '\r'
  · subst h₄
    exact readString_escaped (by decide) rfl
  rw [if_neg h₄]
  by_cases h₅ : c = '\t'
  · subst h₅
    exact readString_escaped (by decide) rfl
  rw [if_neg h₅]
  by_cases h₆ : c.toNat = 8
  · have : c = Char.ofNat 8 := by rw [← h₆, Char.ofNat_toNat]
    rw [if_pos h₆, this]
    exact readString_escaped (by decide) rfl
  rw [if_neg h₆]
  by_cases h₇ : c.toNat = 12
  · have : c = Char.ofNat 12 := by rw [← h₇, Char.ofNat_toNat]
    rw [if_pos h₇, this]
    exact readString_escaped (by decide) rfl
  rw [if_neg h₇]
  by_cases h₈ : c.toNat < 32
  · obtain ⟨a, b, x, d, ht, hn⟩ := hex4?_control c.toNat h₈
    rw [if_pos h₈, ht]
    exact readString_numbered hn h₈ hr
  · rw [if_neg h₈]
    exact readString_plain h₁ h₂ h₈

theorem wholeEscape_escapeChar (c : Char) (rest : List Char) : WholeEscape (escapeChar c ++ rest) := by
  intro a b x d r h
  by_cases hc : c = '\\'
  · subst hc
    cases h
  unfold escapeChar at h
  split at h
  · cases h
  split at h
  · cases h
  split at h
  · cases h
  split at h
  · cases h
  split at h
  · cases h
  split at h
  · cases h
  split at h
  · rename_i hl
    obtain ⟨a', b', x', d', ht, hn⟩ := hex4?_control c.toNat hl
    rw [ht] at h
    cases h
    exact ⟨c.toNat, hn, by omega⟩
  · exact absurd (List.head_eq_of_cons_eq h) hc

theorem readString_escapes (cs rest : List Char) :
    readString (cs.flatMap escapeChar ++ '"' :: rest) = some (cs, rest) := by
  induction cs with
  | nil => rfl
  | cons c cs ih =>
    have hw : WholeEscape (cs.flatMap escapeChar ++ '"' :: rest) := by
      cases cs with
      | nil =>
        intro a b x d r h
        cases h
      | cons c' cs =>
        rw [List.flatMap_cons, List.append_assoc]
        exact wholeEscape_escapeChar c' _
    rw [List.flatMap_cons, List.append_assoc, readString_escapeChar c hw, ih]
    rfl

/-- **A string is read back as it was.** -/
theorem readString_strChars (s : String) (rest : List Char) :
    ∃ cs, strChars s ++ rest = '"' :: cs ∧ readString cs = some (s.toList, rest) := by
  refine ⟨s.toList.flatMap escapeChar ++ '"' :: rest, ?_, readString_escapes _ _⟩
  simp [strChars]

end Boardwalk.Json
