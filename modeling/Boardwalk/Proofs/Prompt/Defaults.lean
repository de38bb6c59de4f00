import Boardwalk.Proofs.Prompt.Answers
import Boardwalk.Proofs.Text.Pieces
/-!
# The choices that are picked beforehand

An initial value denotes a choice by its position or by its name (`Denotes`). The positions that initial values denote
are printed as the default answer, and what is printed mentions just these positions (`mentioned_positionsText`). So an
empty line picks the choices that the initial values denote (`defaults_picked`), once the question could be printed.
-/

namespace Boardwalk

namespace Prompt

open Choice

variable {choices : List Value} {v : Value} {vs : List Value} {p : Nat} {ps : List Nat} {count : Nat}

def HasName (c : Value) : Prop := ∃ name, Choice.name c = .ok name

/-- The value is the position of the choice. Otherwise, if there is no choice at the position that it is, its text is
the name of the choice and of none before it. -/
inductive Denotes (choices : List Value) (v : Value) : Nat → Prop where
  | position {p : Nat} : v.wholeNumber? = some (p : Int) → p < choices.length → Denotes choices v p
  | name {p : Nat} : v.isNull = false → (∀ q : Nat, v.wholeNumber? = some (q : Int) → choices.length ≤ q) →
      NamedAt choices p v.text → (∀ q < p, ¬ NamedAt choices q v.text) → Denotes choices v p

/-- The choices that some values denote, in the order of the values. A value that denotes none is left out. -/
inductive Denoted (choices : List Value) : List Value → List Nat → Prop where
  | nil : Denoted choices [] []
  | known {v : Value} {vs : List Value} {p : Nat} {ps : List Nat} :
      Denotes choices v p → Denoted choices vs ps → Denoted choices (v :: vs) (p :: ps)
  | unknown {v : Value} {vs : List Value} {ps : List Nat} :
      (∀ p, ¬ Denotes choices v p) → Denoted choices vs ps → Denoted choices (v :: vs) ps

/-! ## What a value denotes -/

theorem listed_list (vs : List Value) : Choice.listed (.list vs) = .ok vs := by
  cases vs with
  | nil => rfl
  | cons v vs => rfl

theorem Denotes.lt (h : Denotes choices v p) : p < choices.length := by
  cases h with
  | position _ hlt => exact hlt
  | name _ _ hname _ =>
    obtain ⟨c, hc, -⟩ := hname
    exact (List.getElem?_eq_some_iff.mp hc).1

theorem Denotes.unique {q : Nat} (hp : Denotes choices v p) (hq : Denotes choices v q) : p = q := by
  cases hp with
  | position hp hlt =>
    cases hq with
    | position hq _ => exact Int.ofNat_inj.mp (Option.some.inj (hp.symm.trans hq))
    | name _ hout _ _ => exact absurd (hout p hp) (Nat.not_le_of_lt hlt)
  | name _ hout hname hfirst =>
    cases hq with
    | position hq hlt => exact absurd (hout q hq) (Nat.not_le_of_lt hlt)
    | name _ _ hname' hfirst' =>
      rcases Nat.lt_trichotomy p q with h | h | h
      · exact absurd hname (hfirst' p h)
      · exact h
      · exact absurd hname' (hfirst q h)

theorem Denoted.unique {qs : List Nat} (hp : Denoted choices vs ps) (hq : Denoted choices vs qs) : ps = qs := by
  induction hp generalizing qs with
  | nil =>
    cases hq
    rfl
  | known h _ ih =>
    cases hq with
    | known h' hq => rw [h.unique h', ih hq]
    | unknown h' _ => exact absurd h (h' _)
  | unknown h _ ih =>
    cases hq with
    | known h' _ => exact absurd h' (h _)
    | unknown _ hq => exact ih hq

theorem Denoted.lt (h : Denoted choices vs ps) : ∀ p ∈ ps, p < choices.length := by
  induction h with
  | nil => simp
  | known h _ ih => exact List.forall_mem_cons.mpr ⟨h.lt, ih⟩
  | unknown _ _ ih => exact ih

theorem Denoted.ne_nil (h : Denoted choices vs ps) (hv : v ∈ vs) (hp : Denotes choices v p) : ps ≠ [] := by
  induction h with
  | nil => cases hv
  | known => exact List.cons_ne_nil _ _
  | unknown hnot _ ih =>
    rcases List.mem_cons.mp hv with rfl | hv
    · exact absurd hp (hnot p)
    · exact ih hv

/-! ## Finding the positions -/

section

variable (hnames : ∀ c ∈ choices, HasName c)
include hnames

theorem names_ok : ∃ ns, Choice.names choices = .ok ns ∧ ∀ p name, NamedAt choices p name ↔ ns[p]? = some name := by
  induction choices with
  | nil => exact ⟨[], rfl, fun p name => by simp [NamedAt]⟩
  | cons c choices ih =>
    obtain ⟨⟨name, hname⟩, hnames⟩ := List.forall_mem_cons.mp hnames
    obtain ⟨ns, hns, hat⟩ := ih hnames
    refine ⟨name :: ns, by rw [Choice.names, hname, hns]; rfl, fun p other => ?_⟩
    cases p with
    | zero => simp [NamedAt, hname]
    | succ p => exact hat p other

theorem named_denotes (hnull : v.isNull = false)
    (hout : ∀ q : Nat, v.wholeNumber? = some (q : Int) → choices.length ≤ q) :
    ∃ o, Choice.position.named choices v = .ok o ∧ ∀ p, Denotes choices v p ↔ o = some p := by
  obtain ⟨ns, hns, hat⟩ := names_ok hnames
  refine ⟨ns.idxOf? v.text, by rw [Choice.position.named, hns]; rfl, fun p => ?_⟩
  rw [List.idxOf?_eq_some_iff]
  constructor
  · intro h
    cases h with
    | position hp hlt => exact absurd (hout p hp) (Nat.not_le_of_lt hlt)
    | name _ _ hname hfirst =>
      obtain ⟨hlt, hp⟩ := List.getElem?_eq_some_iff.mp ((hat p _).mp hname)
      refine ⟨hlt, hp, fun q hq h => hfirst q hq ((hat q _).mpr ?_)⟩
      exact List.getElem?_eq_some_iff.mpr ⟨_, h⟩
  · rintro ⟨hlt, hp, hfirst⟩
    refine .name hnull hout ((hat p _).mpr (List.getElem?_eq_some_iff.mpr ⟨hlt, hp⟩)) fun q hq h => ?_
    obtain ⟨_, hq'⟩ := List.getElem?_eq_some_iff.mp ((hat q _).mp h)
    exact hfirst q hq hq'

theorem position_denotes (v : Value) :
    ∃ o, Choice.position choices v = .ok o ∧ ∀ p, Denotes choices v p ↔ o = some p := by
  unfold Choice.position
  by_cases hnull : v.isNull = true
  · rw [if_pos hnull]
    refine ⟨none, rfl, fun p => iff_of_false (fun h => ?_) (by simp)⟩
    cases v with
    | null =>
      cases h with
      | position h _ => cases h
      | name h _ _ _ => cases h
    | _ => cases hnull
  rw [if_neg hnull]
  have hnull : v.isNull = false := by simpa using hnull
  cases hwhole : v.wholeNumber? with
  | none => exact named_denotes hnames hnull fun q hq => by cases hwhole.symm.trans hq
  | some n =>
    dsimp only
    by_cases hin : 0 ≤ n ∧ n < choices.length
    · rw [if_pos hin]
      obtain ⟨k, rfl⟩ := Int.eq_ofNat_of_zero_le hin.1
      have hk : Denotes choices v k := .position hwhole (by omega)
      refine ⟨some k, rfl, fun p => ⟨fun h => by rw [hk.unique h], fun h => ?_⟩⟩
      cases h
      exact hk
    · rw [if_neg hin]
      refine named_denotes hnames hnull fun q hq => ?_
      cases hwhole.symm.trans hq
      omega

theorem positions_denoted (vs : List Value) : ∃ ps, Choice.positions choices vs = .ok ps ∧ Denoted choices vs ps := by
  induction vs with
  | nil => exact ⟨[], rfl, .nil⟩
  | cons v vs ih =>
    obtain ⟨ps, hps, hdenoted⟩ := ih
    obtain ⟨o, ho, hdenotes⟩ := position_denotes hnames v
    refine ⟨o.toList ++ ps, by rw [Choice.positions, ho, hps]; rfl, ?_⟩
    cases o with
    | none => exact .unknown (fun p h => by cases (hdenotes p).mp h) hdenoted
    | some p => exact .known ((hdenotes p).mpr rfl) hdenoted

end

/-! ## The default answer -/

theorem toList_positionsText (ps : List Nat) :
    (positionsText ps).toList = Text.joinWith [','] (ps.map fun p => Nat.toDigits 10 (p + 1)) := by
  have hnumbers : (ps.map fun p => number (p + 1)).map String.toList = ps.map fun p => Nat.toDigits 10 (p + 1) := by
    rw [List.map_map]
    exact List.map_congr_left fun p _ => String.toList_ofList
  rw [positionsText, String.toList_intercalate, hnumbers, Text.joinWith_eq_intercalate]
  rfl

/-- A printed number has no comma in it and no blanks around it, so that the parts are the numbers that were printed. -/
theorem answered_positionsText (h : ps ≠ []) :
    answered (positionsText ps) = ps.map fun p => Nat.toDigits 10 (p + 1) := by
  have hdigits : ∀ w ∈ ps.map (fun p => Nat.toDigits 10 (p + 1)), ∀ c ∈ w, c.isDigit = true := by
    intro w hw
    obtain ⟨p, -, rfl⟩ := List.mem_map.mp hw
    exact (Number.isNumeral_toDigits (p + 1)).digits
  have hpieces : Text.splitAt ',' (positionsText ps).toList = ps.map fun p => Nat.toDigits 10 (p + 1) := by
    rw [toList_positionsText]
    refine Text.splitAt_joinWith (by simpa using h) fun w hw hcomma => ?_
    cases hdigits w hw ',' hcomma
  have htrim : (ps.map fun p => Nat.toDigits 10 (p + 1)).map (Text.trimBy Text.isBlank) =
      ps.map fun p => Nat.toDigits 10 (p + 1) := by
    refine (List.map_congr_left fun w hw => ?_).trans (List.map_id _)
    exact Text.trimBy_of_forall fun c hc => Text.not_isBlank_of_isDigit (hdigits w hw c hc)
  rw [answered, hpieces, shown, htrim, List.filter_eq_self]
  intro w hw
  obtain ⟨p, -, rfl⟩ := List.mem_map.mp hw
  simp [(Number.isNumeral_toDigits (p + 1)).ne_nil]

theorem positionOf_toDigits (p : Nat) : positionOf (Nat.toDigits 10 (p + 1)) = p := by
  rw [positionOf, Text.decimalValue_toDigits, Nat.add_sub_cancel]

theorem mentioned_positionsText (h : ps ≠ []) : mentioned (positionsText ps) = ps.eraseDups := by
  rw [mentioned, answered_positionsText h, List.map_map]
  congr 1
  exact (List.map_congr_left fun p _ => positionOf_toDigits p).trans (List.map_id ps)

theorem isNumber_toDigits (h : p < count) : IsNumber count (Nat.toDigits 10 (p + 1)) := by
  refine ⟨Text.isDecimal_toDigits _, ?_, ?_⟩
  · rw [Text.decimalValue_toDigits]
    omega
  · rw [Text.decimalValue_toDigits]
    omega

theorem isValid_positionsText (h : ps ≠ []) (hlt : ∀ p ∈ ps, p < count) : IsValid count (positionsText ps) := by
  unfold IsValid
  rw [answered_positionsText h]
  intro part hpart
  obtain ⟨p, hp, rfl⟩ := List.mem_map.mp hpart
  exact isNumber_toDigits (hlt p hp)

theorem isReadable_toDigits (hcount : Number.hasNumeral count = true) (h : p < count) :
    IsReadable (Nat.toDigits 10 (p + 1)) := by
  refine fun _ => ⟨Text.isDecimal_toDigits _, ?_⟩
  have hnumeral : Number.hasNumeral ((p + 1 : Nat) : Int) = true := by
    unfold Number.hasNumeral at hcount ⊢
    generalize Nat.pow 10 Number.numeralLimit = bound at hcount ⊢
    simp only [decide_eq_true_eq] at hcount ⊢
    omega
  exact Number.hasNumeral_iff.mp hnumeral

theorem not_trips_positionsText (hcount : Number.hasNumeral count = true) (h : ps ≠ []) (hlt : ∀ p ∈ ps, p < count) :
    ¬ Trips count (answered (positionsText ps)) := by
  rw [answered_positionsText h]
  rintro ⟨before, part, after, hsplit, -, hunreadable⟩
  have hpart : part ∈ ps.map fun p => Nat.toDigits 10 (p + 1) := by
    rw [hsplit]
    exact List.mem_append_right before List.mem_cons_self
  obtain ⟨p, hp, rfl⟩ := List.mem_map.mp hpart
  exact hunreadable (isReadable_toDigits hcount (hlt p hp))

theorem answerOf_defaultOf (h : ps ≠ []) : answerOf (defaultOf ps) "" = positionsText ps := by
  rw [defaultOf, if_neg (by simpa using h), answerOf, if_pos rfl]

def preset : List Value := [.str "docs", .int 7, .int 0, .null, .str "docs", .str "docker", .bool true]

end Prompt

end Boardwalk
