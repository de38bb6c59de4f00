import Boardwalk.Proofs.Board.Resume
/-!
# Boards that only go forward

The jumps of a forward board lead to later frames. Then the number of records is the cursor, the work of no frame
is done twice (`path_aligned`), and if the answers of the code only depend on what it is given, there is one
journal that a run can end with (`yields_unique`).
-/

namespace Boardwalk

variable {σ : Type}

/-! ## The work in a journal -/

def Record.worked? (r : Record) : Option Nat :=
  if r.kind = "key_frame" ∨ r.kind = "loop_frame" then r.frameIndex.wholeNumber?.map Int.toNat else none

namespace Timeline

def worked (t : Timeline) : List Nat := t.filterMap Record.worked?

def IsPlain (t : Timeline) : Prop := ∀ r ∈ t, r.output.IsPlain

theorem worked_append (t t' : Timeline) : worked (t ++ t') = t.worked ++ worked t' := List.filterMap_append

theorem worked_concat (t : Timeline) (name kind : String) (position : Nat) (output : Value) (completed : Bool) :
    worked (t ++ [t.entry name kind position output completed]) =
      t.worked ++ if kind = "key_frame" ∨ kind = "loop_frame" then [position] else [] := by
  have he : worked [t.entry name kind position output completed] =
      (Record.worked? (t.entry name kind position output completed)).toList := by
    unfold worked
    cases hr : Record.worked? (t.entry name kind position output completed) with
    | none => rw [List.filterMap_cons_none hr, List.filterMap_nil, Option.toList_none]
    | some i => rw [List.filterMap_cons_some hr, List.filterMap_nil, Option.toList_some]
  rw [worked_append, he]
  unfold Record.worked?
  by_cases hk : kind = "key_frame" ∨ kind = "loop_frame"
  · rw [if_pos hk]
    exact congrArg _ (congrArg Option.toList (if_pos hk))
  · rw [if_neg hk]
    exact congrArg _ (congrArg Option.toList (if_neg hk))

theorem IsPlain.concat {t : Timeline} (h : t.IsPlain) {r : Record} (hr : r.output.IsPlain) : IsPlain (t ++ [r]) := by
  intro r' hr'
  rcases List.mem_append.mp hr' with hr' | hr'
  · exact h r' hr'
  · cases List.mem_singleton.mp hr'
    exact hr

theorem IsPlain.reread_eq {t : Timeline} (h : t.IsPlain) : t.map Record.reread = t := by
  refine (List.map_congr_left fun r hr => ?_).trans (List.map_id t)
  unfold Record.reread
  rw [(h r hr).reread_eq]
  rfl

end Timeline

namespace Board

variable {b : Board σ}

/-! ## The order of steps -/

def GoesForward (b : Board σ) : Prop :=
  ∀ {p : Nat} {target condition}, b.frames[p]? = some (.jump target condition) →
    ∃ k, b.jumpTarget target = .ok k ∧ p < k

def IsPlain (b : Board σ) : Prop :=
  ∀ {p : Nat} {kind name condition provider action},
    b.frames[p]? = some (.work kind name condition provider action) → ∀ {x y}, Answers (action x) y → y.IsPlain

def Constant (code : Code σ Value) : Prop := ∀ y y', Answers code y → Answers code y' → y = y'

theorem worked_skipped (is : List Int) (t : Timeline) : (b.skipped t is).worked = t.worked := by
  induction is generalizing t with
  | nil => rfl
  | cons i is ih =>
    rw [skipped, ih, Timeline.worked_append]
    exact List.append_nil _

theorem plain_skipped (is : List Int) {t : Timeline} (h : t.IsPlain) : (b.skipped t is).IsPlain := by
  induction is generalizing t with
  | nil => exact h
  | cons i is ih =>
    rw [skipped]
    exact ih (h.concat Value.isPlain_empty)

section

variable {x : Value} {t t' : Timeline} {cursor : Int} {next : Option Int} {act : Option Nat}
  (h : Takes b x t cursor t' next act)
include h

theorem takes_worked : t'.worked = t.worked ++ act.toList := by
  cases h with
  | skip => exact Timeline.worked_concat _ _ _ _ _ _
  | @work s kind name condition provider action x' y hs hf =>
    have hk : s.kind = "key_frame" ∨ s.kind = "loop_frame" := by
      unfold Spot.kind
      rw [hf]
      cases kind with
      | key => exact .inl rfl
      | loop => exact .inr rfl
    rw [Timeline.worked_concat, if_pos hk]
    rfl
  | @stop s given c y hs hf =>
    have hk : s.kind = "stop_frame" := by
      unfold Spot.kind
      rw [hf]
      rfl
    rw [Timeline.worked_concat, hk]
    rfl
  | @jump s target condition k hs hf =>
    have hk : s.kind = "jump_frame" := by
      unfold Spot.kind
      rw [hf]
      rfl
    rw [worked_skipped, Timeline.worked_concat, hk]
    rfl

theorem takes_plain (hplain : b.IsPlain) (ht : t.IsPlain) : t'.IsPlain := by
  cases h with
  | skip => exact ht.concat Value.isPlain_empty
  | work hs hf _ _ hy => exact ht.concat (hplain ((spot?_some hs).1.trans (congrArg some hf)) hy)
  | stop => exact ht.concat (Value.isPlain_bool _)
  | jump => exact plain_skipped _ (ht.concat (Value.isPlain_int _))

theorem takes_position (h₀ : 0 ≤ cursor) {i : Nat} (hi : act = some i) : (i : Int) = cursor := by
  cases h with
  | skip => cases hi
  | work hs =>
    cases hi
    exact (spot?_some hs).2.2 h₀
  | stop => cases hi
  | jump => cases hi

theorem takes_forward (hforward : b.GoesForward) (h₀ : 0 ≤ cursor) {c : Int} (hc : next = some c) : cursor < c := by
  cases h with
  | skip =>
    cases hc
    omega
  | work =>
    cases hc
    omega
  | stop =>
    split at hc
    · cases hc
    · cases hc
      omega
  | jump hs hf _ hk =>
    cases hc
    obtain ⟨hframe, -, hposition⟩ := spot?_some hs
    obtain ⟨k', hk', hlt⟩ := hforward (hframe.trans (congrArg some hf))
    rw [hk] at hk'
    cases hk'
    have := hposition h₀
    omega

end

/-! ## One course -/

theorem gives_unique {provider : Option (Provider σ)} {v : View} {x x₁ x₂ : Value}
    (hc : ∀ p ∈ provider, Constant (p v x)) (h₁ : Gives provider v x x₁) (h₂ : Gives provider v x x₂) : x₁ = x₂ := by
  cases provider with
  | none => exact h₁.trans h₂.symm
  | some p => exact hc p rfl _ _ h₁ h₂

theorem passes_absurd {s : Spot σ} {c : Condition σ} {v : View} {y : Value} (hcond : s.frame.condition? = some c)
    (hconst : Constant (c v)) (hy : Answers (c v) y) (hf : y.truth = false) (hp : Passes s v) : False := by
  obtain ⟨y', hy', ht⟩ := hp c hcond
  rw [hconst _ _ hy hy', ht] at hf
  cases hf

section

variable (hconst : ∀ f ∈ b.frames, f.AllCode Constant) {x : Value} {t : Timeline}
include hconst

theorem constant_condition {s : Spot σ} {c : Condition σ} {cursor : Int} (hs : b.spot? cursor = some s)
    (hc : s.frame.condition? = some c) (v : View) : Constant (c v) := by
  have hall := hconst s.frame (List.mem_of_getElem? (spot?_some hs).1)
  cases hf : s.frame with
  | work =>
    rw [hf] at hall hc
    exact hall.1 c hc v
  | stop =>
    rw [hf] at hc
    cases hc
  | jump =>
    rw [hf] at hall hc
    exact hall c hc v
  | story =>
    rw [hf] at hall hc
    exact hall.1 c hc v

/-- A step at a frame whose condition does not hold can only pass over it. -/
theorem takes_skipped {cursor : Int} {s : Spot σ} {c : Condition σ} {y : Value} (hs : b.spot? cursor = some s)
    (hc : s.frame.condition? = some c) (hy : Answers (c ⟨t, cursor⟩) y) (hf : y.truth = false) {t' : Timeline}
    {next : Option Int} {act : Option Nat} (h : Takes b x t cursor t' next act) :
    t' = t ++ [t.entry s.name emptyKind s.position (.dict []) true] ∧ next = some (cursor + 1) := by
  have hcond := constant_condition hconst hs hc ⟨t, cursor⟩
  cases h with
  | skip hs' =>
    cases hs.symm.trans hs'
    exact ⟨rfl, rfl⟩
  | work hs' _ hp =>
    cases hs.symm.trans hs'
    exact (passes_absurd hc hcond hy hf hp).elim
  | stop hs' hframe =>
    cases hs.symm.trans hs'
    rw [hframe] at hc
    cases hc
  | jump hs' _ hp =>
    cases hs.symm.trans hs'
    exact (passes_absurd hc hcond hy hf hp).elim

/-- **A step at a cursor leaves one journal and goes on at one cursor.** -/
theorem takes_unique {cursor : Int} {t₁ t₂ : Timeline} {n₁ n₂ : Option Int} {a₁ a₂ : Option Nat}
    (h₁ : Takes b x t cursor t₁ n₁ a₁) (h₂ : Takes b x t cursor t₂ n₂ a₂) : t₁ = t₂ ∧ n₁ = n₂ := by
  -- along the kinds of the frame: two steps at one cursor are at the same one
  cases h₁ with
  | skip hs hc hy hf =>
    obtain ⟨rfl, rfl⟩ := takes_skipped hconst hs hc hy hf h₂
    exact ⟨rfl, rfl⟩
  | @work s kind name condition provider action x₁ y₁ hs hframe hp hgives hy =>
    have hall := hconst s.frame (List.mem_of_getElem? (spot?_some hs).1)
    rw [hframe] at hall
    cases h₂ with
    | skip hs' hc hy' hf =>
      cases hs.symm.trans hs'
      exact (passes_absurd hc (constant_condition hconst hs hc ⟨t, cursor⟩) hy' hf hp).elim
    | work hs' hframe' _ hgives' hy' =>
      cases hs.symm.trans hs'
      cases hframe.symm.trans hframe'
      cases gives_unique (fun p hmem => hall.2.1 p hmem _ _) hgives hgives'
      rw [hall.2.2 x₁ _ _ hy hy']
      exact ⟨rfl, rfl⟩
    | stop hs' hframe' =>
      cases hs.symm.trans hs'
      cases hframe.symm.trans hframe'
    | jump hs' hframe' =>
      cases hs.symm.trans hs'
      cases hframe.symm.trans hframe'
  | @stop s given c y hs hframe hy =>
    have hall := hconst s.frame (List.mem_of_getElem? (spot?_some hs).1)
    rw [hframe] at hall
    cases h₂ with
    | skip hs' hc =>
      cases hs.symm.trans hs'
      rw [hframe] at hc
      cases hc
    | work hs' hframe' =>
      cases hs.symm.trans hs'
      cases hframe.symm.trans hframe'
    | stop hs' hframe' hy' =>
      cases hs.symm.trans hs'
      cases hframe.symm.trans hframe'
      rw [hall ⟨t, cursor⟩ _ _ hy hy']
      exact ⟨rfl, rfl⟩
    | jump hs' hframe' =>
      cases hs.symm.trans hs'
      cases hframe.symm.trans hframe'
  | @jump s target condition k hs hframe hp hk =>
    cases h₂ with
    | skip hs' hc hy' hf =>
      cases hs.symm.trans hs'
      exact (passes_absurd hc (constant_condition hconst hs hc ⟨t, cursor⟩) hy' hf hp).elim
    | work hs' hframe' =>
      cases hs.symm.trans hs'
      cases hframe.symm.trans hframe'
    | stop hs' hframe' =>
      cases hs.symm.trans hs'
      cases hframe.symm.trans hframe'
    | jump hs' hframe' _ hk' =>
      cases hs.symm.trans hs'
      cases hframe.symm.trans hframe'
      cases hk.symm.trans hk'
      exact ⟨rfl, rfl⟩

end

/-- A run without faults may take this number of frames, and then be at this journal and cursor. -/
inductive Path (b : Board σ) (x : Value) : Nat → Timeline → Int → Prop where
  | start : Path b x 0 [] 0
  | step {k : Nat} {t t' : Timeline} {c c' : Int} {act : Option Nat} : Path b x k t c → c < b.frames.length →
      Takes b x t c t' (some c') act → Path b x (k + 1) t' c'

inductive Yields (b : Board σ) (x : Value) : Nat → Timeline → Prop where
  | past {k : Nat} {t : Timeline} {c : Int} : Path b x k t c → (b.frames.length : Int) ≤ c → Yields b x k t
  | stopped {k : Nat} {t t' : Timeline} {c : Int} {act : Option Nat} : Path b x k t c → c < b.frames.length →
      Takes b x t c t' none act → Yields b x k t'

section

variable (hconst : ∀ f ∈ b.frames, f.AllCode Constant) {x : Value}
include hconst

theorem path_unique {k : Nat} {t₁ t₂ : Timeline} {c₁ c₂ : Int} (h₁ : Path b x k t₁ c₁) (h₂ : Path b x k t₂ c₂) :
    t₁ = t₂ ∧ c₁ = c₂ := by
  induction h₁ generalizing t₂ c₂ with
  | start =>
    cases h₂
    exact ⟨rfl, rfl⟩
  | step _ _ ht ih =>
    cases h₂ with
    | step hp' _ ht' =>
      obtain ⟨rfl, rfl⟩ := ih hp'
      obtain ⟨rfl, hc⟩ := takes_unique hconst ht ht'
      exact ⟨rfl, Option.some.inj hc⟩

omit hconst in
theorem path_goes_on {k k' : Nat} {t' : Timeline} {c' : Int} (h : Path b x k' t' c') (hlt : k < k') :
    ∃ t c t₁ c₁ act, Path b x k t c ∧ c < b.frames.length ∧ Takes b x t c t₁ (some c₁) act := by
  induction h with
  | start => exact absurd hlt (Nat.not_lt_zero k)
  | @step k' t t₁ c c₁ act hp hc ht ih =>
    by_cases he : k = k'
    · subst he
      exact ⟨t, c, t₁, c₁, act, hp, hc, ht⟩
    · exact ih (by omega)

theorem yields_ends {k k' : Nat} {t t' : Timeline} {c' : Int} (h : Yields b x k t) (hp : Path b x k' t' c') :
    k' ≤ k := by
  apply Nat.le_of_not_lt
  intro hlt
  obtain ⟨t₀, c₀, t₁, c₁, act, hp₀, hc₀, ht₀⟩ := path_goes_on hp hlt
  cases h with
  | past hp' hc' =>
    obtain ⟨rfl, rfl⟩ := path_unique hconst hp₀ hp'
    omega
  | stopped hp' _ ht' =>
    obtain ⟨rfl, rfl⟩ := path_unique hconst hp₀ hp'
    cases (takes_unique hconst ht₀ ht').2

/-- **There is one journal that a run without faults ends with.** -/
theorem yields_unique {k₁ k₂ : Nat} {t₁ t₂ : Timeline} (h₁ : Yields b x k₁ t₁) (h₂ : Yields b x k₂ t₂) : t₁ = t₂ := by
  have hk : k₁ = k₂ := by
    have h₂₁ : k₂ ≤ k₁ := by
      cases h₂ with
      | past hp => exact yields_ends hconst h₁ hp
      | stopped hp => exact yields_ends hconst h₁ hp
    have h₁₂ : k₁ ≤ k₂ := by
      cases h₁ with
      | past hp => exact yields_ends hconst h₂ hp
      | stopped hp => exact yields_ends hconst h₂ hp
    omega
  subst hk
  cases h₁ with
  | past hp hc =>
    cases h₂ with
    | past hp' => exact (path_unique hconst hp hp').1
    | stopped hp' hc' =>
      obtain ⟨rfl, rfl⟩ := path_unique hconst hp hp'
      omega
  | stopped hp hc ht =>
    cases h₂ with
    | past hp' hc' =>
      obtain ⟨rfl, rfl⟩ := path_unique hconst hp hp'
      omega
    | stopped hp' _ ht' =>
      obtain ⟨rfl, rfl⟩ := path_unique hconst hp hp'
      exact (takes_unique hconst ht ht').1

end

/-! ## The journal and the cursor -/

/-- What holds of the journal at a cursor of a board that only goes forward. -/
structure Aligned (t : Timeline) (c : Int) : Prop where
  level : c = t.length
  plain : t.IsPlain
  ordered : t.worked.Pairwise (· < ·)
  below : ∀ i ∈ t.worked, (i : Int) < c

section

variable (hforward : b.GoesForward) (hplain : b.IsPlain) {x : Value}
include hforward hplain

theorem aligned_takes {t t' : Timeline} {c : Int} {next : Option Int} {act : Option Nat} (h : Aligned t c)
    (ht : Takes b x t c t' next act) : t'.IsPlain ∧ t'.worked.Pairwise (· < ·) ∧
      ∀ c', next = some c' → Aligned t' c' := by
  have h₀ : 0 ≤ c := by
    rw [h.level]
    exact Int.natCast_nonneg _
  have hplain' := takes_plain ht hplain h.plain
  have hworked := takes_worked ht
  have hordered : t'.worked.Pairwise (· < ·) := by
    rw [hworked]
    refine List.pairwise_append.mpr ⟨h.ordered, ?_, fun i hi j hj => ?_⟩
    · cases act with
      | none => exact List.Pairwise.nil
      | some i => exact List.pairwise_singleton _ _
    · have := h.below i hi
      have := takes_position ht h₀ (Option.mem_toList.mp hj)
      omega
  refine ⟨hplain', hordered, fun c' hc' => ⟨?_, hplain', hordered, fun i hi => ?_⟩⟩
  · have := takes_length ht hc'
    have := takes_forward ht hforward h₀ hc'
    have := h.level
    omega
  · have hlt := takes_forward ht hforward h₀ hc'
    rw [hworked] at hi
    rcases List.mem_append.mp hi with hi | hi
    · exact Int.lt_trans (h.below i hi) hlt
    · rw [takes_position ht h₀ (Option.mem_toList.mp hi)]
      exact hlt

/-- **The number of records is the cursor, and no work is done twice.** -/
theorem path_aligned {k : Nat} {t : Timeline} {c : Int} (h : Path b x k t c) : Aligned t c := by
  induction h with
  | start => exact ⟨rfl, nofun, List.Pairwise.nil, nofun⟩
  | step _ _ ht ih => exact (aligned_takes hforward hplain ih ht).2.2 _ rfl

theorem yields_nodup {k : Nat} {t : Timeline} (h : Yields b x k t) : t.worked.Nodup := by
  have hordered : t.worked.Pairwise (· < ·) := by
    cases h with
    | past hp => exact (path_aligned hforward hplain hp).ordered
    | stopped hp _ ht => exact (aligned_takes hforward hplain (path_aligned hforward hplain hp) ht).2.1
  exact hordered.imp Nat.ne_of_lt

end

end Board

end Boardwalk
