import Boardwalk.Proofs.Board.Recount
import Boardwalk.Proofs.Board.Resume
/-!
# Journals in step with their boards

A run that no jump leads back journals one record for each frame that it passes. The journal that it loads may be in
step with the board (`InStep`), and then it is still so at the end of the run (`Recounts.inStep`). So the place of the
last record tells whether the next run finds a frame to take (`InStep.behind_iff`).
-/

namespace Boardwalk.Board

variable {σ : Type} {b : Board σ}

/-! ## Valid records -/

theorem valid_concat {t : Timeline} (h : ∀ r ∈ t, r.IsValid) {name kind : String} {frameIndex : Int} {output : Value}
    {completed : Bool} : ∀ r ∈ t ++ [t.entry name kind frameIndex output completed], r.IsValid := by
  intro r hr
  rcases List.mem_append.mp hr with hr | hr
  · exact h r hr
  · rw [List.mem_singleton.mp hr]
    exact Timeline.isValid_entry ..

theorem skipped_valid (is : List Int) {t : Timeline} (h : ∀ r ∈ t, r.IsValid) : ∀ r ∈ b.skipped t is, r.IsValid := by
  induction is generalizing t with
  | nil => exact h
  | cons i is ih => exact ih (valid_concat h)

section

variable {x : Value} {t : Timeline} {c : Int} {es : List Event} {rs : Timeline}

theorem Tells.valid {turn : Turn} (h : Tells b x t c es rs turn) (ht : ∀ r ∈ t, r.IsValid) :
    ∀ r ∈ t ++ rs, r.IsValid := by
  cases h with
  | outside => simpa using ht
  | undecided => simpa using ht
  | skip => exact valid_concat ht
  | unprovided => simpa using ht
  | unworked => simpa using ht
  | work => exact valid_concat ht
  | unstopped => simpa using ht
  | stop => exact valid_concat ht
  | lost => exact valid_concat ht
  | jump _ _ _ _ hskip =>
    rw [List.append_cons, ← hskip]
    exact skipped_valid _ (valid_concat ht)
  | story => exact valid_concat ht
  | concluded => exact valid_concat ht

theorem Walks.keeps {P : Timeline → Int → Prop} {c' : Int} (h : Walks b x t c es rs c')
    (hstep : ∀ {t c es rs c'}, Tells b x t c es rs (.next c') → P t c → P (t ++ rs) c') (ht : P t c) :
    P (t ++ rs) c' := by
  induction h with
  | start =>
    rw [List.append_nil]
    exact ht
  | step _ _ htells ih =>
    rw [← List.append_assoc]
    exact hstep htells ih

theorem Walks.valid {c' : Int} (h : Walks b x t c es rs c') (ht : ∀ r ∈ t, r.IsValid) : ∀ r ∈ t ++ rs, r.IsValid :=
  h.keeps (P := fun t _ => ∀ r ∈ t, r.IsValid) Tells.valid ht

theorem Recounts.valid {h : Halt} (hr : Recounts b x t c es rs h) (ht : ∀ r ∈ t, r.IsValid) :
    ∀ r ∈ t ++ rs, r.IsValid := by
  cases hr with
  | past hw => exact hw.valid ht
  | limit hw => exact hw.valid ht
  | last hw _ hstep =>
    rw [← List.append_assoc]
    exact hstep.valid (hw.valid ht)

/-! ## Walks that take no step -/

theorem Walks.cursor_of_nil {c' : Int} (h : Walks b x t c es rs c') (hrs : rs = []) : c' = c := by
  cases h with
  | start => rfl
  | step _ _ hstep =>
    -- a step that journals nothing raises a fault
    obtain ⟨-, rfl⟩ := List.append_eq_nil_iff.mp hrs
    obtain ⟨-, f, hf⟩ := hstep.quits
    cases hf

theorem Recounts.behind_of_nil (h : Recounts b x t c es [] .ended) : (b.frames.length : Int) ≤ c := by
  generalize hrs : ([] : Timeline) = rs at h
  generalize hh : Halt.ended = halt at h
  cases h with
  | past hw hle =>
    rw [hw.cursor_of_nil hrs.symm] at hle
    exact hle
  | limit => cases hh
  | last hw _ hstep =>
    obtain ⟨-, rfl⟩ := List.append_eq_nil_iff.mp hrs.symm
    obtain ⟨-, f, hf⟩ := hstep.quits
    cases hh
    cases hf

end

/-! ## In step -/

def NeverBack (b : Board σ) : Prop :=
  ∀ {p : Nat} {target condition k}, b.frames[p]? = some (.jump target condition) → b.jumpTarget target = .ok k → p < k

/-- Each record is done, and it is that of the frame at its own position. -/
def InStep (b : Board σ) (t : Timeline) : Prop :=
  ∀ (i : Nat) (r : Record), t[i]? = some r →
    i < b.frames.length ∧ r.index = .int i ∧ r.completed = .bool true ∧ r.frameIndex = .int i

theorem inStep_nil (b : Board σ) : b.InStep [] := by
  intro i r h
  cases h

theorem InStep.numbered {t : Timeline} (h : b.InStep t) : t.IsNumbered := by
  intro i r hi
  obtain ⟨-, hindex, hdone, hframe⟩ := h i r hi
  exact ⟨hindex, ⟨⟨_, hindex⟩, ⟨_, hdone⟩, .inr ⟨_, hframe⟩⟩⟩

theorem InStep.done {t : Timeline} (h : b.InStep t) : t.IsDone := by
  intro r hr
  obtain ⟨i, hi⟩ := List.getElem?_of_mem hr
  exact (h i r hi).2.2.1

theorem InStep.cursor {t : Timeline} (h : b.InStep t) : t.cursor = t.length :=
  Timeline.cursor_of_isDone h.numbered h.done

theorem InStep.concat {t : Timeline} (h : b.InStep t) (hlt : t.length < b.frames.length) {name kind : String}
    {output : Value} : b.InStep (t ++ [t.entry name kind t.length output true]) := by
  intro i r hi
  by_cases hold : i < t.length
  · rw [List.getElem?_append_left hold] at hi
    exact h i r hi
  · obtain ⟨hl, -⟩ := List.getElem?_eq_some_iff.mp hi
    rw [List.length_append, List.length_singleton] at hl
    obtain rfl : i = t.length := by omega
    rw [List.getElem?_concat_length] at hi
    cases hi
    exact ⟨hlt, rfl, rfl, rfl⟩

theorem InStep.skipped {is : List Int} {t : Timeline} (h : b.InStep t)
    (his : ∀ (j : Nat) (i : Int), is[j]? = some i → i = t.length + j) (hlt : t.length + is.length ≤ b.frames.length) :
    b.InStep (b.skipped t is) := by
  induction is generalizing t with
  | nil => exact h
  | cons i is ih =>
    rw [List.length_cons] at hlt
    obtain rfl : i = t.length := by simpa using his 0 i rfl
    refine ih (h.concat (by omega)) (fun j i hi => ?_) ?_
    · rw [his (j + 1) i hi, List.length_append, List.length_singleton]
      omega
    · rw [List.length_append, List.length_singleton]
      omega

theorem between_getElem? {c i : Int} {k j : Nat} (h : (between c k)[j]? = some i) : i = c + 1 + j := by
  unfold between at h
  rw [List.getElem?_map] at h
  obtain ⟨n, hn, rfl⟩ := Option.map_eq_some_iff.mp h
  rw [(List.getElem?_eq_some_iff.mp hn).2.symm, List.getElem_range]

/-- **In a journal that is in step the place of the last record tells whether a frame is left.** -/
theorem InStep.behind_iff {t : Timeline} (h : b.InStep t) : (b.frames.length : Int) ≤ t.cursor ↔
    b.frames = [] ∨ ∃ r, t.getLast? = some r ∧ r.frameIndex = .int (b.frames.length - 1) := by
  rw [h.cursor, List.getLast?_eq_getElem?, ← List.length_eq_zero_iff]
  cases hr : t[t.length - 1]? with
  | none =>
    have : t.length = 0 := by
      have := List.getElem?_eq_none_iff.mp hr
      omega
    simp [this]
  | some r =>
    obtain ⟨hlt, -, -, hframe⟩ := h _ r hr
    have := (List.getElem?_eq_some_iff.mp hr).1
    simp only [Option.some.injEq, exists_eq_left', hframe, Value.int.injEq]
    omega

section

variable {x : Value} {t : Timeline} {c : Int} {es : List Event} {rs : Timeline}

theorem spot?_natCast {n : Nat} {s : Spot σ} (hs : b.spot? n = some s) :
    s.position = n ∧ b.frames[n]? = some s.frame := by
  obtain ⟨hframe, -, hp⟩ := spot?_some hs
  obtain rfl : s.position = n := Int.natCast_inj.mp (hp (Int.natCast_nonneg n))
  exact ⟨rfl, hframe⟩

theorem InStep.add (ht : b.InStep t) {s : Spot σ} (hs : b.spot? t.length = some s) (kind : String) (y : Value)
    {turn : Turn} (hturn : ∀ c', turn = .next c' → c' = t.length + 1) :
    b.InStep (t ++ [t.entry s.name kind s.position y true]) ∧
      ∀ c', turn = .next c' → c' = (t ++ [t.entry s.name kind s.position y true]).length := by
  obtain ⟨hat, hframe⟩ := spot?_natCast hs
  rw [hat]
  refine ⟨ht.concat (List.getElem?_eq_some_iff.mp hframe).1, fun c' hc' => ?_⟩
  rw [hturn c' hc', List.length_append, List.length_singleton]
  rfl

/-- **A step that is not cut short keeps the journal in step**, and goes on behind it. -/
theorem Tells.inStep {turn : Turn} (h : Tells b x t t.length es rs turn) (hback : b.NeverBack) (ht : b.InStep t)
    (hturn : turn.Completes) : b.InStep (t ++ rs) ∧ ∀ c', turn = .next c' → c' = (t ++ rs).length := by
  cases h with
  | skip hs => exact ht.add hs _ _ fun c' hc' => (Turn.next.inj hc').symm
  | work hs => exact ht.add hs _ _ fun c' hc' => (Turn.next.inj hc').symm
  | stop hs =>
    refine ht.add hs _ _ fun c' hc' => ?_
    split at hc'
    · cases hc'
    · exact (Turn.next.inj hc').symm
  | @jump s target condition es k gaps hs hf hd hk hskip =>
    obtain ⟨hstep, hlength⟩ : _ ∧ ∀ c', Turn.next (t.length + 1) = .next c' → c' = _ :=
      ht.add hs s.kind (.int t.length) fun c' hc' => (Turn.next.inj hc').symm
    have hlt := hback ((spot?_natCast hs).2.trans (congrArg some hf)) hk
    have hle := jumpTarget_lt hk
    rw [List.append_cons, ← hskip]
    have hnext := hlength _ rfl
    generalize t ++ [t.entry s.name s.kind s.position (.int t.length) true] = t' at hstep hnext ⊢
    have hcount : (between t.length k).length = k - t'.length := by
      rw [length_between]
      omega
    refine ⟨hstep.skipped (fun j i hi => ?_) (by omega), fun c' hc' => ?_⟩
    · rw [between_getElem? hi, hnext]
    · cases hc'
      rw [length_skipped, hcount]
      omega
  | concluded hs => exact ht.add hs _ _ fun c' hc' => nomatch hc'
  | story _ _ _ _ hne => exact absurd (hturn _ rfl) hne
  | _ => exact nomatch hturn _ rfl

theorem Walks.inStep {c' : Int} (h : Walks b x t c es rs c') (hback : b.NeverBack) (ht : b.InStep t)
    (hc : c = t.length) : b.InStep (t ++ rs) ∧ c' = (t ++ rs).length := by
  refine h.keeps (P := fun t c => b.InStep t ∧ c = t.length) ?_ ⟨ht, hc⟩
  rintro t c es rs c' htells ⟨hin, rfl⟩
  obtain ⟨hin', hnext⟩ := htells.inStep hback hin (Turn.completes_next _)
  exact ⟨hin', hnext _ rfl⟩

theorem Recounts.inStep (h : Recounts b x t t.cursor es rs .ended) (hback : b.NeverBack) (ht : b.InStep t) :
    b.InStep (t ++ rs) := by
  generalize hhalt : Halt.ended = halt at h
  cases h with
  | past hw => exact (hw.inStep hback ht ht.cursor).1
  | limit => cases hhalt
  | last hw _ hstep =>
    cases hhalt
    obtain ⟨hin, hcursor⟩ := hw.inStep hback ht ht.cursor
    subst hcursor
    rw [← List.append_assoc]
    exact (hstep.inStep hback hin Turn.completes_ended).1

end

end Boardwalk.Board
