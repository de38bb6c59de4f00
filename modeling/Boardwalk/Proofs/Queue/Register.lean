import Boardwalk.Proofs.Disk.Standing
import Boardwalk.Proofs.Queue.Effects
/-!
# The state file as a register

Whoever reads a state file gets what the last operation that changed it has left there: the Json normal form of the
value, or none after the file was removed or emptied, and before any change whatever the file holds (`latest`). Refused
operations change nothing, and neither do failed ones, but for a value with a text that no bytes stand for, which
empties the file (`finds_first`).
-/

namespace Boardwalk

/-- What is read of a value that was written: its Json normal form. -/
def Value.written (v : Value) : Value :=
  match v.plain? with
  | some j => .ofJson j.reread
  | none => .null

namespace Registry

theorem document_inv {v : Value} {j : Json} (h : document v = .ok j) :
    v.plain? = some j ∧ j.nesting ≤ Json.documentLimit ∧ j.isWritable = true := by
  unfold document at h
  split at h
  · cases h
  · rename_i k hk
    split at h
    · cases h
    · rename_i hn
      split at h
      · rename_i hw
        cases h
        exact ⟨hk, Nat.le_of_not_lt hn, hw⟩
      · cases h

theorem refused_of_document {v : Value} {f : Fault} (h : document v = .error f) :
    refused f ≠ .ok (.bool true) ∧ refused f ≠ .error .unencodable := by
  unfold document at h
  split at h
  · cases h
    simp [refused, Fault.family]
  · split at h
    · cases h
      simp [refused, Fault.family]
    · split at h
      · cases h
      · cases h
        simp [refused, Fault.family]

end Registry

namespace StateFile

open Disk

theorem enter_ne_lock (p : Place) (n : String) : p.enter n ≠ p ++ [n ++ ".lock"] := by
  unfold Place.enter
  split
  · rename_i hn
    subst hn
    unfold Place.up
    split
    · rename_i hp
      rw [List.getLast?_eq_none_iff.mp hp]
      decide
    · split
      · exact fun h => absurd (List.append_cancel_left h) (by decide)
      · split
        · exact fun h => absurd (congrArg List.length h) (by simp)
        · exact fun h => absurd (congrArg List.length h) (by simp)
  · exact fun h => ne_lock n (List.singleton_inj.mp (List.append_cancel_left h))

theorem filePlace_ne_lockPlace (l : Location) : filePlace l ≠ lockPlace l := by
  unfold filePlace lockPlace placeIn lockName
  split
  · exact enter_ne_lock _ _
  · exact fun h => absurd (congrArg List.length h) (by simp)

def CanLock (held : List Place) (l : Location) (d : Disk) : Prop := (locked held l (fun _ d => (.ok (), d)) d).1 = .ok ()

/-- What stands in the place of a file once the directories above it are made. -/
def found? (l : Location) (d : Disk) : Option Node := (d.makeDirs l.parent).2.node? (filePlace l)

/-- It is what stood there before, unless a directory above the file takes the place of the file itself. -/
theorem found?_cases (l : Location) (d : Disk) :
    found? l d = d.node? (filePlace l) ∨ d.node? (filePlace l) = none ∧ found? l d = some .dir := by
  cases hn : d.node? (filePlace l) with
  | some n => exact .inl (node?_makeDirs hn)
  | none =>
    cases hf : found? l d with
    | none => exact .inl rfl
    | some n =>
      cases n with
      | dir => exact .inr ⟨rfl, rfl⟩
      | file c =>
        have := brings_makeDirs (filePlace l) d l.parent c hf
        rw [hn] at this
        cases this

/-- What the operations on a file find in its place. -/
def Finds (held : List Place) (l : Location) (d : Disk) (n : Option Node) : Prop :=
  ∃ d₁, Ready held l d₁ ∧ d₁.node? (filePlace l) = n ∧
    ∀ {α : Type} (op : Place → Disk → Except Fault α × Disk), locked held l op d = locked held l op d₁

variable {held : List Place} {l : Location} {d : Disk} {n : Option Node}

theorem Ready.finds (h : Ready held l d) : Finds held l d (d.node? (filePlace l)) := ⟨d, h, rfl, fun _ => rfl⟩

theorem CanLock.finds (h : CanLock held l d) : Finds held l d (found? l d) := by
  unfold CanLock locked at h
  rcases hm : d.makeDirs l.parent with ⟨_ | dir, d₀⟩
  · rw [hm] at h
    cases h
  · rw [hm] at h
    dsimp only at h
    obtain rfl := makeDirs_place hm
    cases ht : takeLock held l.parent.place l d₀ with
    | error f =>
      rw [ht] at h
      cases h
    | ok d₁ =>
      obtain ⟨hcheck, htouch, hfree⟩ := takeLock_inv ht
      -- the directories and the lock file are there now, and every other operation makes them first in the same way
      have hr : Ready held l d₁ :=
        ⟨makeDirs_again hm (stays_touch [] htouch).keepsDirs, hcheck, file?_touch htouch, hfree⟩
      refine ⟨d₁, hr, ?_, fun op => ?_⟩
      · rw [found?, hm]
        rcases touch_cases htouch with ⟨rfl, -⟩ | ⟨-, rfl⟩
        · rfl
        · exact node?_put_ne d₀ _ (filePlace_ne_lockPlace l)
      · rw [hr.locked_eq]
        unfold locked
        simp only [hm, ht]
        rfl

def answerOf (n : Option Node) : Except Fault Value := (stateOfNode n).map Registry.stateValue

theorem answerOf_file (c : ByteArray) : answerOf (some (.file c)) = (stateOfBytes c).map Registry.stateValue := rfl

theorem answerOf_empty : answerOf (some (.file ByteArray.empty)) = .ok .null := by
  have hread := fromUTF8?_toUTF8 ""
  rw [answerOf_file, stateOfBytes, show ByteArray.empty = "".toUTF8 from rfl, hread]
  rfl

theorem answerOf_written {v : Value} {j : Json} {c : ByteArray} (h : Registry.document v = .ok j)
    (hc : j.bytes? = some c) : answerOf (some (.file c)) = .ok v.written := by
  obtain ⟨hj, hn, hw⟩ := Registry.document_inv h
  obtain rfl := Json.bytes?_inv hc
  rw [answerOf_file, stateOfBytes_written hw (hn.trans (by decide)), Value.written, hj]
  dsimp only
  cases j.reread with
  | null => rfl
  | _ => rfl

/-- A write fails before the file is opened, or has no bytes and leaves the file empty, or succeeds. -/
theorem Ready.write_cases (h : Ready held l d) (bytes? : Option ByteArray) :
    (∃ f, write held l bytes? d = (.error (.disk f), d)) ∨
      (∃ d', write held l bytes? d = (.error .unencodable, d') ∧ bytes? = none ∧
        Finds held l d' (some (.file ByteArray.empty))) ∨
      ∃ d' c, write held l bytes? d = (.ok (), d') ∧ bytes? = some c ∧ Finds held l d' (some (.file c)) := by
  have hfinds : ∀ {d' : Disk} {c : ByteArray}, d.write (filePlace l) c = .ok d' → Finds held l d' (some (.file c)) := by
    intro d' c hw
    rw [← node?_write hw]
    exact (h.of_stays (stays_write hw) (filePlace_ne_lockPlace l)).finds
  unfold write
  rw [h.locked_eq]
  cases hopen : d.write (filePlace l) ByteArray.empty with
  | error f => exact .inl ⟨f, overwrite_closed hopen bytes?⟩
  | ok emptied =>
    cases bytes? with
    | none => exact .inr (.inl ⟨emptied, by simp only [overwrite, hopen], rfl, hfinds hopen⟩)
    | some c =>
      have hw := write_fill hopen c
      exact .inr (.inr ⟨_, c, overwrite_eq hw, rfl, hfinds hw⟩)

end StateFile

/-! ## The last change counts -/

namespace Registry

/-- What an operation that was answered so has left in the file to be read; none if it has changed nothing. -/
def Operation.change? : Operation → Except Fault Value → Option Value
  | .update v, .ok (.bool true) => some v.written
  -- the file was emptied before its text turned out to have no bytes
  | .update _, .error .unencodable => some .null
  | .delete, .ok _ => some .null
  | .init none, .ok (.bool true) => some .null
  | _, _ => none

theorem Operation.change?_update {v : Value} {answer : Except Fault Value} (h : answer ≠ .ok (.bool true))
    (hu : answer ≠ .error .unencodable) : (Operation.update v).change? answer = none := by
  unfold change?
  split
  all_goals simp_all

theorem Operation.change?_init {answer : Except Fault Value} (h : answer ≠ .ok (.bool true)) :
    (Operation.init none).change? answer = none := by
  unfold change?
  split
  all_goals simp_all

/-- What there is to be read after operations with their answers. -/
def latest (first : Except Fault Value) : List (Operation × Except Fault Value) → Except Fault Value
  | [] => first
  | (o, answer) :: rest => latest (((o.change? answer).map .ok).getD first) rest

open StateFile

variable {held : List Place} {l : Location} {d : Disk} {n : Option Node}

theorem softened_write (h : Finds held l d n) (bytes? : Option ByteArray) :
    (∃ d' c, softened (write held l bytes? d) = (.ok (.bool true), d') ∧ bytes? = some c ∧
        Finds held l d' (some (.file c))) ∨
      (∃ d', softened (write held l bytes? d) = (.error .unencodable, d') ∧ bytes? = none ∧
        Finds held l d' (some (.file ByteArray.empty))) ∨
      ∃ answer d', softened (write held l bytes? d) = (answer, d') ∧ answer ≠ .ok (.bool true) ∧
        answer ≠ .error .unencodable ∧ Finds held l d' n := by
  obtain ⟨d₁, hr, hn, he⟩ := h
  have he : write held l bytes? d = write held l bytes? d₁ := he (overwrite bytes?)
  rw [he]
  rcases hr.write_cases bytes? with ⟨f, hw⟩ | ⟨d', hw, hu, hf⟩ | ⟨d', c, hw, hc, hf⟩
  · rw [hw]
    refine .inr (.inr ⟨_, d₁, rfl, ?_, ?_, hn ▸ hr.finds⟩)
    all_goals split
    all_goals simp
  · rw [hw]
    exact .inr (.inl ⟨d', rfl, hu, hf⟩)
  · rw [hw]
    exact .inl ⟨d', c, rfl, hc, hf⟩

/-- **A read finds what is there**, and every other operation leaves what its answer says. -/
theorem finds_first (h : Finds held l d n) {o : Operation} (ho : o.hasMore = false) :
    ∃ n', Finds held l (o.first held l d).2 n' ∧
      answerOf n' = ((o.change? (o.first held l d).1).map .ok).getD (answerOf n) ∧
      (o = .read → (o.first held l d).1 = answerOf n) := by
  cases o with
  | update v =>
    have hno : Operation.update v ≠ .read := by simp
    cases ht : document v with
    | error f =>
      -- a value that cannot be written is refused before anything is done
      rw [Operation.first_refused ⟨v, rfl, ht⟩]
      obtain ⟨ha, hu⟩ := refused_of_document ht
      exact ⟨n, h, by rw [Operation.change?_update ha hu]; rfl, fun e => absurd e hno⟩
    | ok j =>
      have hx : (Operation.update v).first held l d = softened (write held l j.bytes? d) := by rw [Operation.first, ht]
      rw [hx]
      rcases softened_write h j.bytes? with ⟨d', c, he, hc, hf⟩ | ⟨d', he, -, hf⟩ | ⟨answer, d', he, ha, hu, hf⟩
      · rw [he]
        exact ⟨_, hf, answerOf_written ht hc, fun e => absurd e hno⟩
      · rw [he]
        exact ⟨_, hf, answerOf_empty, fun e => absurd e hno⟩
      · rw [he]
        exact ⟨n, hf, by rw [Operation.change?_update ha hu]; rfl, fun e => absurd e hno⟩
  | read =>
    obtain ⟨d₁, hr, rfl, he⟩ := h
    have hx : Operation.read.first held l d = (answerOf (d₁.node? (filePlace l)), d₁) := by
      have he : read held l d = read held l d₁ := he readState
      rw [Operation.first, he, hr.read_eq]
      rfl
    rw [hx]
    exact ⟨_, hr.finds, rfl, fun _ => rfl⟩
  | delete =>
    obtain ⟨d₁, hr, rfl, he⟩ := h
    have he : delete held l d = delete held l d₁ := he removeState
    have hno : Operation.delete ≠ .read := by simp
    rw [Operation.first, he]
    rcases hr.delete_cases with ⟨f, hd⟩ | ⟨removed, d', hd, hn⟩
    · rw [hd]
      exact ⟨_, hr.finds, rfl, fun e => absurd e hno⟩
    · have hs := stays_delete held l d₁
      rw [hd] at hs ⊢
      exact ⟨none, hn ▸ (hr.of_stays hs (filePlace_ne_lockPlace l)).finds, rfl, fun e => absurd e hno⟩
  | init v =>
    have hno : Operation.init v ≠ .read := by simp
    cases v with
    | some v => cases ho
    | none =>
      rcases softened_write h (some ByteArray.empty) with ⟨d', c, he, hc, hf⟩ | ⟨-, -, hc, -⟩ | ⟨answer, d', he, ha, -, hf⟩
      · rw [Operation.first, he]
        cases hc
        exact ⟨_, hf, answerOf_empty, fun e => absurd e hno⟩
      · cases hc
      · rw [Operation.first, he]
        exact ⟨n, hf, by rw [Operation.change?_init ha]; rfl, fun e => absurd e hno⟩

/-- **Every read gets what the last change has left.** -/
theorem runAll_read (h : Finds held l d n) (before after : List (Nat × Operation)) (call : Nat)
    (ho : ∀ a ∈ before, a.2.hasMore = false) :
    let answers := (Operation.runAll held l (before ++ (call, .read) :: after) d).1.map Prod.snd
    answers[before.length]? = some (latest (answerOf n) ((before.map Prod.snd).zip answers)) := by
  induction before generalizing d n with
  | nil =>
    obtain ⟨-, -, -, hread⟩ := finds_first h (o := .read) rfl
    simp only [List.nil_append, Operation.runAll, Operation.run_of_not_hasMore (o := .read) rfl]
    exact congrArg some (hread rfl)
  | cons a before ih =>
    obtain ⟨c, o⟩ := a
    have hno : o.hasMore = false := ho _ List.mem_cons_self
    obtain ⟨n', hf, ha, -⟩ := finds_first h hno
    have ih := ih hf fun b hb => ho b (List.mem_cons_of_mem _ hb)
    simp only [List.cons_append, Operation.runAll, Operation.run_of_not_hasMore hno, List.map_cons, List.length_cons,
      List.getElem?_cons_succ, List.zip_cons_cons, latest]
    rw [← ha]
    exact ih

end Registry

end Boardwalk
