import Boardwalk.Proofs.Board.Resume
import Boardwalk.Proofs.Command.Exits
import Boardwalk.Proofs.Disk.Beside
import Boardwalk.Proofs.Session.Outcome
import Mathlib.Data.List.Forall2
/-!
# Lists of sessions

Reading one session file tells its row (`Row`) and leaves on the disk just the file that stands for its lock, so what
the other rows tell does not depend on it. A list therefore has the rows of all session files of its directory, as they
are found at first (`listFiles_rows`), and the cursor in a row is where a run that is resumed from the file begins
(`started_of_stored`). A file of which no row can be told ends the list (`listFiles_untold`).
-/

namespace Boardwalk.Command

open StateFile

variable {σ : Type} {console : Console} {directory : Location} {w w' : World σ} {n : String}

/-! ## Names of session files -/

theorem isSessionName_iff : isSessionName n = true ↔ ∃ s, n = s ++ ".json" := by
  unfold isSessionName
  rw [List.isSuffixOf_iff_suffix]
  constructor
  · rintro ⟨t, ht⟩
    refine ⟨String.ofList t, String.toList_inj.mp ?_⟩
    rw [String.toList_append, String.toList_ofList, ht]
  · rintro ⟨s, rfl⟩
    exact ⟨s.toList, String.toList_append.symm⟩

theorem name_ne (h : isSessionName n = true) {m : String} (hm : m.toList.length < 5) : n ≠ m := by
  obtain ⟨s, rfl⟩ := isSessionName_iff.mp h
  exact Location.append_ne hm

theorem name_ne_lock (h : isSessionName n = true) (m : String) : n ≠ m ++ ".lock" := by
  obtain ⟨s, rfl⟩ := isSessionName_iff.mp h
  exact Location.append_ne_append rfl rfl (by decide)

theorem isBase_name (h : isSessionName n = true) (dir : Place) : Disk.isBase (dir ++ [n]) = false :=
  Disk.isBase_concat (name_ne h (by decide)) (name_ne h (by decide))

theorem mem_entries {d : Disk} {dir : Place} : n ∈ d.entries dir ↔ ∃ x, (dir ++ [n], x) ∈ d.nodes := by
  unfold Disk.entries
  rw [List.mem_filterMap]
  constructor
  · rintro ⟨⟨p, x⟩, hmem, hlast⟩
    dsimp only at hlast
    split at hlast
    · rename_i hdir
      rw [Bool.and_eq_true, beq_iff_eq] at hdir
      obtain ⟨names, rfl⟩ := List.getLast?_eq_some_iff.mp hlast
      rw [List.dropLast_concat] at hdir
      rw [← hdir.1]
      exact ⟨x, hmem⟩
    · cases hlast
  · rintro ⟨x, hmem⟩
    refine ⟨_, hmem, ?_⟩
    simp

theorem mem_entries_iff {d : Disk} {dir : Place} (h : isSessionName n = true) :
    n ∈ d.entries dir ↔ (d.node? (dir ++ [n])).isSome = true := by
  unfold Disk.node?
  rw [mem_entries, isBase_name h, if_neg Bool.false_ne_true, List.lookup_isSome_iff]
  constructor
  · rintro ⟨x, hmem⟩
    exact ⟨_, hmem, beq_self_eq_true _⟩
  · rintro ⟨⟨p, x⟩, hmem, he⟩
    rw [beq_iff_eq] at he
    rw [he]
    exact ⟨x, hmem⟩

theorem entries_nodup {d : Disk} (h : (d.nodes.map Prod.fst).Nodup) (dir : Place) : (d.entries dir).Nodup := by
  unfold Disk.entries
  refine (List.pairwise_map.mp h).filterMap _ fun p p' hne n hn n' hn' he => hne ?_
  split at hn
  · split at hn'
    · rename_i hdir hdir'
      rw [Bool.and_eq_true, beq_iff_eq] at hdir hdir'
      obtain ⟨names, hp⟩ := List.getLast?_eq_some_iff.mp hn
      obtain ⟨names', hp'⟩ := List.getLast?_eq_some_iff.mp hn'
      rw [hp, List.dropLast_concat] at hdir
      rw [hp', List.dropLast_concat] at hdir'
      rw [hp, hp', hdir.1, hdir'.1, he]
    · cases hn'
  · cases hn

theorem sessionNames_eq {d : Disk} (h : d.nodeAt directory = .ok (some .dir)) :
    sessionNames directory d =
      .ok (((d.entries directory.place).filter isSessionName).mergeSort fun a b => decide (a ≤ b)) := by
  obtain ⟨-, hreach, -⟩ := Disk.trodden_place h
  unfold sessionNames
  rw [h, hreach]
  rfl

theorem sessionNames_spec {d : Disk} (h : d.nodeAt directory = .ok (some .dir))
    (hd : (d.nodes.map Prod.fst).Nodup) : ∃ names, sessionNames directory d = .ok names ∧ names.Pairwise (· < ·) ∧
      ∀ n, n ∈ names ↔ isSessionName n = true ∧ (d.node? (directory.place ++ [n])).isSome = true := by
  refine ⟨_, sessionNames_eq h, ?_, fun n => ?_⟩
  · have hsorted := @List.pairwise_mergeSort String (fun a b => decide (a ≤ b))
      (fun a b c hab hbc => by simpa using String.le_trans (by simpa using hab) (by simpa using hbc))
      (fun a b => by simpa using String.le_total a b) ((d.entries directory.place).filter isSessionName)
    have hdistinct := (List.mergeSort_perm ((d.entries directory.place).filter isSessionName)
      fun a b : String => decide (a ≤ b)).nodup_iff.mpr ((entries_nodup hd directory.place).filter isSessionName)
    refine (hsorted.and hdistinct).imp fun {a b} hab => ?_
    obtain ⟨hle, hne⟩ := hab
    by_cases hlt : a < b
    · exact hlt
    · exact absurd (String.le_antisymm (by simpa using hle) (String.not_lt.mp hlt)) hne
  · rw [List.mem_mergeSort, List.mem_filter]
    constructor
    · rintro ⟨hmem, hn⟩
      exact ⟨hn, (mem_entries_iff hn).mp hmem⟩
    · rintro ⟨hn, hsome⟩
      exact ⟨(mem_entries_iff hn).mpr hsome, hn⟩

/-! ## One row -/

/-- There is no run, and no trouble with one. -/
inductive Bare : Option Node → Prop where
  | missing : Bare none
  | blank {c : ByteArray} {text : String} : String.fromUTF8? c = some text → Text.isBlankText text = true →
      Bare (some (.file c))
  | null {c : ByteArray} {text : String} : String.fromUTF8? c = some text → Json.parse text = .ok .null →
      Bare (some (.file c))

theorem stateOf_none_iff {text : String} : stateOf text = .ok none ↔
    Text.isBlankText text = true ∨ Json.parse text = .ok .null := by
  unfold stateOf
  cases Text.isBlankText text with
  | true => simp
  | false =>
    cases Json.parse text with
    | error e => cases e <;> simp
    | ok j => cases j <;> simp

theorem runIn_none_iff {x : Option Node} : Session.runIn x = .ok none ↔ Bare x := by
  have hsome (j : Json) : (Model.ofState j).map some ≠ .ok none := by
    cases Model.ofState j <;> simp [Except.map]
  constructor
  · intro h
    cases x with
    | none => exact .missing
    | some x =>
      cases x with
      | dir => cases h
      | file c =>
        simp only [Session.runIn, stateOfNode, stateOfBytes] at h
        cases ht : String.fromUTF8? c with
        | none =>
          rw [ht] at h
          cases h
        | some text =>
          rw [ht] at h
          dsimp only at h
          have hstate : stateOf text = .ok none := by
            split at h
            · cases h
            · assumption
            · exact absurd h (hsome _)
          rcases stateOf_none_iff.mp hstate with hblank | hnull
          · exact .blank ht hblank
          · exact .null ht hnull
  · intro h
    cases h with
    | missing => rfl
    | blank ht hblank => simp only [Session.runIn, stateOfNode, stateOfBytes, ht, stateOf_none_iff.mpr (.inl hblank)]
    | null ht hnull => simp only [Session.runIn, stateOfNode, stateOfBytes, ht, stateOf_none_iff.mpr (.inr hnull)]

/-- The row of a session file, as it stands in its directory. -/
inductive Row (directory : Location) (w : World σ) (n : String) : Option (List String) → Prop where
  | barred : ¬ Lockable w.held w.disk directory.place n → Row directory w n (some (unreadableRow n))
  | unreadable {f : Fault} : Lockable w.held w.disk directory.place n →
      Session.runIn (w.disk.node? (directory.place ++ [n])) = .error f → Row directory w n (some (unreadableRow n))
  | bare : Lockable w.held w.disk directory.place n → Bare (w.disk.node? (directory.place ++ [n])) →
      Row directory w n none
  | stored {m : Model} : Lockable w.held w.disk directory.place n →
      Session.runIn (w.disk.node? (directory.place ++ [n])) = .ok (some m) →
      Row directory w n (some [n, m.board, Value.intText m.timeline.length, lastLabel m.timeline,
        Value.intText m.timeline.cursor])

/-- What the file holds is not nested too deep, and the cursor of its run is not too long for a row. -/
structure Tellable (directory : Location) (w : World σ) (n : String) : Prop where
  shallow : ∀ k, Lockable w.held w.disk directory.place n →
    Session.runIn (w.disk.node? (directory.place ++ [n])) ≠ .error (.overflow k)
  numeral : ∀ m, Lockable w.held w.disk directory.place n →
    Session.runIn (w.disk.node? (directory.place ++ [n])) = .ok (some m) →
    Number.hasNumeral m.timeline.cursor = true

structure Alike (dir : Place) (n : String) (w w' : World σ) : Prop where
  held : w'.held = w.held
  file : w'.disk.node? (dir ++ [n]) = w.disk.node? (dir ++ [n])
  lock : w'.disk.node? (dir ++ [n ++ ".lock"]) = w.disk.node? (dir ++ [n ++ ".lock"])

theorem Alike.lockable {dir : Place} (h : Alike dir n w w') :
    Lockable w'.held w'.disk dir n ↔ Lockable w.held w.disk dir n := by
  rw [h.held]
  exact ⟨fun hl => hl.congr h.lock.symm, fun hl => hl.congr h.lock⟩

theorem Alike.tellable (h : Alike directory.place n w w') (ht : Tellable directory w n) :
    Tellable directory w' n := by
  refine ⟨fun k hlock => ?_, fun m hlock hrun => ?_⟩
  · rw [h.file]
    exact ht.shallow k (h.lockable.mp hlock)
  · rw [h.file] at hrun
    exact ht.numeral m (h.lockable.mp hlock) hrun

theorem Alike.row (h : Alike directory.place n w w') {cell : Option (List String)} (hr : Row directory w' n cell) :
    Row directory w n cell := by
  cases hr with
  | barred hl => exact .barred fun hl' => hl (h.lockable.mpr hl')
  | unreadable hl hrun =>
    rw [h.file] at hrun
    exact .unreadable (h.lockable.mp hl) hrun
  | bare hl hbare =>
    rw [h.file] at hbare
    exact .bare (h.lockable.mp hl) hbare
  | stored hl hrun =>
    rw [h.file] at hrun
    exact .stored (h.lockable.mp hl) hrun

theorem alike_of_adds {dir : Place} {names : List String} (hn : isSessionName n = true) (hmem : n ∉ names)
    (hheld : w'.held = w.held) (h : w.disk.Adds dir names w'.disk) : Alike dir n w w' := by
  refine ⟨hheld, h.same fun m _ he => ?_, h.same fun m hm he => ?_⟩
  · exact name_ne_lock hn m (List.singleton_inj.mp (List.append_cancel_left he))
  · have hlock : n ++ ".lock" = m ++ ".lock" := List.singleton_inj.mp (List.append_cancel_left he)
    rw [String.append_left_inj] at hlock
    exact hmem (hlock ▸ hm)

theorem hasNull_child (l : Location) (n : String) :
    (l.child n).hasNull = (l.hasNull || n.toList.any fun c => c.toNat == 0) := by
  unfold Location.hasNull Location.child
  rw [List.any_append]
  simp

theorem hasNull_of_check {l : Location} (h : l.check = .ok ()) : l.hasNull = false := by
  unfold Location.check at h
  split at h
  · cases h
  · rename_i hnull
    exact Bool.eq_false_iff.mpr hnull

section

variable (hdir : w.disk.nodeAt directory = .ok (some .dir)) (hn : isSessionName n = true)
include hdir hn

theorem resolve_listed : (directory.child n).resolve = .ok ((Location.ofPlace directory.place).child n) ∨
    (∃ f, (directory.child n).resolve = .error f) ∧ ¬ Lockable w.held w.disk directory.place n := by
  have hplace : (directory.child n).place = directory.place ++ [n] := directory.place_child (name_ne hn (by decide))
  unfold Location.resolve
  cases hnull : (directory.child n).hasNull with
  | false =>
    refine .inl ?_
    rw [if_neg Bool.false_ne_true, hplace, Location.ofPlace_concat (.inr (name_ne hn (by decide)))]
  | true =>
    refine .inr ⟨⟨_, rfl⟩, fun hl => ?_⟩
    rw [hasNull_child, hasNull_of_check (Disk.nodeAt_dir_iff.mp hdir).1, Bool.false_or] at hnull
    have hfree := hasNull_of_check hl.lock
    rw [hasNull_child, String.toList_append, List.any_append, hnull, Bool.true_or, Bool.or_true] at hfree
    cases hfree

theorem readModel_listed (hl : Lockable w.held w.disk directory.place n) :
    ∃ d, readModel (directory.child n) w =
        (Session.runIn (w.disk.node? (directory.place ++ [n])), w.withDisk d) ∧
      w.disk.Adds directory.place [n] d := by
  obtain ⟨htrod, -, hnode⟩ := Disk.trodden_place hdir
  rcases resolve_listed hdir hn with hres | ⟨-, hno⟩
  · obtain ⟨d, hread, hadds⟩ := read_lockable htrod hnode (name_ne hn (by decide)) hl
    refine ⟨d, ?_, hadds⟩
    unfold readModel Session.runIn
    rw [hres]
    dsimp only
    rw [hread]
    cases stateOfNode (w.disk.node? (directory.place ++ [n])) with
    | error f => rfl
    | ok o => cases o <;> rfl
  · exact absurd hl hno

theorem readModel_barred (hl : ¬ Lockable w.held w.disk directory.place n) :
    ∃ f, readModel (directory.child n) w = (.error f, w) ∧ f.isUnreadable = true := by
  obtain ⟨htrod, -, hnode⟩ := Disk.trodden_place hdir
  unfold readModel
  rcases resolve_listed hdir hn with hres | ⟨⟨f, hres⟩, -⟩
  · obtain ⟨f, hread, hunreadable⟩ := read_unlockable htrod hnode hl
    rw [hres]
    dsimp only
    rw [hread]
    exact ⟨f, rfl, hunreadable⟩
  · rw [hres]
    exact ⟨_, rfl, Fault.isUnreadable_disk _⟩

/-- **Listing one file tells its row.** -/
theorem listFile_row (ht : Tellable directory w n) : ∃ cell w', listFile directory n w = (.ok cell, w') ∧
    Row directory w n cell ∧ w.disk.Adds directory.place [n] w'.disk ∧ w'.held = w.held := by
  unfold listFile
  dsimp only
  by_cases hl : Lockable w.held w.disk directory.place n
  · obtain ⟨d, hread, hadds⟩ := readModel_listed hdir hn hl
    rw [hread]
    cases hrun : Session.runIn (w.disk.node? (directory.place ++ [n])) with
    | error f =>
      have hunreadable : f.isUnreadable = true :=
        Session.runIn_unreadable hrun fun k hk => ht.shallow k hl (hk ▸ hrun)
      dsimp only
      rw [if_pos hunreadable]
      exact ⟨_, _, rfl, .unreadable hl hrun, hadds, rfl⟩
    | ok o =>
      cases o with
      | none => exact ⟨_, _, rfl, .bare hl (runIn_none_iff.mp hrun), hadds, rfl⟩
      | some m =>
        refine ⟨_, w.withDisk d, ?_, .stored hl hrun, hadds, rfl⟩
        dsimp only
        unfold row
        rw [if_pos (ht.numeral m hl hrun)]
        rfl
  · obtain ⟨f, hread, hunreadable⟩ := readModel_barred hdir hn hl
    rw [hread]
    dsimp only
    rw [if_pos hunreadable]
    exact ⟨_, _, rfl, .barred hl, .refl _ _ _, rfl⟩

/-- **A file that cannot be told fails the listing of it.** -/
theorem listFile_untold (ht : ¬ Tellable directory w n) : ∃ f w', listFile directory n w = (.error f, w') := by
  unfold listFile
  dsimp only
  by_cases hl : Lockable w.held w.disk directory.place n
  · obtain ⟨d, hread, -⟩ := readModel_listed hdir hn hl
    rw [hread]
    cases hrun : Session.runIn (w.disk.node? (directory.place ++ [n])) with
    | error f =>
      cases hunreadable : f.isUnreadable with
      | true =>
        refine absurd ⟨fun k _ hk => ?_, fun m _ hm => ?_⟩ ht
        · cases hrun.symm.trans hk
          cases hunreadable
        · cases hrun.symm.trans hm
      | false => exact ⟨f, w.withDisk d, by simp [hunreadable]⟩
    | ok o =>
      cases o with
      | none =>
        refine absurd ⟨fun k _ hk => ?_, fun m _ hm => ?_⟩ ht
        · cases hrun.symm.trans hk
        · cases hrun.symm.trans hm
      | some m =>
        cases hnumeral : Number.hasNumeral m.timeline.cursor with
        | true =>
          refine absurd ⟨fun k _ hk => ?_, fun m' _ hm => ?_⟩ ht
          · cases hrun.symm.trans hk
          · cases hrun.symm.trans hm
            exact hnumeral
        | false => exact ⟨.noNumeral, w.withDisk d, by simp [row, hnumeral, Except.map]⟩
  · exact absurd ⟨fun _ h => absurd h hl, fun _ h => absurd h hl⟩ ht

end

/-! ## All rows -/

/-- **Listing files tells their rows as they are found at first.** -/
theorem listFiles_rows {names : List String} (hnames : ∀ n ∈ names, isSessionName n = true) (hd : names.Nodup)
    (hdir : w.disk.nodeAt directory = .ok (some .dir)) (ht : ∀ n ∈ names, Tellable directory w n) :
    ∃ cells w', listFiles directory names w = (.ok (cells.flatMap Option.toList), w') ∧
      List.Forall₂ (Row directory w) names cells ∧ w.disk.Adds directory.place names w'.disk := by
  induction names generalizing w with
  | nil => exact ⟨[], w, rfl, .nil, .refl _ _ _⟩
  | cons n ns ih =>
    obtain ⟨hnot, hd'⟩ := List.nodup_cons.mp hd
    have hname : isSessionName n = true := hnames n List.mem_cons_self
    obtain ⟨cell, w₁, hfile, hrow, hadds, hheld⟩ := listFile_row hdir hname (ht n List.mem_cons_self)
    have halike {m : String} (hm : m ∈ ns) : Alike directory.place m w w₁ := by
      refine alike_of_adds (hnames m (List.mem_cons_of_mem n hm)) (fun he => ?_) hheld hadds
      rw [List.mem_singleton.mp he] at hm
      exact hnot hm
    have hdir₁ : w₁.disk.nodeAt directory = .ok (some .dir) := Disk.nodeAt_of_keeps (fun _ h => hadds.kept h) hdir
    obtain ⟨cells, w₂, hfiles, hrows, hadds'⟩ := ih (fun m hm => hnames m (List.mem_cons_of_mem n hm)) hd' hdir₁
      fun m hm => (halike hm).tellable (ht m (List.mem_cons_of_mem n hm))
    refine ⟨cell :: cells, w₂, ?_, .cons hrow ?_, ?_⟩
    · unfold listFiles
      rw [hfile]
      dsimp only
      rw [hfiles]
      rfl
    · have hrows' := (List.forall₂_and_left (p := (· ∈ ns)) ns cells).mpr ⟨fun m hm => hm, hrows⟩
      exact hrows'.imp fun m cell h => (halike h.1).row h.2
    · refine (hadds.mono fun m hm => ?_).trans (hadds'.mono fun m hm => List.mem_cons_of_mem n hm)
      rw [List.mem_singleton.mp hm]
      exact List.mem_cons_self

theorem Alike.symm {dir : Place} (h : Alike dir n w w') : Alike dir n w' w := ⟨h.held.symm, h.file.symm, h.lock.symm⟩

/-- One file that cannot be told fails the listing of all. -/
theorem listFiles_untold {names : List String} (hnames : ∀ n ∈ names, isSessionName n = true) (hd : names.Nodup)
    (hdir : w.disk.nodeAt directory = .ok (some .dir)) (hn : n ∈ names) (ht : ¬ Tellable directory w n) :
    ∃ f w', listFiles directory names w = (.error f, w') := by
  induction names generalizing w with
  | nil => cases hn
  | cons m ms ih =>
    obtain ⟨hnot, hd'⟩ := List.nodup_cons.mp hd
    have hname : isSessionName m = true := hnames m List.mem_cons_self
    unfold listFiles
    by_cases hm : Tellable directory w m
    · obtain ⟨cell, w₁, hfile, -, hadds, hheld⟩ := listFile_row hdir hname hm
      have hmem : n ∈ ms := (List.mem_cons.mp hn).resolve_left fun he => ht (he ▸ hm)
      have halike : Alike directory.place n w w₁ := by
        refine alike_of_adds (hnames n hn) (fun he => ?_) hheld hadds
        exact hnot (List.mem_singleton.mp he ▸ hmem)
      have hdir₁ : w₁.disk.nodeAt directory = .ok (some .dir) := Disk.nodeAt_of_keeps (fun _ h => hadds.kept h) hdir
      obtain ⟨f, w', hfiles⟩ := ih (fun k hk => hnames k (List.mem_cons_of_mem m hk)) hd' hdir₁ hmem
        fun h => ht (halike.symm.tellable h)
      rw [hfile]
      dsimp only
      rw [hfiles]
      exact ⟨f, w', rfl⟩
    · obtain ⟨f, w', hfile⟩ := listFile_untold hdir hname hm
      rw [hfile]
      exact ⟨f, w', rfl⟩

/-! ## The cursors -/

theorem opened_listed {τ : Type} {s : Session τ} {v : World τ} (hfile : s.location = directory.child n)
    (hdir : v.disk.nodeAt directory = .ok (some .dir)) (hl : Lockable v.held v.disk directory.place n) :
    s.file = directory.place ++ [n] ∧ ∃ d, s.opened v = .ok d := by
  obtain ⟨htrod, -, hnode⟩ := Disk.trodden_place hdir
  have hdirectory : s.directory = directory := by
    have hparent := congrArg Location.parent hfile
    rwa [Location.parent_child, show s.location.parent = s.directory from Location.parent_child _ _] at hparent
  have hname : s.fileName = n := by
    rw [← hdirectory] at hfile
    exact Location.child_inj.mp hfile
  have hn : isSessionName n = true := isSessionName_iff.mpr ⟨_, hname.symm⟩
  have hres : s.resolved = .ok ((Location.ofPlace directory.place).child n) := by
    unfold Session.resolved
    rw [hfile]
    rcases resolve_listed hdir hn with hres | ⟨-, hno⟩
    · rw [hres]
      rfl
    · exact absurd hl hno
  refine ⟨?_, ?_⟩
  · rw [Session.file_eq, ← Session.eq_target hres, Location.parent_child, htrod.place_eq, hname]
  · obtain ⟨d, hlock⟩ := (takeLock_child_iff hnode hl.directory).mpr hl
    refine ⟨d, ?_⟩
    unfold Session.opened
    rw [hdirectory, Disk.makeDirs_of_dir hdir]
    dsimp only
    rw [hres]
    dsimp only
    rw [Location.parent_child, Disk.makeDirs_trodden htrod hl.directory]
    exact hlock

/-- A board's session has a listed file: it names it as the list does, or in another way that leads there. -/
def HasFile {τ : Type} (s : Session τ) (directory : Location) (n : String) (v : World τ) : Prop :=
  s.location = directory.child n ∨ s.file = directory.place ++ [n] ∧ ∃ d, s.opened v = .ok d

/-- **A run that is resumed from a listed file begins at the cursor of the journal in it.** -/
theorem started_of_stored {τ : Type} {b : Board τ} {v : World τ} {m : Model}
    (hdir : v.disk.nodeAt directory = .ok (some .dir)) (hl : Lockable v.held v.disk directory.place n)
    (hrun : Session.runIn (v.disk.node? (directory.place ++ [n])) = .ok (some m))
    (hfile : HasFile b.session directory n v) (ha : b.session.Agrees v) (limit : Nat) (x : Value) :
    ∃ moment, (b.trace limit x v).head? = some moment ∧ moment.event = .started m.timeline.cursor := by
  obtain ⟨hplace, d, hopened⟩ : b.session.file = directory.place ++ [n] ∧ ∃ d, b.session.opened v = .ok d := by
    rcases hfile with hfile | hfile
    · exact opened_listed hfile hdir hl
    · exact hfile
  rw [← hplace] at hrun
  have hfound : b.session.found v = .ok (some m) := by
    cases hnode : v.disk.node? b.session.file with
    | none =>
      rw [hnode] at hrun
      cases hrun
    | some x =>
      rw [Session.found_of_node hnode hopened, ← hnode]
      exact hrun
  obtain ⟨v', hload, hmodel⟩ := Session.load_of_found hfound ha []
  obtain ⟨moment, hhead, hevent, -⟩ := Board.started_of_load hload hmodel limit x
  exact ⟨moment, hhead, hevent⟩

/-! ## The list -/

/-- The names of the session files in the order of the names, and for each the row that it has. -/
structure Rows (directory : Location) (w : World σ) (names : List String) (cells : List (Option (List String))) :
    Prop where
  ascending : names.Pairwise (· < ·)
  complete : ∀ n, n ∈ names ↔ isSessionName n = true ∧ (w.disk.node? (directory.place ++ [n])).isSome = true
  each : List.Forall₂ (Row directory w) names cells

def listOf (directory : Location) (names : List String) (cells : List (Option (List String))) : Printed :=
  if names = [] then .text ("No sessions in " ++ directory.text) none
  else .table ("Sessions in " ++ directory.text) columns (cells.flatMap Option.toList)

structure Listed (directory : Location) (w : World σ) (r : Report σ) : Prop where
  code : r.exit.code? = some 0
  rows : ∃ names cells, Rows directory w names cells ∧ r.printed = [listOf directory names cells]
  kept : ∀ p x, w.disk.node? p = some x → r.world.disk.node? p = some x
  /-- Just files that stand for locks are new. -/
  added : ∀ p, w.disk.node? p = none → r.world.disk.node? p = none ∨
    r.world.disk.node? p = some (.file ByteArray.empty) ∧
      ∃ n, isSessionName n = true ∧ p = directory.place ++ [n ++ ".lock"]
  starts : ∀ {τ : Type} (b : Board τ) (v : World τ) (n : String) (m : Model) (limit : Nat) (x : Value),
    v.disk = w.disk → v.held = w.held → Lockable w.held w.disk directory.place n →
    Session.runIn (w.disk.node? (directory.place ++ [n])) = .ok (some m) → HasFile b.session directory n v →
    b.session.Agrees v →
    ∃ moment, (b.trace limit x v).head? = some moment ∧ moment.event = .started m.timeline.cursor

theorem listSessions_eq {names : List String} {cells : List (Option (List String))}
    (hnames : sessionNames directory w.disk = .ok names)
    (hrows : listFiles directory names w = (.ok (cells.flatMap Option.toList), w')) :
    listSessions directory w = (.ok (0, listOf directory names cells), w') := by
  unfold listSessions
  rw [hnames]
  cases names with
  | nil =>
    obtain rfl : w = w' := (Prod.mk.inj hrows).2
    rfl
  | cons n ns =>
    dsimp only
    rw [hrows]
    rfl

theorem showAll_ok {console : Console} {texts : List String} (h : ∀ text ∈ texts, console.Shows text) :
    showAll console texts = .ok () := by
  induction texts with
  | nil => rfl
  | cons text texts ih =>
    obtain ⟨⟨shown, hshown⟩, htexts⟩ := List.forall_mem_cons.mp h
    rw [showAll, hshown]
    exact ih htexts

/-- What is asked for is done with the settings that hold, once the log knows its level. -/
theorem run_list (console : Console) {arguments : List String} {environment : List (String × String)}
    {path : Option String} {settings : Settings} (ha : Arguments.read arguments = .ok ⟨path, .list⟩)
    (hs : Settings.loadAt [] environment w.disk = .ok settings) (hlevel : settings.logLevel ∈ Log.levelNames) :
    ∃ level, run console arguments environment w = perform console (withPath settings path) .list level w := by
  obtain ⟨levels, hl⟩ := Option.isSome_iff_exists.mp (Log.levelsOf?_isSome_iff.mpr hlevel)
  refine ⟨levels.shown, ?_⟩
  unfold run
  rw [ha]
  dsimp only
  rw [hs]
  dsimp only
  unfold runWith
  rw [withPath_logLevel, hl]

/-- **The list of the sessions in a directory** has a row for every file that stores a run or cannot be read, and tells
where a run that is resumed from it begins. The console must show what is in the rows. -/
theorem list_agrees {arguments : List String} {environment : List (String × String)} {path : Option String}
    {settings : Settings} (ha : Arguments.read arguments = .ok ⟨path, .list⟩)
    (hs : Settings.loadAt [] environment w.disk = .ok settings) (hlevel : settings.logLevel ∈ Log.levelNames)
    (hdir : w.disk.nodeAt (withPath settings path).sessionsPath = .ok (some .dir))
    (hd : (w.disk.nodes.map Prod.fst).Nodup)
    (ht : ∀ n, isSessionName n = true → Tellable (withPath settings path).sessionsPath w n)
    (hshows : ∀ names cells, Rows (withPath settings path).sessionsPath w names cells →
      ∀ text ∈ (listOf (withPath settings path).sessionsPath names cells).markups, console.Shows text) :
    Listed (withPath settings path).sessionsPath w (run console arguments environment w) := by
  obtain ⟨level, hrun⟩ := run_list console ha hs hlevel
  generalize withPath settings path = settings' at hdir ht hshows hrun ⊢
  obtain ⟨names, hnames, hstrict, hmem⟩ := sessionNames_spec hdir hd
  have hnodup : names.Nodup := hstrict.imp fun hlt he => absurd (he ▸ hlt) (String.lt_irrefl _)
  obtain ⟨cells, w', hfiles, hrows, hadds⟩ := listFiles_rows (fun n hn => ((hmem n).mp hn).1) hnodup hdir
    fun n hn => ht n ((hmem n).mp hn).1
  have hlisted : Rows settings'.sessionsPath w names cells := ⟨hstrict, hmem, hrows⟩
  have htask : shownTask console settings' .list w = (.ok (0, listOf settings'.sessionsPath names cells), w') := by
    unfold shownTask
    rw [show task settings' .list w = listSessions settings'.sessionsPath w from rfl, listSessions_eq hnames hfiles]
    dsimp only
    rw [showAll_ok (hshows names cells hlisted)]
    rfl
  rw [hrun]
  unfold perform
  rw [htask]
  refine ⟨rfl, ⟨names, cells, hlisted, rfl⟩, fun p x hx => hadds.kept hx, fun p hnone => ?_, ?_⟩
  · rcases hadds p with hp | ⟨-, hp, n, hn, he⟩
    · exact .inl (hp.trans hnone)
    · exact .inr ⟨hp, n, ((hmem n).mp hn).1, he⟩
  · intro τ b v n m limit x hdisk hheld hlock hstored hfile hagrees
    rw [← hdisk] at hdir hlock hstored
    rw [← hheld] at hlock
    exact started_of_stored hdir hlock hstored hfile hagrees limit x

/-- One file that cannot be told ends the program with 1, and nothing is printed of the others. -/
theorem list_untold {arguments : List String} {environment : List (String × String)} {path : Option String}
    {settings : Settings} (ha : Arguments.read arguments = .ok ⟨path, .list⟩)
    (hs : Settings.loadAt [] environment w.disk = .ok settings) (hlevel : settings.logLevel ∈ Log.levelNames)
    (hdir : w.disk.nodeAt (withPath settings path).sessionsPath = .ok (some .dir))
    (hd : (w.disk.nodes.map Prod.fst).Nodup) (hn : isSessionName n = true)
    (hnode : (w.disk.node? ((withPath settings path).sessionsPath.place ++ [n])).isSome = true)
    (ht : ¬ Tellable (withPath settings path).sessionsPath w n) :
    (run console arguments environment w).exit.code? = some 1 ∧ (run console arguments environment w).printed = [] := by
  obtain ⟨level, hrun⟩ := run_list console ha hs hlevel
  generalize withPath settings path = settings' at hdir hnode ht hrun
  obtain ⟨names, hnames, hstrict, hmem⟩ := sessionNames_spec hdir hd
  have hnodup : names.Nodup := hstrict.imp fun hlt he => absurd (he ▸ hlt) (String.lt_irrefl _)
  obtain ⟨f, w', hfiles⟩ := listFiles_untold (fun m hm => ((hmem m).mp hm).1) hnodup hdir ((hmem n).mpr ⟨hn, hnode⟩) ht
  have htask : shownTask console settings' .list w = (.error f, w') := by
    unfold shownTask
    rw [show task settings' .list w = listSessions settings'.sessionsPath w from rfl]
    unfold listSessions
    rw [hnames]
    cases names with
    | nil => cases (hmem n).mpr ⟨hn, hnode⟩
    | cons m ms =>
      dsimp only
      rw [hfiles]
      rfl
  rw [hrun]
  unfold perform
  rw [htask]
  exact ⟨rfl, rfl⟩

def listingHere : List String := ["--sessions-path", "."] ++ listing

theorem listingHere_read : Arguments.read listingHere = .ok ⟨some ".", .list⟩ := rfl

theorem here_dir (d : Disk) : d.nodeAt (Location.ofText ".") = .ok (some .dir) :=
  Disk.nodeAt_dir_iff.mpr ⟨rfl, [], rfl, rfl⟩

def desk : World Unit :=
  { World.blank () with
    disk := ⟨[(["a.json"], .file (Session.bytesOf Session.lastNight)), (["b.json"], .file "\x7b".toUTF8)]⟩ }

theorem lastNight_valid : ∀ r ∈ Session.lastNight.timeline, r.IsValid :=
  List.forall_mem_singleton.mpr (Timeline.isValid_entry [] "A" "key_frame" 0 (.int 0) true)

/-- There is a run in one file, no Json in the other, and nothing else. -/
theorem desk_run (hn : isSessionName n = true) :
    (desk.disk.node? [n] = none ∧ Session.runIn (desk.disk.node? [n]) = .ok none) ∨
    (n = "a.json" ∧ Session.runIn (desk.disk.node? [n]) = .ok (some Session.lastNight.reread)) ∨
    (n = "b.json" ∧ Session.runIn (desk.disk.node? [n]) = .error .badJson) := by
  cases hnode : desk.disk.node? [n] with
  | none => exact .inl ⟨rfl, rfl⟩
  | some x =>
    have hmem : n ∈ desk.disk.entries [] := (mem_entries_iff hn).mpr (by rw [List.nil_append, hnode]; rfl)
    rw [show desk.disk.entries [] = ["a.json", "b.json"] from rfl, List.mem_cons, List.mem_singleton] at hmem
    rw [← hnode]
    rcases hmem with rfl | rfl
    · exact .inr (.inl ⟨rfl, Session.runIn_bytesOf (by decide +kernel) lastNight_valid⟩)
    · exact .inr (.inr ⟨rfl, rfl⟩)

theorem desk_tellable (hn : isSessionName n = true) : Tellable (Location.ofText ".") desk n := by
  refine ⟨fun k _ hrun => ?_, fun m _ hrun => ?_⟩
  · rcases desk_run hn with ⟨-, h⟩ | ⟨-, h⟩ | ⟨-, h⟩
    all_goals cases h.symm.trans hrun
  · rcases desk_run hn with ⟨-, h⟩ | ⟨-, h⟩ | ⟨-, h⟩
    · cases h.symm.trans hrun
    · cases h.symm.trans hrun
      decide +kernel
    · cases h.symm.trans hrun

theorem mem_markups_table {title : String} {heads : List String} {rows : List (List String)} {text : String}
    (h : text ∈ (Printed.table title heads rows).markups) :
    text = title ∨ text ∈ heads ∨ text = "" ∨ ∃ r ∈ rows, text ∈ r := by
  rw [Printed.markups, List.mem_append, List.mem_singleton, List.mem_flatten] at h
  rcases h with ⟨column, hcolumn, htext⟩ | h
  · obtain ⟨i, hi, rfl⟩ := List.mem_mapIdx.mp hcolumn
    rcases List.mem_cons.mp htext with rfl | htext
    · exact .inr (.inl (List.getElem_mem hi))
    · obtain ⟨r, hr, rfl⟩ := List.mem_map.mp htext
      cases hcell : r[i]? with
      | none => exact .inr (.inr (.inl rfl))
      | some cell => exact .inr (.inr (.inr ⟨r, hr, List.mem_of_getElem? hcell⟩))
  · exact .inl h

theorem desk_row (hfile : n = "a.json" ∨ n = "b.json") {cells : List String}
    (h : Row (Location.ofText ".") desk n (some cells)) : ∀ text ∈ cells, Console.marked.Shows text := by
  have hunreadable : ∀ text ∈ unreadableRow n, Console.marked.Shows text := by
    rcases hfile with rfl | rfl
    · decide +kernel
    · decide +kernel
  cases h with
  | barred => exact hunreadable
  | unreadable => exact hunreadable
  | stored _ hrun =>
    have hn : isSessionName n = true := by rcases hfile with rfl | rfl <;> rfl
    rcases desk_run hn with ⟨-, h⟩ | ⟨rfl, h⟩ | ⟨-, h⟩
    · cases h.symm.trans hrun
    · cases h.symm.trans hrun
      decide +kernel
    · cases h.symm.trans hrun

theorem desk_shown (names : List String) (cells : List (Option (List String)))
    (h : Rows (Location.ofText ".") desk names cells) :
    ∀ text ∈ (listOf (Location.ofText ".") names cells).markups, Console.marked.Shows text := by
  have hrow : ∀ r ∈ cells.flatMap Option.toList, ∀ text ∈ r, Console.marked.Shows text := by
    intro r hr
    obtain ⟨cell, hcell, hr⟩ := List.mem_flatMap.mp hr
    obtain ⟨i, hi, rfl⟩ := List.getElem_of_mem hcell
    obtain ⟨hlength, heach⟩ := List.forall₂_iff_get.mp h.each
    have hn : i < names.length := by omega
    have hrow := heach i hn hi
    rw [List.get_eq_getElem, List.get_eq_getElem, Option.mem_toList.mp hr] at hrow
    obtain ⟨hname, hnode⟩ := (h.complete names[i]).mp (List.getElem_mem hn)
    rcases desk_run hname with ⟨hnone, -⟩ | ⟨hfile, -⟩ | ⟨hfile, -⟩
    · rw [show (Location.ofText ".").place ++ [names[i]] = [names[i]] from rfl, hnone] at hnode
      cases hnode
    · exact desk_row (.inl hfile) hrow
    · exact desk_row (.inr hfile) hrow
  intro text htext
  unfold listOf at htext
  split at htext
  · rw [List.mem_singleton.mp htext]
    decide +kernel
  · rcases mem_markups_table htext with rfl | hhead | rfl | ⟨r, hr, hcell⟩
    · decide +kernel
    · exact (by decide +kernel : ∀ head ∈ columns, Console.marked.Shows head) text hhead
    · decide +kernel
    · exact hrow r hr text hcell

theorem settings_here (d : Disk) (h : d.file? Settings.variablesPlace = none) :
    ∃ settings, Settings.loadAt [] [] d = .ok settings ∧ settings.logLevel ∈ Log.levelNames := by
  have hsound : Settings.Sound [] [] := ⟨nofun, nofun⟩
  obtain ⟨settings, hs⟩ := Settings.load_of_sound hsound
  refine ⟨settings, ?_, ?_⟩
  · unfold Settings.loadAt Settings.fileVariables
    rw [h]
    exact hs
  · rw [Settings.load_logLevel hs]
    decide

theorem desk_listed : Listed (Location.ofText ".") desk (run .marked listingHere [] desk) := by
  obtain ⟨settings, hs, hlevel⟩ := settings_here desk.disk rfl
  exact list_agrees listingHere_read hs hlevel (here_dir _) (by decide) (fun n hn => desk_tellable hn) desk_shown

/-! ## Lists that break off -/

def lonely (c : ByteArray) : World Unit := { World.blank () with disk := ⟨[(["a.json"], .file c)]⟩ }

theorem lonely_untold {c : ByteArray} (h : ¬ Tellable (Location.ofText ".") (lonely c) "a.json") :
    (run console listingHere [] (lonely c)).exit.code? = some 1 := by
  obtain ⟨settings, hs, hlevel⟩ := settings_here (lonely c).disk rfl
  have hd : ((lonely c).disk.nodes.map Prod.fst).Nodup := List.nodup_singleton _
  exact (list_untold listingHere_read hs hlevel (here_dir _) hd rfl rfl h).1

theorem lonely_lockable (c : ByteArray) : Lockable (lonely c).held (lonely c).disk (Location.ofText ".").place "a.json" :=
  ⟨rfl, rfl, rfl, nofun, fun _ => rfl⟩

/-- The cursor behind its record has one digit more than a numeral may have. -/
def longNight : Model := ⟨"a", [⟨.int (10 ^ Number.numeralLimit - 1), "A", "key_frame", .int 0, .bool true, .int 0⟩]⟩

def taggedNight : Model := ⟨"[/x]", []⟩

/-- What is just null has no row, though it is not blank and no run. A list breaks off at what is nested too deep, at a
cursor that is too long, and at a name that closes a tag which is not open. -/
theorem lists_broken :
    (Text.isBlankText "null" = false ∧ Json.parse "null" = .ok .null ∧ (∃ f, Model.ofState .null = .error f) ∧
      (run .marked listingHere [] (lonely "null".toUTF8)).printed =
        [.table "Sessions in ." columns []]) ∧
    (run .marked listingHere [] (lonely (deepBytes 1000 []))).exit.code? = some 1 ∧
    (run .marked listingHere [] (lonely (Session.bytesOf longNight))).exit.code? = some 1 ∧
    (run .marked listingHere [] (lonely (Session.bytesOf taggedNight))).exit.code? = some 1 := by
  refine ⟨⟨rfl, Session.parse_null, ⟨_, rfl⟩, ?_⟩, lonely_untold fun h => ?_, lonely_untold fun h => ?_, ?_⟩
  · decide +kernel
  · exact h.shallow _ (lonely_lockable _) (Session.runIn_deep (by decide) [])
  · have hvalid : ∀ r ∈ longNight.timeline, r.IsValid := List.forall_mem_singleton.mpr ⟨⟨_, rfl⟩, ⟨_, rfl⟩, .inr ⟨_, rfl⟩⟩
    have hnumeral := h.numeral _ (lonely_lockable _) (Session.runIn_bytesOf (by decide +kernel) hvalid)
    revert hnumeral
    decide +kernel
  · decide +kernel

end Boardwalk.Command
