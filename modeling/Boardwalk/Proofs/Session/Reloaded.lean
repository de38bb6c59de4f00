import Boardwalk.Proofs.Record.Codable
import Boardwalk.Proofs.Session.Stored
/-!
# Journals that are saved and loaded again

After a save that succeeds any session of the same file loads the journal with its outputs in the form that their
texts have, and a save of what was loaded leaves every byte of the file as it is (`loaded_as_saved`).
-/

namespace Boardwalk

open StateFile

theorem Model.bytes?_reread {m : Model} (h : ∀ r ∈ m.timeline, r.output.IsCodable) : m.reread.bytes? = m.bytes? := by
  unfold bytes?
  rw [Model.normal_reread h]

namespace Session

variable {σ : Type} {s s' : Session σ}

/-- A session of the file of another one: it finds it at the same place, by a directory that is there or can be
made. -/
structure SharesFile (s' s : Session σ) (d : Disk) : Prop where
  resolved : s'.resolved = s.resolved
  directory : ∃ p, (d.makeDirs s'.directory).1 = .ok p

theorem readFile_of_dirs {w : World σ} {p : Place} {d : Disk} (hd : w.disk.makeDirs s.directory = (.ok p, d))
    (hl : s.resolved = .ok s.target) (hr : StateFile.Ready w.held s.target w.disk) :
    s.Ready w.held d ∧ s.readFile w = (stateOfNode (d.node? s.file), w.withDisk d) := by
  have hs : Disk.StaysBut s.file w.disk d := by
    have := Disk.stays_makeDirs s.file w.disk s.directory
    rw [hd] at this
    exact this
  have hready : StateFile.Ready w.held s.target d := hr.of_stays hs (file_ne_lock s s)
  refine ⟨⟨⟨p, Disk.makeDirs_again hd fun _ h => h⟩, hl, hready⟩, ?_⟩
  unfold readFile
  rw [hd]
  dsimp only
  rw [hl]
  dsimp only
  rw [hready.read_eq]
  rfl

theorem save_of_write {a : Address} {w : World σ} {m : Model} {c : ByteArray} {d : Disk}
    (hm : w.model? a = some m) (hl : s.resolved = .ok s.target) (hc : m.bytes? = some c)
    (hw : StateFile.write w.held s.target (some c) w.disk = (.ok (), d)) : (s.save a w).1 = .ok () := by
  obtain ⟨j, hj, hwritable, hbytes⟩ := Model.bytes?_inv hc
  have hd : s.draft m = .ok (s.target, j) := by
    unfold draft
    rw [hl, hj]
    rfl
  unfold save
  rw [hm]
  dsimp only
  rw [hd]
  dsimp only
  rw [if_pos hwritable, hbytes, hw]

theorem readFile_of_holds {w : World σ} {m : Model} (hl : s.resolved = .ok s.target)
    (hr : StateFile.Ready w.held s.target w.disk) (hdirs : ∃ p, (w.disk.makeDirs s.directory).1 = .ok p)
    (hf : s.FileHolds m w.disk) : ∃ j d, m.normal = .ok j ∧ s.readFile w = (.ok (some j.reread), w.withDisk d) ∧
      s.Ready w.held d ∧ w.disk.KeepsDirs d ∧ d.node? s.file = w.disk.node? s.file := by
  obtain ⟨p, hp⟩ := hdirs
  have hmade : w.disk.makeDirs s.directory = (.ok p, (w.disk.makeDirs s.directory).2) := Prod.ext hp rfl
  obtain ⟨content, hbytes, hnode⟩ := hf
  have hnode' : (w.disk.makeDirs s.directory).2.node? s.file = some (.file content) := Disk.node?_makeDirs hnode
  obtain ⟨hready, hread⟩ := readFile_of_dirs hmade hl hr
  obtain ⟨j, hj, hstate⟩ := FileHolds.form ⟨content, hbytes, hnode'⟩
  rw [hstate] at hread
  exact ⟨j, _, hj, hread, hready, (Disk.stays_makeDirs [] w.disk s.directory).keepsDirs, hnode'.trans hnode.symm⟩

/-- A session whose file holds a journal loads it as it is read back. It leaves all that a save needs, unless the
question to the user does not. -/
theorem load_of_holds {w : World σ} {m : Model} (a : Address) (hl : s.resolved = .ok s.target)
    (hr : StateFile.Ready w.held s.target w.disk) (hdirs : ∃ p, (w.disk.makeDirs s.directory).1 = .ok p)
    (hf : s.FileHolds m w.disk) (hv : ∀ r ∈ m.timeline, r.IsValid) (ha : s.Agrees w) :
    ∃ w', s.load a w = (.ok (.ok m.reread), w') ∧ w'.model? a = some m.reread ∧
      ((s.isNested = true ∨ ∀ message, s.Spares (s.confirm message)) →
        s.Ready w'.held w'.disk ∧ w.disk.KeepsDirs w'.disk ∧ w'.disk.node? s.file = w.disk.node? s.file) := by
  obtain ⟨j, d, hj, hread, hready, hkeeps, hnode⟩ := readFile_of_holds hl hr hdirs hf
  obtain ⟨w', hload, hmodel, hheld, hdisk⟩ := load_of_state a hread (Model.ofState_reread hv hj) ha
  refine ⟨w', hload, hmodel, fun hq => ?_⟩
  have hk := resumeAgreed_keeps hq m.reread (w.withDisk d)
  rw [← hdisk] at hk
  rw [hheld, hk.file]
  exact ⟨hready.of_keeps hk, fun q hdir => hk.dirs q (hkeeps q hdir), hnode⟩

section

variable {a a' : Address} {w w' : World σ} {m : Model} (hm : w.model? a = some m)
  (hv : ∀ r ∈ m.timeline, r.IsValid) (hc : ∀ r ∈ m.timeline, r.output.IsCodable)
  (hs : (s.save a w).1 = .ok ()) (hdisk : w'.disk = (s.save a w).2.disk) (hfree : s.lock ∉ w'.held)
  (hsame : s'.SharesFile s w'.disk) (ha : s'.Agrees w')
include hm hv hc hs hdisk hfree hsame ha

/-- **What a save left in the file is loaded by any session of this file**: the records as they were, and their
outputs in the form of their texts. Saving it again leaves the same bytes. -/
theorem loaded_as_saved : ∃ content w₁,
    w'.disk.node? s.file = some (.file content) ∧
    s'.load a' w' = (.ok (.ok ⟨m.board, m.timeline.map fun r => { r with output := r.output.asRead }⟩), w₁) ∧
    ((s'.save a' w₁).1 = .ok () → (s'.save a' w₁).2.disk.node? s.file = some (.file content)) ∧
    ((s'.isNested = true ∨ ∀ message, s'.Spares (s'.confirm message)) → (s'.save a' w₁).1 = .ok ()) := by
  obtain ⟨m', c, hm', hl, hc', hwrite⟩ := save_inv hs
  obtain rfl := Option.some.inj (hm.symm.trans hm')
  have htarget : s.target = s'.target := eq_target (hsame.resolved.trans hl)
  have hl' : s'.resolved = .ok s'.target := by rw [hsame.resolved, hl, htarget]
  have hfile : s.file = s'.file := congrArg filePlace htarget
  rw [← hdisk, htarget] at hwrite
  rw [hfile]
  have hnode : w'.disk.node? s'.file = some (.file c) := by
    obtain ⟨c₁, hc₁, hn⟩ := write_ok hwrite
    cases hc₁
    exact hn
  -- the first save left the text, the lock and the directories that the new session needs
  have hlock : s.lock = s'.lock := congrArg lockPlace htarget
  have hfree' : w'.held.contains s'.lock = false := by simpa [hlock] using hfree
  obtain ⟨hdirs, hallowed, hmade, -⟩ := ready_of_write hwrite (file_ne_lock s' s')
  obtain ⟨w₁, hload, hmodel, hquiet⟩ := load_of_holds a' hl' ⟨hdirs, hallowed, hmade, hfree'⟩
    hsame.directory ⟨c, hc', hnode⟩ hv ha
  refine ⟨_, w₁, hnode, ?_, fun hagain => ?_, fun hq => ?_⟩
  · rw [hload, Model.reread_eq hc]
  · obtain ⟨m₁, hm₁, content, hbytes, hn⟩ := save_ok hagain
    obtain rfl := Option.some.inj (hmodel.symm.trans hm₁)
    rw [Model.bytes?_reread hc, hc'] at hbytes
    rw [hn, Option.some.inj hbytes]
  · obtain ⟨hready, hkeeps, hsame'⟩ := hquiet hq
    obtain ⟨d, hover⟩ := hready.file.write_over hwrite hkeeps (hsame'.trans hnode) c
    exact save_of_write hmodel hl' ((Model.bytes?_reread hc).trans hc') hover

end

/-! ### A journal with all kinds of outputs -/

def mixed : Model :=
  ⟨"p", [⟨.int 0, "A", "key_frame", .row [.bytes "é".toUTF8, .dict [("k", .list [.null])]], .bool true, .int 0⟩,
    ⟨.int 1, "B", "story_frame", .record (.int 7) "C" "loop_frame" (.str "\n") (.bool true) .null, .bool false, .null⟩]⟩

def mixedWorld : World Unit := (World.blank ()).remember [] mixed

theorem mixed_codable : ∀ r ∈ mixed.timeline, r.output.IsCodable := by
  have hrecord : (Record.mk (.int 7) "C" "loop_frame" (.str "\n") (.bool true) .null).toValue.IsCodable :=
    .record ⟨⟨7, rfl⟩, ⟨true, rfl⟩, .inl rfl⟩ (.str "\n")
  have hdict : (Value.dict [("k", .list [.null])]).IsCodable := by
    refine .dict (by decide) fun f hf => ?_
    rw [List.mem_singleton.mp hf]
    exact .list fun v hv => List.mem_singleton.mp hv ▸ .null
  simp only [mixed, List.forall_mem_cons]
  refine ⟨.row ?_, hrecord, by simp⟩
  simp only [List.forall_mem_cons]
  exact ⟨.bytes (fromUTF8?_toUTF8 "é"), hdict, by simp⟩

/-- The mixed journal is read back with its rows as lists, its bytes as texts and its record as fields. -/
theorem mixed_loaded_as_saved : ∃ content w₁,
    ((plain none "p").save [] mixedWorld).2.disk.node? ["p.json"] = some (.file content) ∧
    (plain none "p").load [] ((plain none "p").save [] mixedWorld).2 = (.ok (.ok
      ⟨"p", [⟨.int 0, "A", "key_frame", .list [.str "é", .dict [("k", .list [.null])]], .bool true, .int 0⟩,
        ⟨.int 1, "B", "story_frame", .dict [("index", .int 7), ("name", .str "C"), ("type", .str "loop_frame"),
          ("output", .str "\n"), ("completed", .bool true), ("frameIndex", .null)], .bool false, .null⟩]⟩), w₁) ∧
    ((plain none "p").save [] w₁).2.disk.node? ["p.json"] = some (.file content) := by
  have hv : ∀ r ∈ mixed.timeline, r.IsValid := by
    simp only [mixed, List.forall_mem_cons]
    exact ⟨⟨⟨0, rfl⟩, ⟨true, rfl⟩, .inr ⟨0, rfl⟩⟩, ⟨⟨1, rfl⟩, ⟨false, rfl⟩, .inl rfl⟩, by simp⟩
  have hruns : ((plain none "p").save [] mixedWorld).1.toBool = true ∧
      (((plain none "p").save [] mixedWorld).2.disk.makeDirs (plain none "p" : Session Unit).directory).1.toBool =
        true := by
    decide +kernel
  have hm : mixedWorld.model? [] = some mixed := World.model?_remember_self _ _ _
  obtain ⟨_, hs⟩ := ok_of_toBool hruns.1
  have hfree : (plain none "p" : Session Unit).lock ∉ ((plain none "p").save [] mixedWorld).2.held := by
    rw [(save_rest _ _ _).2.2]
    exact List.not_mem_nil
  obtain ⟨content, w₁, hnode, hload, hsame, hagain⟩ :=
    loaded_as_saved hm hv mixed_codable hs rfl hfree ⟨rfl, ok_of_toBool hruns.2⟩ (agrees_plain none "p" _)
  refine ⟨content, w₁, hnode, ?_, hsame (hagain (.inr fun _ => spares_of_disk fun _ => rfl))⟩
  rw [hload]
  simp only [mixed, List.map_cons, List.map_nil, Value.asRead, Value.asReadItems, Value.asReadFields,
    fromUTF8?_toUTF8]

end Session

end Boardwalk
