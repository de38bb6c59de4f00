import Boardwalk.Proofs.Record.Lasting
import Boardwalk.Proofs.Session.Fresh
import Boardwalk.Proofs.Session.Reloaded
/-!
# Journals that are built, saved and loaded

A session is loaded, calls are made on its journal, and it is saved. Then any session of its file loads the records as
they were, just if all of them last (`built_loads_iff`).
-/

namespace Boardwalk.Session

open StateFile

variable {σ : Type} {s s' : Session σ}

/-- After a save any session of the file finds all that it needs, and what was saved. -/
theorem holds_of_saved {a : Address} {w w' : World σ} {m : Model} (hm : w.model? a = some m)
    (hs : (s.save a w).1 = .ok ()) (hdisk : w'.disk = (s.save a w).2.disk) (hfree : s.lock ∉ w'.held)
    (hsame : s'.SharesFile s w'.disk) :
    s'.resolved = .ok s'.target ∧ StateFile.Ready w'.held s'.target w'.disk ∧ s'.FileHolds m w'.disk := by
  obtain ⟨m', c, hm', hl, hc, hwrite⟩ := save_inv hs
  obtain rfl := Option.some.inj (hm.symm.trans hm')
  have htarget : s.target = s'.target := eq_target (hsame.resolved.trans hl)
  have hlock : s.lock = s'.lock := congrArg lockPlace htarget
  have hfree' : w'.held.contains s'.lock = false := by simpa [hlock] using hfree
  rw [← hdisk, htarget] at hwrite
  obtain ⟨hdirs, hallowed, hmade, -⟩ := ready_of_write hwrite (file_ne_lock s' s')
  obtain ⟨c', hc', hnode⟩ := write_ok hwrite
  cases hc'
  refine ⟨?_, ⟨hdirs, hallowed, hmade, hfree'⟩, c, hc, hnode⟩
  rw [hsame.resolved, hl, htarget]

theorem load_refused {w w' w₁ : World σ} {j : Json} {f : Fault} {m : Model} {a : Address}
    (hr : s.readFile w = (.ok (some j), w₁)) (hj : Model.ofState j = .error f) :
    s.load a w ≠ (.ok (.ok m), w') := by
  have hs : s.storedModel w = (.error f, w₁) := by
    unfold storedModel
    simp only [hr, hj]
  unfold load
  simp only [hs]
  split
  · intro h
    cases h
  · intro h
    cases h

theorem load_iff {w w₁ : World σ} {j : Json} {m : Model} (a : Address) (hr : s.readFile w = (.ok (some j), w₁))
    (ha : s.Agrees w) : (∃ w', s.load a w = (.ok (.ok m), w')) ↔ Model.ofState j = .ok m := by
  cases hj : Model.ofState j with
  | error f =>
    constructor
    · rintro ⟨w', h⟩
      exact absurd h (load_refused hr hj)
    · intro h
      cases h
  | ok m' =>
    obtain ⟨w', hload, -⟩ := load_of_state a hr hj ha
    rw [hload]
    constructor
    · rintro ⟨w'', h⟩
      cases h
      rfl
    · intro h
      cases h
      exact ⟨w', rfl⟩

section

variable {a a' : Address} {w₀ w w₁ w₂ : World σ} {answer : Answer Model} {m : Model} {calls : List Timeline.Call}
  (hload : s.load a w₀ = (.ok answer, w)) (hm : w.model? a = some m)
  (hcalls : w₁.model? a = some ⟨m.board, m.timeline.after calls⟩) (hs : (s.save a w₁).1 = .ok ())
  (hdisk : w₂.disk = (s.save a w₁).2.disk) (hfree : s.lock ∉ w₂.held) (hsame : s'.SharesFile s w₂.disk)
  (ha : s'.Agrees w₂)
include hload hm hcalls hs hdisk hfree hsame ha

/-- **A journal that calls built is loaded as it was saved just if its records last**: the completion of each is a truth
value or 0 or 1, and the position of its frame is a whole number or null. -/
theorem built_loads_iff : (∃ m' w₃, s'.load a' w₂ = (.ok (.ok m'), w₃) ∧ m'.board = m.board ∧
    List.Forall₂ Record.Same (m.timeline.after calls) m'.timeline) ↔ ∀ r ∈ m.timeline.after calls, r.Lasts := by
  obtain ⟨hl, hready, hholds⟩ := holds_of_saved hcalls hs hdisk hfree hsame
  obtain ⟨j, d, hj, hread, -⟩ := readFile_of_holds hl hready hsame.directory hholds
  have hindexed : (m.timeline.after calls).Indexed :=
    Timeline.after_indexed (Timeline.indexed_of_valid (load_valid hload hm)) calls
  rw [← Model.reread_iff hindexed hj]
  constructor
  · rintro ⟨m', w₃, h, hboard, hrecords⟩
    exact ⟨m', (load_iff a' hread ha).mp ⟨w₃, h⟩, hboard, hrecords⟩
  · rintro ⟨m', h, hboard, hrecords⟩
    obtain ⟨w₃, h⟩ := (load_iff a' hread ha).mpr h
    exact ⟨m', w₃, h, hboard, hrecords⟩

end

/-! ### Two journals -/

def sure : List Timeline.Call :=
  [.add (.str "A") "key_frame" (.int 0) (.dict []) (.bool false),
    .update (.fields [("index", .bool false), ("completed", .int 1), ("frameIndex", .bool true), ("output", .str "x")])]

def unsure : List Timeline.Call :=
  [.add (.str "A") "key_frame" (.int 0) (.dict []) (.bool false),
    .update (.fields [("index", .int 0), ("completed", .str "maybe")])]

def built (calls : List Timeline.Call) : World Unit :=
  ((plain none "p").load [] (World.blank ())).2.remember [] ⟨"p", Timeline.after [] calls⟩

theorem sure_loads : (∀ r ∈ Timeline.after [] sure, r.Lasts) ∧
    ∃ m' w₃, (plain none "p").load [1] ((plain none "p").save [] (built sure)).2 = (.ok (.ok m'), w₃) ∧
      m'.board = "p" ∧ List.Forall₂ Record.Same (Timeline.after [] sure) m'.timeline := by
  have hlasts : ∀ r ∈ Timeline.after [] sure, r.Lasts := by
    have hafter : Timeline.after [] sure = [⟨.bool false, "A", "key_frame", .str "x", .int 1, .bool true⟩] := rfl
    rw [hafter, List.forall_mem_singleton]
    exact ⟨⟨true, .int 1⟩, .inr ⟨1, .bool true⟩⟩
  have hruns : ((plain none "p").save [] (built sure)).1.toBool = true ∧
      (((plain none "p").save [] (built sure)).2.disk.makeDirs (plain none "p" : Session Unit).directory).1.toBool =
        true := by
    decide +kernel
  obtain ⟨_, hs⟩ := ok_of_toBool hruns.1
  have hfree : (plain none "p" : Session Unit).lock ∉ ((plain none "p").save [] (built sure)).2.held := by
    rw [(save_rest _ _ _).2.2]
    exact List.not_mem_nil
  have hload : (plain none "p").load [] (World.blank ()) =
      (.ok (.ok ⟨"p", []⟩), ((plain none "p").load [] (World.blank ())).2) := rfl
  have hm : ((plain none "p").load [] (World.blank ())).2.model? [] = some ⟨"p", []⟩ := rfl
  have hcalls : (built sure).model? [] = some ⟨"p", Timeline.after [] sure⟩ := World.model?_remember_self _ _ _
  exact ⟨hlasts, (built_loads_iff hload hm hcalls hs rfl hfree ⟨rfl, ok_of_toBool hruns.2⟩
    (agrees_plain none "p" _)).mpr hlasts⟩

def issuesOf (r : Except Fault (Answer Model)) : Option (List Issue) :=
  match r with
  | .ok (.error (.invalid issues)) => some issues
  | _ => none

theorem eq_of_issuesOf {r : Except Fault (Answer Model)} {issues : List Issue} (h : issuesOf r = some issues) :
    r = .ok (.error (.invalid issues)) := by
  unfold issuesOf at h
  split at h
  · cases h
    rfl
  · cases h

/-- An edit that is accepted makes a journal that is written and not loaded again. -/
theorem unsure_not_loaded :
    Timeline.after [] unsure = [⟨.int 0, "A", "key_frame", .dict [], .str "maybe", .int 0⟩] ∧
    ((plain none "p").save [] (built unsure)).1.toBool = true ∧
    (plain none "p").Agrees ((plain none "p").save [] (built unsure)).2 ∧
    ∃ issues, ((plain none "p").load [1] ((plain none "p").save [] (built unsure)).2).1 =
        .ok (.error (.invalid issues)) ∧
      issues.map (fun i => (i.path, i.kind)) = [([.field "timeline", .item 0, .field "completed"], "bool_parsing")] := by
  refine ⟨rfl, by decide +kernel, agrees_plain none "p" _, ?_⟩
  have h : (issuesOf ((plain none "p").load [1] ((plain none "p").save [] (built unsure)).2).1).map
      (List.map fun i => (i.path, i.kind)) =
        some [([.field "timeline", .item 0, .field "completed"], "bool_parsing")] := by
    decide +kernel
  obtain ⟨issues, hissues, hmap⟩ := Option.map_eq_some_iff.mp h
  exact ⟨issues, eq_of_issuesOf hissues, hmap⟩

end Boardwalk.Session
