import Boardwalk.Proofs.Board.Cleanup
import Boardwalk.Proofs.Board.Pace
import Boardwalk.Proofs.Board.Restart
import Boardwalk.Proofs.Session.Fresh
/-!
# Runs whose outcome is not resolved

A run may come to its end and still not to an outcome, as the resolver fails. Its journal stays in the file, and the
next run only reduces it again, just if it leads behind the last frame (`resolved_again_iff`). That is so after a walk
behind the last frame, but after a stop or a board below it depends on where their frames are.
-/

namespace Boardwalk

variable {σ : Type}

def Event.Acts : Event → Prop
  | .evaluated .. => True
  | .entered _ => True
  | _ => False

namespace Board

theorem Rereads.cursor_eq {t t' : Timeline} (h : Rereads t t') : t'.cursor = t.cursor := by
  rcases h with rfl | rfl
  · rfl
  · exact Timeline.cursor_reread t

/-! ## Runs that came to their end -/

section

variable {limit : Nat} {b : Board σ} {a : Address} {above ls : List (Level σ)} {x : Value} {g : Stage σ}
  {w₁ : World σ} {ms : List (Moment σ)}
  (hended : (enterBoard limit a b above x g).2.trace = ⟨ls, .finished, w₁⟩ :: (ms ++ g.trace))
include hended

/-- **A run that came to its end walked from the loaded journal to it.** A walk without a step leaves the disk as the
loading left it, and any other one leaves its journal in the file, if it was saved. -/
theorem run_ended : ∃ r w m es rs, b.session.load a g.world = (.ok r, w) ∧ w.model? a = some m ∧
    w₁.journal a = m.timeline ++ rs ∧ Recounts b (givenContext x) m.timeline m.timeline.cursor es rs .ended ∧
    (rs = [] → w₁.disk = w.disk) ∧
    (SavesSucceed ms → rs ≠ [] → b.session.FileHolds ⟨m.board, m.timeline ++ rs⟩ w₁.disk) := by
  rcases enterBoard_walks limit b a above x g with ⟨r, w, g', hload, hsteps, hr⟩ | ⟨-, hunfinished⟩
  · obtain ⟨m, hm⟩ := Session.load_model hload
    rw [journal_of_model hm] at hsteps
    obtain ⟨ms', rs, hspans, hmodel, hrecounts, hkept⟩ :=
      steps_recounted (m := m) hm (Nat.le_refl _) limit hsteps
    obtain ⟨hstill, hsaves⟩ := hkept rfl
    rw [hr, finish_trace, hspans.trace] at hended
    obtain ⟨hlast, htrace⟩ := List.cons.inj hended
    cases hlast
    refine ⟨r, w, m, _, rs, hload, hm, journal_of_model hmodel, hrecounts, fun hrs => ?_, fun hs => ?_⟩
    · rw [hstill hrs]
      rfl
    · -- between the loading and the end there are the start of the walk and its steps
      unfold opened at htrace
      rw [← List.append_cancel_right ((List.append_cons ..).symm.trans htrace)] at hs
      exact hsaves (savesSucceed_append hs).1
  · exact absurd hended (hunfinished ls w₁ ms)

theorem ended_failure {f : Fault} (hf : b.resolve (w₁.journal a) = .error f) :
    (enterBoard limit a b above x g).1 = .failure f ∧ (enterBoard limit a b above x g).2.world.disk = w₁.disk := by
  rcases enterBoard_finish limit b a above x g with ⟨w, g', -, hr⟩ | ⟨-, hunfinished⟩
  · rw [hr, finish_trace] at hended
    cases (List.cons.inj hended).1
    rw [hr]
    obtain ⟨hfailure, hdisk, -⟩ := finish_failure hf
    exact ⟨hfailure, hdisk⟩
  · exact absurd hended (hunfinished ls w₁ ms)

theorem ended_stores (hs : SavesSucceed ms) (hne : w₁.journal a ≠ [])
    (hask : ∀ message w, (b.session.confirm message w).2.disk.node? b.session.file = w.disk.node? b.session.file) :
    ∃ t, Rereads (w₁.journal a) t ∧ b.session.Stores w₁.disk t := by
  obtain ⟨r, w, m, es, rs, hload, hm, hjournal, hrecounts, hstill, hsaves⟩ := run_ended hended
  rw [hjournal] at hne ⊢
  by_cases hrs : rs = []
  · -- no step was taken, so what was loaded is still there
    rw [hrs, List.append_nil] at hne ⊢
    refine ⟨m.timeline, .inl rfl, ?_⟩
    obtain ⟨m', hm', hstored⟩ := Session.load_loads hload
    cases hm.symm.trans hm'
    rcases hstored with hstored | ⟨rfl, -⟩
    · obtain ⟨j, hr, hj⟩ := Session.storedModel_some hstored
      obtain ⟨⟨c, hc, hstate⟩, -⟩ := Session.readFile_state hr
      have hfile := (Session.load_file hask a g.world c).mpr hc
      rw [hload] at hfile
      refine .model (j := j) ?_ hj
      rw [hstill hrs, hfile]
      exact hstate
    · exact absurd rfl hne
  · exact ⟨_, .inr rfl, (hsaves hs hrs).stores (hrecounts.valid (Session.load_valid hload hm))⟩

end

/-! ## The next run -/

/-- Nothing is asked for, and the journal is reduced, as it was or as it is read back. -/
def OnlyResolves (t : Timeline) (ms : List (Moment σ)) : Prop :=
  (∀ m ∈ ms, ¬ m.event.Acts) ∧ ∃ ls w, ms.getLast? = some ⟨ls, .finished, w⟩ ∧ Rereads t (w.journal [])

section

variable {b : Board σ} {limit : Nat} {x : Value} {w w₁ : World σ} {ls : List (Level σ)} {m : Model} {t : Timeline}

theorem trace_ended (h : (b.trace limit x w).getLast? = some ⟨ls, .finished, w₁⟩) :
    ∃ ms, (enterBoard limit [] b [] x ⟨w, []⟩).2.trace = ⟨ls, .finished, w₁⟩ :: (ms ++ (⟨w, []⟩ : Stage σ).trace) ∧
      ∀ m ∈ ms, m ∈ b.trace limit x w := by
  unfold trace at h ⊢
  rw [List.getLast?_reverse] at h
  obtain ⟨ms, hms⟩ := List.head?_eq_some_iff.mp h
  refine ⟨ms, hms.trans (by rw [List.append_nil]), fun m hm => ?_⟩
  rw [hms]
  exact List.mem_reverse.mpr (List.mem_cons_of_mem _ hm)

section

variable (hload : b.session.load [] w = (.ok (.ok m), w₁))
include hload

theorem onlyResolves_behind (hreads : Rereads t (w₁.journal [])) (hle : (b.frames.length : Int) ≤ t.cursor) :
    OnlyResolves t (b.trace limit x w) := by
  rw [← hreads.cursor_eq] at hle
  have htrace : (enterBoard limit [] b [] x ⟨w, []⟩).2.trace =
      [⟨[⟨b, [], w₁⟩], .finished, (b.opened [⟨b, [], w₁⟩] [] ⟨w₁, []⟩).world⟩,
        ⟨[⟨b, [], w₁⟩], .started (w₁.journal []).cursor, w₁⟩] := by
    rw [enterBoard_eq]
    unfold runWith
    simp only [hload]
    show (b.walk _ limit [⟨b, [], w₁⟩] [] (givenContext x) ⟨w₁, []⟩).2.trace = _
    rw [walk_eq]
    unfold steps
    rw [if_pos hle]
    exact finish_trace ..
  unfold trace
  rw [htrace]
  refine ⟨?_, _, _, rfl, hreads⟩
  simp [Event.Acts]

/-- A run that came to its end with the journal that it loaded was behind the last frame. -/
theorem OnlyResolves.behind (h : OnlyResolves t (b.trace limit x w))
    (hreads : (t = [] → ¬ b.session.Resumes w) → Rereads t (w₁.journal [])) :
    (b.frames.length : Int) ≤ t.cursor ∧ (t = [] → ¬ b.session.Resumes w) := by
  obtain ⟨-, ls, w₂, hlast, hreads₂⟩ := h
  obtain ⟨ms, htrace, -⟩ := trace_ended hlast
  obtain ⟨r, w₁', m₁, es, rs, hload', hm₁, hjournal, hrecounts, -⟩ := run_ended htrace
  cases hload.symm.trans hload'
  have hloaded : w₁.journal [] = m₁.timeline := journal_of_model hm₁
  have hlength := hreads₂.length_eq
  rw [hjournal, List.length_append] at hlength
  -- with an empty journal at the end an empty one was loaded
  have hnone : t = [] → ¬ b.session.Resumes w := fun hnil => by
    rw [hnil] at hlength
    exact (Session.load_journal hload).mp
      (hloaded.trans (List.length_eq_zero_iff.mp (Nat.eq_zero_of_add_eq_zero_right hlength)))
  have hreads₁ := hreads hnone
  rw [hloaded] at hreads₁
  obtain rfl : rs = [] := by
    rw [hreads₁.length_eq] at hlength
    exact List.length_eq_zero_iff.mp (by omega)
  refine ⟨?_, hnone⟩
  rw [← hreads₁.cursor_eq]
  exact hrecounts.behind_of_nil

end

variable {limit' : Nat} {x' : Value} {w' w₂ : World σ}
  (hask : ∀ message w, (b.session.confirm message w).2.disk.node? b.session.file = w.disk.node? b.session.file)
  (hended : (b.trace limit x w).getLast? = some ⟨ls, .finished, w₁⟩) {f : Fault}
  (hfails : b.resolve (w₁.journal []) = .error f) (hs : SavesSucceed (b.trace limit x w))
  (hsame : w'.disk.node? b.session.file = (b.run limit x w).2.disk.node? b.session.file)
  (hload : b.session.load [] w' = (.ok (.ok m), w₂)) (hagrees : b.session.Agrees w')
include hask hended hfails hs hsame hload hagrees

/-- The next run loads the journal, unless the journal is empty and another run is in the file. -/
theorem loaded_again (hnone : w₁.journal [] = [] → ¬ b.session.Resumes w') :
    Rereads (w₁.journal []) (w₂.journal []) := by
  obtain ⟨ms, htrace, hms⟩ := trace_ended hended
  obtain ⟨-, hdisk⟩ := ended_failure htrace hfails
  have hnode : w₁.disk.node? b.session.file = w'.disk.node? b.session.file := by
    rw [hsame, ← hdisk]
    rfl
  by_cases hnil : w₁.journal [] = []
  · rw [hnil, (Session.load_journal hload).mpr (hnone hnil)]
    exact .inl rfl
  · obtain ⟨t, hreads, ht⟩ := ended_stores htrace (fun m hm => hs m (hms m hm)) hnil hask
    rw [Session.load_stores (ht.of_node hnode) hload hagrees]
    exact hreads

/-- **A run that ended without an outcome is tried again with nothing but its resolver, just if its journal leads
behind the last frame** (and if it is empty, no other run is found in the file). If no jump leads back and the journal
was in step, this is so just if the run ended at the last frame. -/
theorem resolved_again_iff :
    (b.run limit x w).1 = .failure f ∧
    (OnlyResolves (w₁.journal []) (b.trace limit' x' w') ↔
      (b.frames.length : Int) ≤ (w₁.journal []).cursor ∧ (w₁.journal [] = [] → ¬ b.session.Resumes w')) ∧
    (b.NeverBack → b.InStep (b.loaded [] w) → ((b.frames.length : Int) ≤ (w₁.journal []).cursor ↔
      b.frames = [] ∨ ∃ r, (w₁.journal []).getLast? = some r ∧ r.frameIndex = .int (b.frames.length - 1))) := by
  have hreads := loaded_again hask hended hfails hs hsame hload hagrees
  obtain ⟨ms, htrace, -⟩ := trace_ended hended
  refine ⟨(ended_failure htrace hfails).1, ⟨fun h => h.behind hload hreads, fun h => ?_⟩, fun hback hin => ?_⟩
  · exact onlyResolves_behind hload (hreads h.2) h.1
  · obtain ⟨r, w₀, m₀, es, rs, hload₀, hm₀, hjournal, hrecounts, -⟩ := run_ended htrace
    have hloaded : b.loaded [] w = m₀.timeline := by
      unfold loaded
      rw [hload₀]
      exact journal_of_model hm₀
    rw [hloaded] at hin
    rw [hjournal]
    exact (hrecounts.inStep hback hin).behind_iff

end

/-! ## A stop frame behind the other frame, and one in front of it -/

def halting : Frame Unit := .stop none fun _ w => (.ok (.bool true), w.scene)

def working : Frame Unit := .work .key "A" none none fun _ w => (.ok (.str "A"), w.scene)

def unresolved (frames : List (Frame Unit)) : Board Unit := ⟨"b", .plain none "b", some undecided, frames⟩

section

variable {frames : List (Frame Unit)} (h : ∀ f ∈ frames, f = halting ∨ f = working)
include h

theorem unresolved_neverBack : (unresolved frames).NeverBack := by
  intro p target condition k hf
  rcases h _ (List.mem_of_getElem? hf) with he | he
  · cases he
  · cases he

theorem unresolved_spares {code : Code Unit Value} (hc : (unresolved frames).Calls code) :
    (unresolved frames).session.Spares code := by
  refine Session.spares_of_disk (hc.all (P := fun code => ∀ w, (code w).2.disk = w.disk) (fun f hf => ?_) fun _ _ => rfl)
  rcases h f hf with rfl | rfl
  · simp [halting, Frame.AllCode, World.scene]
  · simp [working, Frame.AllCode, World.scene]

theorem unresolved_resumed (hs : SavesSucceed ((unresolved frames).trace 9 .null (.blank ()))) :
    ∃ m w₂, (unresolved frames).session.load [] ((unresolved frames).run 9 .null (.blank ())).2 = (.ok (.ok m), w₂) := by
  have hflat : (unresolved frames).IsFlat := fun f hf c condition provider => by
    rcases h f hf with rfl | rfl
    · exact fun he => nomatch he
    · exact fun he => nomatch he
  have hagrees : ∀ w, (unresolved frames).session.Agrees w := Session.agrees_plain none "b"
  have hnothing : ((Session.plain none "b").readFile (World.blank ())).1 = .ok none := rfl
  have hcomes : Comes (unresolved frames) ((unresolved frames).run 9 .null (.blank ())).2 :=
    .again (.first hnothing) (hagrees _) hs ⟨.refl _ _, rfl⟩
  obtain ⟨t, ht⟩ := comes_resumes hflat (unresolved_spares h) hcomes
  obtain ⟨m, w₂, hload, -⟩ := Session.load_of_opens [] ht.opens (hagrees _)
    fun message => unresolved_spares h (.question message)
  exact ⟨m, w₂, hload⟩

end

/-- A stop at the last frame. -/
theorem resolved_again_at_last : ∃ t, (∃ r, t.getLast? = some r ∧ r.frameIndex = .int 1) ∧ OnlyResolves t
    ((unresolved [working, halting]).trace 9 .null ((unresolved [working, halting]).run 9 .null (.blank ())).2) := by
  have hframes : ∀ f ∈ [working, halting], f = halting ∨ f = working := by simp
  have hs : SavesSucceed ((unresolved [working, halting]).trace 9 .null (.blank ())) := by decide +kernel
  have hcursor : ((unresolved [working, halting]).trace 9 .null (.blank ())).getLast?.map
      (fun m => ((m.world.journal []).length, (m.world.journal []).cursor)) = some (2, 2) := by
    decide +kernel
  have hloaded : (unresolved [working, halting]).loaded [] (.blank ()) = [] :=
    List.isEmpty_iff.mp (by decide +kernel)
  obtain ⟨ls, w₁, ms, htrace⟩ := ended_of_head
    (t := (enterBoard 9 [] (unresolved [working, halting]) [] .null ⟨.blank (), []⟩).2.trace) (by decide +kernel)
  have hended : ((unresolved [working, halting]).trace 9 .null (.blank ())).getLast? = some ⟨ls, .finished, w₁⟩ := by
    unfold trace
    rw [htrace, List.getLast?_reverse]
    rfl
  rw [hended, Option.map_some, Option.some.injEq, Prod.mk.injEq] at hcursor
  obtain ⟨m, w₂, hload⟩ := unresolved_resumed hframes hs
  obtain ⟨-, hagain, hpace⟩ :=
    resolved_again_iff (fun _ _ => rfl) hended rfl hs rfl hload (Session.agrees_plain none "b" _)
  have hbehind : ((unresolved [working, halting]).frames.length : Int) ≤ (w₁.journal []).cursor := by
    rw [hcursor.2]
    decide
  have hstart : (unresolved [working, halting]).InStep ((unresolved [working, halting]).loaded [] (.blank ())) := by
    rw [hloaded]
    exact inStep_nil _
  refine ⟨w₁.journal [], ?_, hagain.mpr ⟨hbehind, fun hnil => ?_⟩⟩
  · rcases (hpace (unresolved_neverBack hframes) hstart).mp hbehind with hnone | hlast
    · cases hnone
    · exact hlast
  · have hlength := hcursor.1
    rw [hnil] at hlength
    cases hlength

/-- A stop in front of the last frame, which the next run takes. -/
theorem resolved_again_acts : (unresolved [halting, working]).NeverBack ∧
    SavesSucceed ((unresolved [halting, working]).trace 9 .null (.blank ())) ∧
    ((unresolved [halting, working]).run 9 .null (.blank ())).1 matches .failure _ ∧
    (∃ m w₂, (unresolved [halting, working]).session.load [] ((unresolved [halting, working]).run 9 .null (.blank ())).2 =
      (.ok (.ok m), w₂)) ∧
    ((unresolved [halting, working]).trace 9 .null ((unresolved [halting, working]).run 9 .null (.blank ())).2).any
      (·.event matches .evaluated 1 .action _) := by
  have hframes : ∀ f ∈ [halting, working], f = halting ∨ f = working := by simp
  have hs : SavesSucceed ((unresolved [halting, working]).trace 9 .null (.blank ())) := by decide +kernel
  exact ⟨unresolved_neverBack hframes, hs, by decide +kernel, unresolved_resumed hframes hs, by decide +kernel⟩

end Board

end Boardwalk
