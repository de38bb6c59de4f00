import Boardwalk.Proofs.Board.Entry
import Boardwalk.Proofs.Board.Strictness
import Boardwalk.Proofs.Session.Discard
import Boardwalk.Proofs.Session.Failed
/-!
# Boards that refuse to start

A strict board whose loading reports a failure comes to this failure at once: it does nothing, and on the disk nothing
is done but reading its file (`enterBoard_refuses`, `load_readsOnly`). The board that entered it raises a fault of its
own, which ends the whole run with the record of the story frame in flight (`enterBoard_refused`). So strictness
matters, if at all, where a loading fails (`strictness_matters`).
-/

namespace Boardwalk

variable {σ : Type}

namespace Session

variable {s : Session σ} {w w' : World σ}

/-- What reading the file of a session may make on the disk. -/
inductive Makes (s : Session σ) : Place → Node → Prop where
  | dir (p : Place) : Makes s p .dir
  | lock : Makes s s.lock (.file ByteArray.empty)

/-- The file is read, and nothing else happens on the disk, except for what a question to the user does that raises the
fault. -/
structure ReadsOnly (s : Session σ) (f : Fault) (w w' : World σ) : Prop where
  reads : Disk.Gains s.Makes w.disk (s.readFile w).2.disk
  asks : w'.disk = (s.readFile w).2.disk ∨ s.isNested = false ∧ ∃ message,
    (s.confirm message (s.readFile w).2).1 = .error f ∧ w'.disk = (s.confirm message (s.readFile w).2).2.disk

theorem gains_dirs (s : Session σ) (d : Disk) (l : Location) : Disk.Gains s.Makes d (d.makeDirs l).2 := by
  refine (Disk.gains_makeDirs d l).mono ?_
  rintro p n ⟨rfl, -⟩
  exact .dir p

theorem gains_readFile (s : Session σ) (w : World σ) : Disk.Gains s.Makes w.disk (s.readFile w).2.disk := by
  have hdirs := s.gains_dirs w.disk s.directory
  unfold readFile
  split
  · rename_i hm
    rw [hm] at hdirs
    exact hdirs
  · rename_i d hm
    rw [hm] at hdirs
    split
    · exact hdirs
    · rename_i l hl
      rw [eq_target hl]
      refine hdirs.trans (StateFile.locked_disk .trans (s.gains_dirs · _) (fun ht => ?_) (fun _ => ?_) d)
      · refine (Disk.gains_touch ht).mono ?_
        rintro p n ⟨rfl, rfl⟩
        exact .lock
      · rw [StateFile.readState_disk]
        exact .refl _ _

theorem storedModel_failed {f : Fault} (h : s.storedModel w = (.error f, w')) :
    w'.disk = (s.readFile w).2.disk ∨ s.isNested = false ∧ ∃ message,
      (s.confirm message (s.readFile w).2).1 = .error f ∧ w'.disk = (s.confirm message (s.readFile w).2).2.disk := by
  unfold storedModel at h
  cases hr : s.readFile w with
  | mk answer w₁ =>
    rw [hr] at h
    cases answer with
    | error f' =>
      cases h
      exact .inl rfl
    | ok state =>
      cases state with
      | none => cases h
      | some j =>
        dsimp only at h ⊢
        cases hj : Model.ofState j with
        | error f' =>
          rw [hj] at h
          cases h
          exact .inl rfl
        | ok m =>
          rw [hj] at h
          dsimp only at h
          unfold resumeAgreed at h
          by_cases hn : s.isNested = true
          · rw [if_pos hn] at h
            cases h
          · rw [if_neg hn] at h
            rcases askResume_cases s m w₁ with ⟨e, -, ha⟩ | ⟨message, f', -, hc, ha⟩ | ⟨message, answer, -, -, ha⟩
            all_goals rw [ha] at h
            · cases h
              exact .inl rfl
            · cases h
              exact .inr ⟨Bool.eq_false_iff.mpr hn, message, hc, rfl⟩
            · cases hanswer : answer.truth with
              | false =>
                rw [hanswer] at h
                cases h
              | true =>
                rw [hanswer] at h
                cases h

theorem load_readsOnly {a : Address} {f : Fault} (h : s.load a w = (.ok (.error f), w')) : s.ReadsOnly f w w' := by
  refine ⟨s.gains_readFile w, ?_⟩
  unfold load at h
  split at h
  · cases h
  · cases h
  · rename_i hstored
    split at h
    · have hdisk := storedModel_failed hstored
      cases h
      exact hdisk
    · cases h

def loadsWell (s : Session σ) (a : Address) (w : World σ) : Bool := !((s.load a w).1 matches .ok (.error _))

theorem loadsWell_ne {a : Address} (h : s.loadsWell a w = true) (f : Fault) : (s.load a w).1 ≠ .ok (.error f) := by
  intro hf
  unfold loadsWell at h
  rw [hf] at h
  cases h

theorem load_of_loadsWell {a : Address} (h : s.loadsWell a w = false) : ∃ f w', s.load a w = (.ok (.error f), w') := by
  unfold loadsWell at h
  split at h
  · rename_i f hf
    exact ⟨f, _, Prod.ext hf rfl⟩
  · cases h

end Session

/-- The board at the address is entered at this moment, and in the world the record of the story frame from which it is
entered is the last one, and in flight. -/
def Moment.InFlight (m : Moment σ) (p : Address) (w : World σ) : Prop :=
  ∃ L above s name t, m.levels = L :: above ∧ L.board.spot? s.cursor = some s ∧ p = L.address ++ [s.position] ∧
    w.model? L.address = some ⟨name, t ++ [s.inFlight t]⟩

theorem Moment.InFlight.load {m : Moment σ} {p : Address} {w : World σ} (h : m.InFlight p w) (s : Session σ) :
    m.InFlight p (s.load p w).2 := by
  obtain ⟨L, above, spot, name, t, hlevels, hspot, rfl, hmodel⟩ := h
  refine ⟨L, above, spot, name, t, hlevels, hspot, rfl, ?_⟩
  rw [Session.load_model?_ne s w (by simp)]
  exact hmodel

def Moment.loadsWell (m : Moment σ) : Bool := m.loads?.all fun (c, p) => c.session.loadsWell p m.world

theorem Moment.loadsWell_ne {m : Moment σ} (h : m.loadsWell = true) {c : Board σ} {p : Address}
    (hloads : m.loads? = some (c, p)) (f : Fault) : (c.session.load p m.world).1 ≠ .ok (.error f) := by
  unfold loadsWell at h
  rw [hloads] at h
  exact Session.loadsWell_ne h f

namespace Board

/-- **A strict board whose loading fails comes to this failure and does nothing.** -/
theorem enterBoard_refuses {c : Board σ} {p : Address} {w w' : World σ} {f : Fault}
    (hstrict : c.session.settings.strictLoad = true) (hload : c.session.load p w = (.ok (.error f), w')) (limit : Nat)
    (ls : List (Level σ)) (x : Value) (trace : List (Moment σ)) :
    enterBoard limit p c ls x ⟨w, trace⟩ = (.failure f, ⟨w', trace⟩) := by
  rw [enterBoard_eq]
  unfold runWith
  rw [hload, hstrict]
  rfl

/-! ## The boards above -/

def OnlyHalts (f : Fault) (ms : List (Moment σ)) : Prop :=
  ∀ m ∈ ms, ∃ cursor, m.event = .turned cursor (.halt (.raised f))

/-- A run that a board below ends, which is entered at a moment and fails: its fault goes up through all steps. -/
structure Refused (d : Board σ) (p : Address) (f : Fault) (w : World σ) (m : Moment σ) (ms : List (Moment σ))
    (g : Stage σ) (r : Ending × Stage σ) : Prop where
  inFlight : m.InFlight p m.world
  result : ∃ after before, ms = after ++ m :: before ∧ OnlyHalts (.nested d.name f) after ∧
    r = (.raised (.nested d.name f), ⟨w, ms ++ g.trace⟩)

section

variable {b d : Board σ} {p a : Address} {f : Fault} {w : World σ} {m : Moment σ} {limit : Nat}
  {above : List (Level σ)} {x : Value} {g : Stage σ}

theorem refused_own {before after : List (Moment σ)} {w₀ : World σ}
    (htrace : (enterBoard limit a b above x g).2.trace = after ++ m :: (before ++ g.trace))
    (hlevels : m.levels = ⟨b, a, w₀⟩ :: above) (hloads : m.loads? = some (d, p))
    (hstrict : d.session.settings.strictLoad = true) (hload : d.session.load p m.world = (.ok (.error f), w)) :
    Refused d p f w m (after ++ m :: before) g (enterBoard limit a b above x g) := by
  obtain ⟨L, above', i, condition, provider, hlevels', hevent, hf, rfl⟩ := Moment.loads?_some hloads
  cases hlevels.symm.trans hlevels'
  have hentry : m.entered? = some i := by
    unfold Moment.entered?
    rw [hevent]
  obtain ⟨s, c, x', name, t, h, g', w', hover, hreceive, hrun⟩ := run_hands htrace (by rw [hlevels]; rfl) hentry
  have hs := hover.frame_eq hf
  obtain rfl := hover.board_eq hf
  have hname : s.name = c.name := by
    unfold Spot.name
    rw [hs]
    rfl
  rw [enterBoard_refuses hstrict hload] at hreceive
  cases hreceive
  rw [hname] at hrun
  -- behind the entry only the end of the step is told
  have hafter := htrace
  rw [hrun] at hafter
  obtain rfl := List.append_cancel_right (show [_] ++ _ = after ++ _ from hafter)
  refine ⟨⟨_, above, s, name, t, hlevels, hover.spot, by rw [hover.position], hover.model⟩, _, before, rfl, ?_, ?_⟩
  · intro m hm
    obtain rfl := List.mem_singleton.mp hm
    exact ⟨s.cursor, rfl⟩
  · rw [hrun]
    simp [close, Stage.record]

/-- A board above the one that entered the one that fails. -/
theorem refused_below {c : Board σ} {i : Nat} {condition : Option (Condition σ)} {provider : Option (Provider σ)}
    {e : Moment σ} {before after : List (Moment σ)}
    (htrace : (enterBoard limit a b above x g).2.trace = after ++ e :: (before ++ g.trace))
    (hlevel : e.levels.length = above.length + 1) (hentry : e.entered? = some i)
    (hf : b.frames[i]? = some (.story c condition provider)) (hm : m ∈ after) (hother : m.levels ≠ e.levels)
    (hbelow : ∀ x g ms, (enterBoard limit (a ++ [i]) c e.levels x g).2.trace = ms ++ g.trace → m ∈ ms →
      Refused d p f w m ms g (enterBoard limit (a ++ [i]) c e.levels x g)) :
    Refused d p f w m (after ++ e :: before) g (enterBoard limit a b above x g) := by
  obtain ⟨s, c', x', name, t, h, g', w', hover, hreceive, hrun⟩ := run_hands htrace hlevel hentry
  obtain rfl := hover.board_eq hf
  have hR := tellsOn_closed e.levels
  -- the board only tells of itself, so the moment is one of the run below
  obtain ⟨ms, hms⟩ := enterBoard_extends limit c' (a ++ [i]) e.levels x' ⟨e.world, e :: (before ++ g.trace)⟩
  have hreceived := tellsOn_receive b e.levels a s
    (enterBoard limit (a ++ [i]) c' e.levels x' ⟨e.world, e :: (before ++ g.trace)⟩)
  rw [hreceive] at hreceived
  obtain ⟨own, hown, hlevels⟩ := hR.trans hreceived (hR.trans (tellsOn_record e.levels g' (.turned s.cursor (.halt h)) w')
    (hR.close (tellsOn_finish b e.levels a) h _))
  rw [← hrun, htrace, hms, ← List.append_assoc] at hown
  obtain rfl := List.append_cancel_right hown
  have hmem : m ∈ ms := (List.mem_append.mp hm).resolve_left fun hm => hother (hlevels m hm)
  obtain ⟨hflight, after, before', rfl, hhalts, hresult⟩ := hbelow x' _ ms hms hmem
  rw [hresult] at hreceive
  cases hreceive
  rw [hrun] at htrace
  obtain rfl := List.append_cancel_right (List.append_cancel_right
    (show [_] ++ (after ++ m :: before') ++ _ = own ++ (after ++ m :: before') ++ _ from htrace))
  refine ⟨hflight, ⟨e.levels, .turned s.cursor (.halt (.raised (.nested d.name f))), w'⟩ :: after,
    before' ++ e :: before, by simp, ?_, ?_⟩
  · intro m hm
    rcases List.mem_cons.mp hm with rfl | hm
    · exact ⟨s.cursor, rfl⟩
    · exact hhalts m hm
  · rw [hrun]
    simp [close, Stage.record]

/-- **A board that fails below ends the whole run**: the fault of the board that entered it passes through the boards
above. -/
theorem enterBoard_refused (hstrict : d.session.settings.strictLoad = true)
    (hload : d.session.load p m.world = (.ok (.error f), w)) (hloads : m.loads? = some (d, p)) (limit : Nat) (b : Board σ) :
    ∀ (a : Address) above x g ms, (enterBoard limit a b above x g).2.trace = ms ++ g.trace → m ∈ ms →
      Refused d p f w m ms g (enterBoard limit a b above x g) := by
  induction b using Board.induction with
  | step b ih =>
    intro a above x g ms htrace hm
    rcases runWith_cases b (enterFrames limit a 0 b.frames) limit a above x g with
      ⟨f', w', -, hr⟩ | ⟨f', w', -, -, hr⟩ | ⟨answer, w', hw, hr⟩
    all_goals rw [← enterBoard_eq] at hr
    · rw [hr] at htrace
      obtain rfl := List.append_cancel_right (show [] ++ g.trace = ms ++ g.trace from htrace)
      cases hm
    · rw [hr] at htrace
      obtain rfl := List.append_cancel_right (show [] ++ g.trace = ms ++ g.trace from htrace)
      cases hm
    · -- the loading is that of a board entered from here, or from a board below
      by_cases hlevels : m.levels = ⟨b, a, w'⟩ :: above
      · obtain ⟨after, before, rfl⟩ := List.append_of_mem hm
        rw [List.append_assoc, List.cons_append] at htrace
        exact refused_own htrace hlevels hloads hstrict hload
      · have hwalk := (tellsOn_closedAt (⟨b, a, w'⟩ :: above) b a).walk_enters (tellsOn_closed _)
          (enterFrames limit a 0 b.frames) rfl (tellsOn_record _) (tellsOn_finish b _ a) limit (givenContext x)
          (g.withWorld w')
        rw [← hr] at hwalk
        cases hwalk with
        | alone h =>
          obtain ⟨ms', ht, hown⟩ := h
          obtain rfl := List.append_cancel_right (htrace.symm.trans ht)
          exact absurd (hown m hm) hlevels
        | @below i c condition provider enter x' g₁ hf hi hbefore hafter =>
          rw [enterFrames_story hf] at hi
          cases hi
          obtain ⟨ms₁, ht₁, hown₁⟩ := hbefore
          obtain ⟨ms₂, ht₂, -⟩ := hafter
          obtain ⟨ms', ht'⟩ := enterBoard_extends limit c (a ++ [i]) (⟨b, a, w'⟩ :: above) x'
            (g₁.note (⟨b, a, w'⟩ :: above) (.entered i))
          rw [ht', Stage.note_trace, ht₁, ← List.append_assoc] at ht₂
          obtain rfl : ms = ms₂ ++ ms' ++ ⟨⟨b, a, w'⟩ :: above, .entered i, g₁.world⟩ :: ms₁ := by
            refine List.append_cancel_right (htrace.symm.trans (ht₂.trans ?_))
            simp
          rcases List.mem_append.mp hm with hm | hm
          · exact refused_below ht₂ rfl rfl hf hm hlevels (ih i c condition provider hf (a ++ [i]) _)
          · rcases List.mem_cons.mp hm with rfl | hm
            · exact absurd rfl hlevels
            · exact absurd (hown₁ m hm) hlevels

end

/-- **Strictness matters only where a loading fails.** If no loading of a run reports a failure, the run is the same
whichever sessions are strict. A strict board whose loading reports a failure comes to this failure, has nothing
evaluated and only reads its file; the board that entered it raises a fault of its own, which ends the run with the
record of the story frame in flight. -/
theorem strictness_matters (limit : Nat) (b : Board σ) (x : Value) (w : World σ) :
    ((∀ {c p w'}, b.Loads limit x w c p w' → ∀ f, (c.session.load p w').1 ≠ .ok (.error f)) → ∀ choose,
      (strictly choose [] b).run limit x w = b.run limit x w ∧
        (strictly choose [] b).trace limit x w = (b.trace limit x w).map (Moment.strictly choose)) ∧
    (∀ {c : Board σ} {p w' f w''}, c.session.settings.strictLoad = true → c.session.load p w' = (.ok (.error f), w'') →
      (∀ ls y trace, enterBoard limit p c ls y ⟨w', trace⟩ = (.failure f, ⟨w'', trace⟩)) ∧
      c.session.ReadsOnly f w' w'') ∧
    (∀ {f w'}, b.session.settings.strictLoad = true → b.session.load [] w = (.ok (.error f), w') →
      b.run limit x w = (.failure f, w') ∧ b.trace limit x w = []) ∧
    ∀ m ∈ b.trace limit x w, ∀ {c p f w'}, m.loads? = some (c, p) → c.session.settings.strictLoad = true →
      c.session.load p m.world = (.ok (.error f), w') →
        b.run limit x w = (.raised (.nested c.name f), w') ∧ m.InFlight p w' ∧
        ∃ before after, b.trace limit x w = before ++ m :: after ∧ OnlyHalts (.nested c.name f) after := by
  refine ⟨fun hloads choose => run_strictly choose hloads, fun {c p w' f w''} hstrict hload => ?_,
    fun {f w'} hstrict hload => ?_, fun m hm {c p f w'} hloads hstrict hload => ?_⟩
  · exact ⟨enterBoard_refuses hstrict hload limit, Session.load_readsOnly hload⟩
  · unfold run trace
    rw [enterBoard_refuses hstrict hload]
    exact ⟨rfl, rfl⟩
  · unfold trace at hm
    obtain ⟨hflight, after, before, hms, hhalts, hresult⟩ := enterBoard_refused hstrict hload hloads limit b [] [] x
      ⟨w, []⟩ _ (List.append_nil _).symm (List.mem_reverse.mp hm)
    have hloaded := hflight.load c.session
    rw [hload] at hloaded
    refine ⟨?_, hloaded, before.reverse, after.reverse, ?_, ?_⟩
    · unfold run
      rw [hresult]
    · unfold trace
      rw [hms]
      simp
    · intro m hm
      exact hhalts m (List.mem_reverse.mp hm)

/-! ### A strict board below, and a file that cannot be read -/

def lodger : Board Unit := { errand (.str "x") with session := (errand (.str "x")).session.strictly true }

def lodge : Board Unit := ⟨"p", .plain none "p", none, [.story lodger none none]⟩

def sealed : World Unit := { World.blank () with disk := ⟨[(lodger.session.file, .file (String.toUTF8 "x"))]⟩ }

/-- Without files nothing depends on the strictness. With one that cannot be read the board below fails by itself, and
makes the board above raise a fault. -/
theorem lodge_refused :
    (strictly (fun _ => false) [] lodge).run 9 .null (.blank ()) = lodge.run 9 .null (.blank ()) ∧
    (∃ f w', lodger.run 9 .null sealed = (.failure f, w') ∧ lodger.trace 9 .null sealed = [] ∧
      lodger.session.ReadsOnly f sealed w') ∧
    ∃ m ∈ lodge.trace 9 .null sealed, ∃ f w', lodge.run 9 .null sealed = (.raised (.nested "n" f), w') ∧
      m.InFlight [0] w' := by
  obtain ⟨hsame, -⟩ := strictness_matters 9 lodge .null (World.blank ())
  obtain ⟨-, hreads, hown, -⟩ := strictness_matters 9 lodger .null sealed
  obtain ⟨-, -, -, hbelow⟩ := strictness_matters 9 lodge .null sealed
  refine ⟨(hsame ?_ _).1, ?_, ?_⟩
  · have hcalm : (lodge.trace 9 .null (.blank ())).all Moment.loadsWell = true := by decide +kernel
    have hstart : lodge.session.loadsWell [] (.blank ()) = true := by decide +kernel
    intro c p w' hloads
    cases hloads with
    | start => exact Session.loadsWell_ne hstart
    | entered hm hloads => exact Moment.loadsWell_ne (List.all_eq_true.mp hcalm _ hm) hloads
  · obtain ⟨f, w', hload⟩ := Session.load_of_loadsWell (show lodger.session.loadsWell [] sealed = false by decide +kernel)
    obtain ⟨hrun, htrace⟩ := hown rfl hload
    exact ⟨f, w', hrun, htrace, (hreads rfl hload).2⟩
  · have hfails : (lodge.trace 9 .null sealed).any (fun m => m.loads?.any fun (c, p) =>
        c.session.settings.strictLoad && !c.session.loadsWell p m.world && c.name == "n" && p == [0]) = true := by
      decide +kernel
    obtain ⟨m, hm, hfails⟩ := List.any_eq_true.mp hfails
    obtain ⟨⟨c, p⟩, hloads⟩ : ∃ r, m.loads? = some r := Option.isSome_iff_exists.mp (Option.isSome_of_any hfails)
    simp only [hloads, Option.any_some, Bool.and_eq_true, Bool.not_eq_true', beq_iff_eq] at hfails
    obtain ⟨⟨⟨hstrict, hload⟩, hname⟩, rfl⟩ := hfails
    obtain ⟨f, w', hload⟩ := Session.load_of_loadsWell hload
    obtain ⟨hrun, hflight, -⟩ := hbelow m hm hloads hstrict hload
    rw [hname] at hrun
    exact ⟨m, hm, f, w', hrun, hflight⟩

end Board

end Boardwalk
