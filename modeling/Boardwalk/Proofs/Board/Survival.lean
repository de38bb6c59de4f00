import Boardwalk.Proofs.Board.Cleanup
import Boardwalk.Proofs.Board.Handover
import Boardwalk.Proofs.Board.Isolation
import Boardwalk.Proofs.Session.Failed
/-!
# What is left of a board below after a fault

While a board runs its file has what the last save wrote, or what was there before (`Written`). So a
fault that a story frame raises after its board was entered leaves this in the file, unless the board below came to an
outcome: then the file is gone, although no record tells of the outcome (`progress_survives`).
-/

namespace Boardwalk

variable {σ : Type}

/-! ## What is written on a level -/

/-- What a save on a level wrote: the text of the journal, or nothing at all into a file that it has opened. -/
def Moment.written? (depth : Nat) (m : Moment σ) : Option ByteArray :=
  match m.event with
  | .saved (.ok _) =>
    if m.levels.length = depth then do
      let L ← m.levels.head?
      (← m.world.model? L.address).bytes?
    else none
  | .saved (.error .unencodable) => if m.levels.length = depth then some ByteArray.empty else none
  | _ => none

theorem Moment.written?_deeper {depth : Nat} {m : Moment σ} (h : depth < m.levels.length) :
    m.written? depth = none := by
  unfold written?
  split
  · exact if_neg (by omega)
  · exact if_neg (by omega)
  · rfl

def Moment.Finishes (depth : Nat) (m : Moment σ) : Prop := m.levels.length = depth ∧ m.event = .finished

def Moment.isFinish (m : Moment σ) : Bool :=
  match m.event with
  | .finished => true
  | _ => false

theorem Moment.isFinish_iff {m : Moment σ} : m.isFinish = true ↔ m.event = .finished := by
  unfold isFinish
  split
  · rename_i h
    exact iff_of_true rfl h
  · rename_i h
    exact iff_of_false Bool.false_ne_true h

def lastWritten (depth : Nat) (ms : List (Moment σ)) : Option ByteArray := ms.findSome? (Moment.written? depth)

theorem lastWritten_append (depth : Nat) (ms' ms : List (Moment σ)) :
    lastWritten depth (ms' ++ ms) = (lastWritten depth ms').or (lastWritten depth ms) :=
  List.findSome?_append

theorem lastWritten_none {depth : Nat} {ms : List (Moment σ)} (h : ∀ m ∈ ms, m.written? depth = none) :
    lastWritten depth ms = none :=
  List.findSome?_eq_none_iff.mpr h

theorem Session.Unharmed.file?_eq {s : Session σ} {w w' : World σ} (h : s.Unharmed w w') :
    w'.disk.file? s.file = w.disk.file? s.file := by
  rcases h.disk s.file with hn | ⟨hn, n, hn', hmade⟩
  · exact Disk.file?_congr hn
  · generalize hp : s.file = p at hmade
    cases hmade with
    | lock => exact absurd hp (Session.file_ne_lock s s)
    | dir =>
      rw [hp] at hn hn'
      simp [Disk.file?, hn, hn']

namespace Board

/-- From the first stage to the second one a board on a level does not finish, and a file comes to have what the last
save on the level wrote. -/
def Written (p : Place) (depth : Nat) (g g' : Stage σ) : Prop :=
  ∃ ms, g'.trace = ms ++ g.trace ∧ (∀ m ∈ ms, ¬ m.Finishes depth) ∧
    g'.world.disk.file? p = (lastWritten depth ms).or (g.world.disk.file? p)

section

variable {p : Place} {depth : Nat} {g g' g'' : Stage σ}

theorem Written.trans (h : Written p depth g g') (h' : Written p depth g' g'') : Written p depth g g'' := by
  obtain ⟨ms, ht, hms, hp⟩ := h
  obtain ⟨ms', ht', hms', hp'⟩ := h'
  refine ⟨ms' ++ ms, by rw [ht', ht, List.append_assoc], fun m hm => ?_, ?_⟩
  · rcases List.mem_append.mp hm with hm | hm
    · exact hms' m hm
    · exact hms m hm
  · rw [hp', hp, lastWritten_append, Option.or_assoc]

theorem written_of_still {ms : List (Moment σ)} (ht : g'.trace = ms ++ g.trace)
    (hms : ∀ m ∈ ms, ¬ m.Finishes depth ∧ m.written? depth = none)
    (hp : g'.world.disk.file? p = g.world.disk.file? p) : Written p depth g g' := by
  refine ⟨ms, ht, fun m hm => (hms m hm).1, ?_⟩
  rw [lastWritten_none fun m hm => (hms m hm).2, hp, Option.none_or]

theorem written_withWorld {w : World σ} (hp : w.disk.file? p = g.world.disk.file? p) :
    Written p depth g (g.withWorld w) :=
  written_of_still rfl (fun _ hm => absurd hm List.not_mem_nil) hp

theorem written_record {w : World σ} {m : Moment σ} (hm : m.event ≠ .finished) (hw : m.written? depth = none)
    (hp : w.disk.file? p = g.world.disk.file? p) : Written p depth g ((g.record m).withWorld w) := by
  refine written_of_still (show _ = [m] ++ g.trace from rfl) (fun m' hm' => ?_) hp
  obtain rfl := List.mem_singleton.mp hm'
  exact ⟨fun h => hm h.2, hw⟩

end

/-! ## The parts of a run -/

variable {c : Board σ}

theorem OwnsFile.file?_calls (hown : c.OwnsFile) {p : Address} {d : Board σ} (hd : c.Has p d) {code : Code σ Value}
    (hc : d.Calls code) (w : World σ) : (code w).2.disk.file? c.session.file = w.disk.file? c.session.file :=
  Disk.file?_congr (hown.spares hd hc w)

theorem OwnsFile.below_file? (hown : c.OwnsFile) {i : Nat} {d : Board σ} {condition : Option (Condition σ)}
    {provider : Option (Provider σ)} (hf : c.frames[i]? = some (.story d condition provider)) (limit : Nat)
    (a : Address) (ls : List (Level σ)) (x : Value) (g : Stage σ) :
    (enterBoard limit a d ls x g).2.world.disk.file? c.session.file = g.world.disk.file? c.session.file := by
  have hother : ¬ d.OwnPlace c.session.file := by
    rintro ⟨p, e, he, hfile | hlock⟩
    · exact hown.apart (.story hf he) (List.cons_ne_nil _ _) hfile
    · exact Session.file_ne_lock c.session e.session hlock
  exact (file?_closed c.session.file).enterBoard limit d a
    (fun p e he => file?_closedAt hother (fun he' hc w => hown.file?_calls (.story hf he') hc w) he _) ls x g

theorem persist_written (L : Level σ) (above : List (Level σ)) (g : Stage σ) :
    Written L.board.session.file (above.length + 1) g (L.board.persist (L :: above) L.address g) := by
  unfold persist
  split
  · rename_i w hs
    obtain ⟨m, hm, hholds⟩ := Session.save_ok (s := L.board.session) (a := L.address) (w := g.world) (by rw [hs])
    rw [hs] at hholds
    obtain ⟨content, hc, hn⟩ := hholds
    refine ⟨[⟨L :: above, .saved (.ok ()), g.world⟩], rfl, ?_, ?_⟩
    · simp [Moment.Finishes]
    · simp [lastWritten, Moment.written?, hm, hc, Disk.file?, hn]
  · rename_i f w hs
    by_cases hf : f = .unencodable
    · subst hf
      refine ⟨[⟨L :: above, .saved (.error .unencodable), g.world⟩], rfl, ?_, ?_⟩
      · simp [Moment.Finishes]
      · simp [lastWritten, Moment.written?, Disk.file?, Session.save_unencodable hs]
    · refine written_record (by simp) ?_ (Session.unharmed_save hs hf).file?_eq
      unfold Moment.written?
      split
      · rename_i he
        cases he
      · rename_i he
        cases he
        exact absurd rfl hf
      · rfl

section

variable (L : Level σ) (above : List (Level σ)) (hown : L.board.OwnsFile)
include hown

theorem written_advances :
    Advances (Written L.board.session.file (above.length + 1)) L.board (L :: above) L.address where
  refl _ := written_withWorld rfl
  trans := .trans
  report _ _ := written_withWorld rfl
  evaluate hc g _ _ := written_record (by simp) rfl (hown.file?_calls (.here _) hc g.world)
  enter _ _ := written_record (by simp) rfl rfl
  journal t g := written_withWorld (congrArg (Disk.file? · _) (withJournal_disk g.world _ t))
  persist := persist_written L above

theorem written_below (limit : Nat) {enter : Enter σ} (hm : enter ∈ enterFrames limit L.address 0 L.board.frames)
    (x : Value) (g : Stage σ) : Written L.board.session.file (above.length + 1) g (enter (L :: above) x g).2 := by
  rcases mem_enterFrames hm with ⟨i, d, condition, provider, hf, rfl⟩ | rfl
  · obtain ⟨ms, ht, hdeeper, -⟩ :=
      enterBoard_below limit d (address_apart L.address i) (L :: above) x g
    refine written_of_still ht (fun m hm => ?_) (hown.below_file? hf limit _ _ x g)
    have hlt : above.length + 1 < m.levels.length := (hdeeper m hm).1
    exact ⟨fun h => absurd h.1 (by omega), Moment.written?_deeper hlt⟩
  · exact written_withWorld rfl

end

/-- **A run keeps what was saved in the file until it finishes.** -/
theorem enterBoard_written (hown : c.OwnsFile) (limit : Nat) (a : Address) (above : List (Level σ)) (x : Value)
    (g : Stage σ) : Written c.session.file (above.length + 1) g (enterBoard limit a c above x g).2 ∨
      ∃ w g', Written c.session.file (above.length + 1) g g' ∧
        enterBoard limit a c above x g = c.finish (⟨c, a, w⟩ :: above) a g' := by
  have hloaded := Session.load_file? (fun message w => hown.file?_calls (.here c) (.question message) w) a g.world
  rw [enterBoard_eq]
  rcases runWith_cases c (enterFrames limit a 0 c.frames) limit a above x g with
    ⟨f, w, hw, hr⟩ | ⟨f, w, hw, -, hr⟩ | ⟨r, w, hw, hr⟩
  all_goals
    rw [hw] at hloaded
    rw [hr]
  · exact .inl (written_withWorld hloaded)
  · exact .inl (written_withWorld hloaded)
  · have hsteps := (written_advances ⟨c, a, w⟩ above hown).steps
      (fun enter hm => written_below ⟨c, a, w⟩ above hown limit hm)
      (fun h cursor turn => h.trans (written_record (by simp) rfl rfl)) (givenContext x) limit
      (w.journal a).cursor (c.opened (⟨c, a, w⟩ :: above) a (g.withWorld w))
    have hopened : Written c.session.file (above.length + 1) g (c.opened (⟨c, a, w⟩ :: above) a (g.withWorld w)) :=
      (written_withWorld hloaded).trans (written_record (by simp) rfl rfl)
    rw [walk_eq, Stage.withWorld_world]
    cases hs : c.steps (enterFrames limit a 0 c.frames) (⟨c, a, w⟩ :: above) a (givenContext x) limit
        (w.journal a).cursor (c.opened (⟨c, a, w⟩ :: above) a (g.withWorld w)) with
    | mk h g' =>
      rw [hs] at hsteps
      have hall := hopened.trans hsteps
      cases h with
      | raised f => exact .inl hall
      | unfinished => exact .inl hall
      | ended => exact .inr ⟨w, g', hall, rfl⟩

/-! ## Faults at a story frame -/

/-- The session of a board is cleared before those of the boards below, so a fault on the way does not matter. -/
theorem clearAll_own {a : Address} {w : World σ} (hnull : c.session.location.hasNull = false)
    (hbefore : c.session.Clearable w.held w.disk) (hafter : c.session.Clearable w.held (c.clearAll a w).2.disk) :
    (c.clearAll a w).2.model? a = none ∧ (c.clearAll a w).2.disk.node? c.session.file = none := by
  obtain ⟨r, w₁, hc⟩ := Session.clear_answers hnull a w
  unfold clearAll clearEach at hafter ⊢
  rw [hc] at hafter ⊢
  exact cleared_clearEach hc hbefore _ hafter

theorem receive_raised {b : Board σ} {ls : List (Level σ)} {a : Address} {s : Spot σ} {r : Ending × Stage σ}
    {f : Fault} (h : (b.receive ls a s r).1 = .raised f) : (b.receive ls a s r).2 = r.2 := by
  obtain ⟨ending, g⟩ := r
  cases ending with
  | raised f' => rfl
  | unfinished => rfl
  | failure f' => rfl
  | success o =>
    unfold receive at h ⊢
    dsimp only at h ⊢
    cases ho : o.toValue.normal with
    | error f' => rfl
    | ok output =>
      rw [ho] at h
      exact conclude_raised_eq h

theorem close_stopped {b : Board σ} {ls : List (Level σ)} {a : Address} {h : Halt} {g : Stage σ} {cursor j : Int}
    {w : World σ} {last : Moment σ} {ms : List (Moment σ)}
    (ht : (b.close ls a (h, g.record ⟨ls, .turned cursor (.halt h), w⟩)).2.trace = last :: ms)
    (hj : last.stopped? = some j) : ∃ f, h = .raised f ∧ g.trace = ms := by
  cases h with
  | ended => simp [stopped?_finish ht] at hj
  | unfinished =>
    obtain ⟨rfl, -⟩ := List.cons.inj ht
    cases hj
  | raised f => exact ⟨f, rfl, (List.cons.inj ht).2⟩

section

variable {b : Board σ} {limit : Nat} {a : Address} {above : List (Level σ)} {x : Value} {g : Stage σ} {i : Nat}
  {j : Int} {condition : Option (Condition σ)} {provider : Option (Provider σ)} {last entry : Moment σ}
  {ms ms' : List (Moment σ)}
  (htrace : (enterBoard limit a b above x g).2.trace = last :: (ms ++ entry :: (ms' ++ g.trace)))
  (hlevel : entry.levels.length = above.length + 1) (hentry : entry.entered? = some i) (hlast : last.stopped? = some j)
include htrace hlevel hentry hlast

/-- After a fault at a story frame whose board was entered, the world is as the run of that board left it. -/
theorem fault_below (hf : b.frames[i]? = some (.story c condition provider)) :
    ∃ x' g', (enterBoard limit (a ++ [i]) c entry.levels x' ⟨entry.world, entry :: (ms' ++ g.trace)⟩).2 = g' ∧
      g'.trace = ms ++ entry :: (ms' ++ g.trace) ∧ (enterBoard limit a b above x g).2.world = g'.world := by
  obtain ⟨s, c', x', name, t, h, g', w, hover, hreceive, hrun⟩ :=
    run_hands (show _ = last :: ms ++ entry :: (ms' ++ g.trace) from htrace) hlevel hentry
  obtain rfl := hover.board_eq hf
  rw [hrun] at htrace ⊢
  obtain ⟨f, rfl, ht⟩ := close_stopped htrace hlast
  have hsame := receive_raised (congrArg Prod.fst hreceive)
  rw [hreceive] at hsame
  exact ⟨x', g', hsame.symm, ht, rfl⟩

/-- **A fault at a story frame leaves what the board below saved last in its file**, or what was there before, unless
that board came to an outcome. Then its session was cleared, whatever the fault is. -/
theorem progress_survives (hf : b.frames[i]? = some (.story c condition provider)) (hown : c.OwnsFile) :
    ((∀ m ∈ ms, m.Finishes (above.length + 2) → ∀ o, c.resolve (m.world.journal (a ++ [i])) ≠ .ok o) →
      (enterBoard limit a b above x g).2.world.disk.file? c.session.file =
        (lastWritten (above.length + 2) ms).or (entry.world.disk.file? c.session.file)) ∧
    ∀ m ∈ ms, m.Finishes (above.length + 2) → ∀ {o}, c.resolve (m.world.journal (a ++ [i])) = .ok o →
      c.session.location.hasNull = false → c.session.Clearable m.world.held m.world.disk →
      c.session.Clearable m.world.held (enterBoard limit a b above x g).2.world.disk →
      (enterBoard limit a b above x g).2.world.disk.node? c.session.file = none := by
  obtain ⟨x', g', hbelow, ht, hworld⟩ := fault_below htrace hlevel hentry hlast hf
  rw [hworld]
  have hwritten := enterBoard_written hown limit (a ++ [i]) entry.levels x' ⟨entry.world, entry :: (ms' ++ g.trace)⟩
  rw [hlevel] at hwritten
  rcases hwritten with ⟨ms₁, ht₁, hquiet, hfile⟩ | ⟨w, g₁, ⟨ms₁, ht₁, hquiet, hfile⟩, hr⟩
  · rw [hbelow] at ht₁ hfile
    obtain rfl := List.append_cancel_right (ht.symm.trans ht₁)
    exact ⟨fun _ => hfile, fun m hm hfinishes => absurd hfinishes (hquiet m hm)⟩
  · rw [hr] at hbelow
    subst hbelow
    rw [finish_trace, ht₁, ← List.cons_append] at ht
    obtain rfl := List.append_cancel_right ht
    refine ⟨fun hno => ?_, fun m hm hfinishes o ho hnull hbefore hafter => ?_⟩
    · cases hres : c.resolve (g₁.world.journal (a ++ [i])) with
      | ok o =>
        refine absurd hres (hno _ List.mem_cons_self ⟨?_, rfl⟩ o)
        rw [List.length_cons, hlevel]
      | error f =>
        rw [(finish_failure hres).2.1, hfile]
        rfl
    · rcases List.mem_cons.mp hm with rfl | hm
      · rw [finish_disk ho] at hafter ⊢
        exact (clearAll_own hnull hbefore hafter).2
      · exact absurd hfinishes (hquiet m hm)

end

/-! ### A board below that fails at its second frame, and one whose outcome cannot be written -/

theorem IsFlat.ownsFile {b : Board σ} (hflat : b.IsFlat)
    (hcode : ∀ {code}, b.Calls code → ∀ w, (code w).2.disk = w.disk) : b.OwnsFile := by
  have hself : ∀ {p d}, b.Has p d → p = [] ∧ d = b := fun hd => by
    cases hd with
    | here => exact ⟨rfl, rfl⟩
    | story hf => exact absurd rfl (hflat _ (List.mem_of_getElem? hf) _ _ _)
  refine ⟨fun hd hp => absurd (hself hd).1 hp, fun hd hc w => ?_⟩
  obtain ⟨-, rfl⟩ := hself hd
  rw [hcode hc w]

def hike : Board Unit :=
  ⟨"n", .plain (some "p") "n", none,
    [.work .key "A" none none fun _ w => (.ok (.int 1), w.scene),
      .work .key "B" none none fun _ w => (.error (.raised .other "RuntimeError" "x failed"), w.scene)]⟩

theorem hike_owns : hike.OwnsFile := by
  refine IsFlat.ownsFile (by simp [IsFlat, hike]) fun hc =>
    hc.all (P := fun code => ∀ w, (code w).2.disk = w.disk) ?_ ?_
  · simp [hike, Frame.AllCode, World.scene]
  · exact fun _ _ => rfl

def hikes : Board Unit := ⟨"p", .plain none "p", none, [.story hike none none]⟩

theorem errand_owns : (errand .foreign).OwnsFile := by
  refine IsFlat.ownsFile (by simp [IsFlat, errand]) fun hc =>
    hc.all (P := fun code => ∀ w, (code w).2.disk = w.disk) ?_ ?_
  · simp [errand, Frame.AllCode, World.scene]
  · exact fun _ _ => rfl

def hikesRun : Ending × Stage Unit := enterBoard 9 [] hikes [] .null ⟨.blank (), []⟩

theorem hikesRun_eq : enterBoard 9 [] hikes [] .null ⟨.blank (), []⟩ = hikesRun := rfl

theorem stopped_split {l : List (Moment σ)} {n : Nat} (h : n + 1 < l.length) {j : Int}
    (hj : l.head?.bind Moment.stopped? = some j) : ∃ last, last.stopped? = some j ∧
      l = last :: ((l.take (n + 1)).tail ++ l.get ⟨n + 1, h⟩ :: (l.drop (n + 2) ++ [])) := by
  obtain ⟨last, hhead, hlast⟩ := Option.bind_eq_some_iff.mp hj
  obtain ⟨ms, rfl⟩ := List.head?_eq_some_iff.mp hhead
  exact ⟨last, hlast, eq_take_get_drop h⟩

theorem hikesRun_length : 7 < hikesRun.2.trace.length := by
  decide +kernel

theorem errandsRun_foreign_length : 6 < (errandsRun .foreign).2.trace.length := by
  decide +kernel

def hikesBelow : List (Moment Unit) := (hikesRun.2.trace.take 7).tail

def errandsBelowForeign : List (Moment Unit) := ((errandsRun .foreign).2.trace.take 6).tail

/-- After the fault the record of the first frame is still in the file, and of the other board nothing is left. -/
theorem hikes_survive :
    (∃ content, lastWritten 2 hikesBelow = some content ∧
      hikesRun.2.world.disk.file? hike.session.file = some content) ∧
    (errandsRun .foreign).2.world.disk.node? (errand .foreign).session.file = none := by
  constructor
  · obtain ⟨last, hlast, htrace⟩ := stopped_split hikesRun_length
      (show hikesRun.2.trace.head?.bind Moment.stopped? = some 0 by decide +kernel)
    have hrun : (enterBoard 9 [] hikes [] .null ⟨.blank (), []⟩).2.trace = _ :=
      (congrArg (fun r => r.2.trace) hikesRun_eq).trans htrace
    obtain ⟨hsurvives, -⟩ := progress_survives hrun (by decide +kernel)
      (show Moment.entered? _ = some 0 by decide +kernel) hlast rfl hike_owns
    rw [hikesRun_eq] at hsurvives
    have hquiet : (hikesBelow.any Moment.isFinish) = false := by
      decide +kernel
    obtain ⟨content, hcontent⟩ := Option.isSome_iff_exists.mp
      (show (lastWritten 2 hikesBelow).isSome = true by decide +kernel)
    refine ⟨content, hcontent, (hsurvives fun m hm hfinishes => ?_).trans ?_⟩
    · exact absurd (Moment.isFinish_iff.mpr hfinishes.2) (List.any_eq_false.mp hquiet m hm)
    · change (lastWritten 2 hikesBelow).or _ = _
      rw [hcontent, Option.some_or]
  · obtain ⟨last, hlast, htrace⟩ := stopped_split errandsRun_foreign_length
      (show (errandsRun .foreign).2.trace.head?.bind Moment.stopped? = some 0 by decide +kernel)
    have hrun : (enterBoard 9 [] (errands .foreign) [] .null ⟨.blank (), []⟩).2.trace = _ :=
      (congrArg (fun r => r.2.trace) (errandsRun_eq .foreign)).trans htrace
    obtain ⟨-, hlost⟩ := progress_survives hrun (by decide +kernel)
      (show Moment.entered? _ = some 0 by decide +kernel) hlast rfl errand_owns
    rw [errandsRun_eq] at hlost
    have hclearable : errandsBelowForeign.any fun m => m.isFinish && m.levels.length == 2 &&
        (errand .foreign).session.Clearable m.world.held m.world.disk &&
        (errand .foreign).session.Clearable m.world.held (errandsRun .foreign).2.world.disk := by
      decide +kernel
    obtain ⟨m, hm, hfinished⟩ := List.any_eq_true.mp hclearable
    simp only [Bool.and_eq_true, decide_eq_true_eq, beq_iff_eq] at hfinished
    obtain ⟨⟨⟨hevent, hlevel⟩, hbefore⟩, hafter⟩ := hfinished
    exact hlost m hm ⟨hlevel, Moment.isFinish_iff.mp hevent⟩ rfl rfl hbefore hafter

/-- The outcome of the board below cannot be written: what it saved is lost, and no record tells of its outcome. -/
theorem errands_lost : (errandsRun .foreign).1.isRaised = true ∧
    (errandsRun .foreign).2.trace.head?.bind Moment.stopped? = some 0 ∧
    (lastWritten 2 (errandsRun .foreign).2.trace).isSome = true ∧
    (errandsRun .foreign).2.world.disk.file? (errand .foreign).session.file = none ∧
    ((errandsRun .foreign).2.world.journal []).getLast?.any (·.completed matches .bool false) = true := by
  decide +kernel

end Board

end Boardwalk
