import Boardwalk.Proofs.Board.Lockstep
import Boardwalk.Proofs.Session.Outcome
/-!
# Runs that nothing disturbs

Whatever is wrong with the file of a session, the run of a board without boards below computes what it computes without
a file: it starts afresh, and no failure to save or to clear changes its course (`trouble_ignored`). The two runs may
differ in the files, in the log, in the answers of the saves, and in what the question to the user leaves behind. Only
what is nested too deep to be read is trouble of another kind, which ends the run (`run_of_overflow`).
-/

namespace Boardwalk

variable {σ : Type}

/-- The same happens, up to what becomes of a save. -/
inductive Event.Matches : Event → Event → Prop where
  | same (e : Event) : Matches e e
  | saved (answer answer' : Session.Answer Unit) : Matches (.saved answer) (.saved answer')

/-- The code keeps the same for itself, up to a relation. -/
def World.Users (E : σ → σ → Prop) (w w' : World σ) : Prop := E w.user w'.user

namespace Board

open World

variable {E : σ → σ → Prop} {b : Board σ}

theorem afterSave_user (b : Board σ) (a : Address) (w : World σ) : (b.afterSave a w).user = w.user := by
  have h := (Session.save_rest b.session a w).2.1
  unfold afterSave
  split
  all_goals
    rename_i hs
    rw [hs] at h
  · exact h
  · exact h

theorem users_coupled (hcode : ∀ f ∈ b.frames, f.AllCode (Sees (Users E) (· = []))) :
    Coupled Event.Matches (Users E) (· = []) b [] where
  own := rfl
  event e := .same e
  memory h _ _ := h
  report h _ := h
  code := hcode
  save {w w'} h _ := by
    refine ⟨.saved _ _, ?_⟩
    unfold Users
    rw [afterSave_user, afterSave_user]
    exact h

theorem clear_cases (s : Session σ) :
    (∃ f, ∀ a w, s.clear a w = (.error f, w)) ∨ ∀ a w, ∃ r w', s.clear a w = (.ok r, w') ∧ w'.user = w.user := by
  unfold Session.clear
  cases s.resolved with
  | error f => exact .inl ⟨f, fun _ _ => rfl⟩
  | ok l =>
    refine .inr fun a w => ?_
    dsimp only
    generalize StateFile.delete w.held l w.disk = r
    obtain ⟨answer, d⟩ := r
    cases answer with
    | error f => exact ⟨_, _, rfl, rfl⟩
    | ok removed =>
      cases removed with
      | false => exact ⟨_, _, rfl, rfl⟩
      | true => exact ⟨_, _, rfl, rfl⟩

theorem clearEach_users (es : List (Address × Session σ)) : ∀ w w' : World σ,
    (clearEach es w).1 = (clearEach es w').1 ∧ (clearEach es w).2.user = w.user ∧
      (clearEach es w').2.user = w'.user := by
  induction es with
  | nil => exact fun _ _ => ⟨rfl, rfl, rfl⟩
  | cons e es ih =>
    intro w w'
    obtain ⟨a, s⟩ := e
    unfold clearEach
    rcases clear_cases s with ⟨f, hf⟩ | hok
    · rw [hf, hf]
      exact ⟨rfl, rfl, rfl⟩
    · obtain ⟨r, w₁, hr, hw⟩ := hok a w
      obtain ⟨r', w₁', hr', hw'⟩ := hok a w'
      rw [hr, hr', ← hw, ← hw']
      exact ih w₁ w₁'

theorem clearAll_lockstep {g g' : Stage σ} (h : Lockstep Event.Matches (Users E) (· = []) g g') :
    (b.clearAll [] g.world).1 = (b.clearAll [] g'.world).1 ∧
      Lockstep Event.Matches (Users E) (fun _ => False) (g.withWorld (b.clearAll [] g.world).2)
        (g'.withWorld (b.clearAll [] g'.world).2) := by
  unfold clearAll
  generalize ([], b.session) :: _ = es
  obtain ⟨hanswer, huser, huser'⟩ := clearEach_users es g.world g'.world
  refine ⟨hanswer, ?_, fun _ hq => hq.elim, h.trace⟩
  show E _ _
  rw [Stage.withWorld_world, Stage.withWorld_world, huser, huser']
  exact h.world

/-- **Trouble with the file changes nothing of what a run computes.** -/
theorem trouble_ignored (hflat : b.IsFlat) (hstrict : b.session.settings.strictLoad = false)
    (hcode : ∀ f ∈ b.frames, f.AllCode (Sees (Users E) (· = [])))
    (hask : ∀ message w u, E w.user u → E (b.session.confirm message w).2.user u) {w w' : World σ}
    (huser : E w.user w'.user) (htrouble : b.session.Troubled w) (hnone : w'.disk.node? b.session.file = none)
    (limit : Nat) (x : Value) :
    (b.run limit x w).1 = (b.run limit x w').1 ∧
      List.Forall₂ (Moment.Alike Event.Matches (Users E)) (b.trace limit x w) (b.trace limit x w') ∧
      E (b.run limit x w).2.user (b.run limit x w').2.user := by
  obtain ⟨r, w₁, hload, hmodel⟩ := Session.load_of_declines htrouble.declines []
  obtain ⟨r', w₁', hload', hmodel'⟩ := Session.load_of_declines (Session.declines_of_none hnone) []
  have hloaded : E w₁.user w₁'.user := by
    have hw := Session.load_user (P := fun u => E u w'.user) huser (fun message w => hask message w w'.user) []
    have hw' := Session.load_user_of_none hnone []
    rw [hload] at hw
    rw [hload'] at hw'
    rw [hw']
    exact hw
  -- both walks set in with a fresh journal
  have hstage : Lockstep Event.Matches (Users E) (· = []) ⟨w₁, []⟩ ⟨w₁', []⟩ := by
    refine ⟨hloaded, fun q hq => ?_, .nil⟩
    rw [hq, hmodel, hmodel']
  have hpeers : Peers (· = []) [⟨b, [], w₁⟩] [⟨b, [], w₁'⟩] := .cons ⟨⟨rfl, rfl⟩, rfl⟩ .nil
  have hbelow : ∀ enter ∈ enterFrames limit [] 0 b.frames, ∀ {g g'}, Lockstep Event.Matches (Users E) (· = []) g g' →
      ∀ x, Together (Lockstep Event.Matches (Users E) (· = [])) (enter [⟨b, [], w₁⟩] x g) (enter [⟨b, [], w₁'⟩] x g') := by
    intro enter henter g g' h x
    rcases mem_enterFrames henter with ⟨i, c, condition, provider, hf, -⟩ | rfl
    · exact absurd rfl (hflat _ (List.mem_of_getElem? hf) c condition provider)
    · exact ⟨rfl, h⟩
  have hwalk := (users_coupled hcode).walk hpeers hbelow (B := fun _ => False) (fun _ hq => hq.elim)
    clearAll_lockstep limit (givenContext x) hstage
  have hrun : ∀ {w w₁ : World σ} {r}, b.session.load [] w = (.ok r, w₁) → enterBoard limit [] b [] x ⟨w, []⟩ =
      b.walk (enterFrames limit [] 0 b.frames) limit [⟨b, [], w₁⟩] [] (givenContext x) ⟨w₁, []⟩ := by
    intro w w₁ r hl
    rw [enterBoard_eq]
    unfold runWith
    dsimp only
    rw [hl, hstrict]
    cases r <;> rfl
  unfold run trace
  rw [hrun hload, hrun hload']
  exact ⟨hwalk.1, List.forall₂_reverse_iff.mpr hwalk.2.trace, hwalk.2.world⟩

/-! ## A run that the user does not resume -/

def heard (notes : List String) : List String := notes.filter (· != "asked")

def SameNotes (notes notes' : List String) : Prop := heard notes = heard notes'

def jot (name : String) : Code (List String) Value := fun w =>
  (.ok (.int (heard w.user).length), ⟨w.disk, w.user ++ [name]⟩)

/-- The code takes notes, and so does the question to the user, who declines. -/
def diary : Board (List String) :=
  ⟨"d", { (Session.plain none "d" : Session (List String)) with
      confirm := fun _ w => (.ok (.bool false), ⟨w.disk, w.user ++ ["asked"]⟩) }, none,
    [.work .key "A" none none fun _ => jot "A", .work .key "B" none none fun _ => jot "B"]⟩

def lastWeek : Model := ⟨"d", [⟨.int 0, "A", "key_frame", .int 0, .bool true, .int 0⟩]⟩

def found : World (List String) :=
  { World.blank [] with disk := ⟨[(diary.session.file, .file (lastWeek.bytes?.getD ByteArray.empty))]⟩ }

theorem found_troubled : diary.session.Troubled found := by
  obtain ⟨c, hc⟩ : ∃ c, lastWeek.bytes? = some c := Option.isSome_iff_exists.mp (by decide +kernel)
  have hfile : found.disk.node? diary.session.file = some (.file c) := by
    simp [found, Disk.node?, Session.isBase_file, hc]
  have hvalid : ∀ r ∈ lastWeek.timeline, r.IsValid := by
    intro r hr
    obtain rfl := List.mem_singleton.mp hr
    exact ⟨⟨0, rfl⟩, ⟨true, rfl⟩, .inr ⟨0, rfl⟩⟩
  obtain ⟨j, hstate, hj⟩ := Session.FileHolds.state ⟨c, hc, hfile⟩ hvalid
  rw [hfile] at hstate
  refine .declined hfile hstate hj ?_
  obtain ⟨message, hfill⟩ : ∃ message, Text.fill Settings.defaults.resumeMessage "storyboard" lastWeek.board = .ok message :=
    ⟨_, rfl⟩
  have hnested : diary.session.isNested = false := rfl
  unfold Session.resumeAgreed Session.askResume
  rw [hnested, show diary.session.settings = Settings.defaults from rfl,
    show lastWeek.reread.board = lastWeek.board from rfl, hfill]
  rfl

theorem heard_append {notes notes' : List String} (h : SameNotes notes notes') (note : String) :
    SameNotes (notes ++ [note]) (notes' ++ [note]) := by
  unfold SameNotes heard at *
  rw [List.filter_append, List.filter_append, h]

theorem jot_sees (name : String) : Sees (Users SameNotes) (· = []) (jot name) := by
  intro w w' hw _
  refine ⟨?_, heard_append hw name⟩
  unfold jot
  rw [show heard w.user = heard w'.user from hw]

/-- The notes of the two runs are the same but for the question. -/
theorem diary_undisturbed :
    (diary.run 9 .null found).1 = (diary.run 9 .null (.blank [])).1 ∧
      List.Forall₂ (Moment.Alike Event.Matches (Users SameNotes)) (diary.trace 9 .null found)
        (diary.trace 9 .null (.blank [])) ∧
      SameNotes (diary.run 9 .null found).2.user (diary.run 9 .null (.blank [])).2.user := by
  have hcode : ∀ f ∈ diary.frames, f.AllCode (Sees (Users SameNotes) (· = [])) := by
    simp [diary, Frame.AllCode, jot_sees]
  have hask : ∀ message w u, SameNotes w.user u → SameNotes (diary.session.confirm message w).2.user u := by
    intro message w u h
    show heard (w.user ++ ["asked"]) = heard u
    unfold SameNotes heard at *
    rw [List.filter_append, h]
    simp
  have hnone : (World.blank ([] : List String)).disk.node? diary.session.file = none := by
    simp [World.blank, Disk.empty, Disk.node?, Session.isBase_file]
  have huser : SameNotes found.user (World.blank ([] : List String)).user := rfl
  exact trouble_ignored (by simp [IsFlat, diary]) rfl hcode hask huser found_troubled hnone 9 .null

/-- What is nested too deep cannot be read either, but the fault comes out of the run. -/
theorem run_of_overflow {w : World σ} {k : Descent} (h : b.session.found w = .error (.overflow k)) (limit : Nat)
    (x : Value) : (b.run limit x w).1 = .raised (.overflow k) := by
  unfold run
  rw [enterBoard_eq]
  unfold runWith
  dsimp only
  rw [Session.load_of_overflow h []]

/-- The file holds more brackets than can be kept in mind. -/
def buried : World (List String) :=
  { World.blank [] with disk := ⟨[(diary.session.file, .file (StateFile.deepBytes 1000 []))]⟩ }

/-- There is a file that cannot be read, and it disturbs the run. -/
theorem buried_disturbed :
    StateFile.stateOfBytes (StateFile.deepBytes 1000 []) = .error (.overflow (.reading .array)) ∧
    buried.disk.node? diary.session.file = some (.file (StateFile.deepBytes 1000 [])) ∧
    (diary.run 9 .null buried).1 = .raised (.overflow (.reading .array)) ∧
    ((diary.run 9 .null (.blank [])).1 matches .success _) := by
  have hnode : buried.disk.node? diary.session.file = some (.file (StateFile.deepBytes 1000 [])) := rfl
  obtain ⟨d, hopened⟩ : ∃ d, diary.session.opened buried = .ok d := ok_of_toBool rfl
  have hdeep : diary.session.found buried = .error (.overflow (.reading .array)) :=
    (Session.found_of_node hnode hopened).trans (Session.runIn_deep (by decide) [])
  exact ⟨StateFile.stateOfBytes_deep (by decide) [], hnode, run_of_overflow hdeep 9 .null, by decide +kernel⟩

end Board

end Boardwalk
