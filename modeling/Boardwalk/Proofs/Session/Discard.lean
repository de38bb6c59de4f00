import Boardwalk.Proofs.Session.Fresh
/-!
# A stored run is not lost unasked

A session whose file holds a run resumes it, or the user declines, or the fault that keeps the user from being asked
is raised and nothing is changed. This is so just if no such fault is taken for trouble with the file
(`load_heeds_iff`).
-/

namespace Boardwalk.Session

variable {σ : Type} {s : Session σ} {w : World σ} {m : Model}

/-- The run in the file, if it can be read and is a valid one. -/
def stored? (s : Session σ) (w : World σ) : Option Model :=
  match (s.readFile w).1 with
  | .ok (some j) => (Model.ofState j).toOption
  | _ => none

theorem stored?_some (h : s.stored? w = some m) :
    ∃ j, s.readFile w = (.ok (some j), (s.readFile w).2) ∧ Model.ofState j = .ok m := by
  unfold stored? at h
  split at h
  · rename_i j hr
    refine ⟨j, Prod.ext hr rfl, ?_⟩
    cases hm : Model.ofState j with
    | error f =>
      rw [hm] at h
      cases h
    | ok m' =>
      rw [hm] at h
      cases h
      rfl
  · cases h

theorem stored?_congr {t : Session σ} (hd : t.directory = s.directory) (hl : t.resolved = s.resolved) :
    s.stored? w = t.stored? w := by
  unfold stored? readFile
  rw [hd, hl]

theorem stored?_rest (h : s.stored? w = some m) :
    (s.readFile w).2.memory = w.memory ∧ (s.readFile w).2.disk.node? s.file = w.disk.node? s.file := by
  obtain ⟨j, hr, -⟩ := stored?_some h
  obtain ⟨⟨c, hc, -⟩, -⟩ := readFile_state hr
  refine ⟨?_, ?_⟩
  · rw [readFile_rest]
    rfl
  · rw [hc]
    exact stays_readFile s.lock s w _ _ hc (.inl (file_ne_lock s s))

def question (s : Session σ) (m : Model) : Except Text.FillFault String :=
  Text.fill s.settings.resumeMessage "storyboard" m.board

/-- What goes wrong while the user is asked is not taken for trouble with the file. -/
structure AsksCleanly (s : Session σ) (m : Model) (w : World σ) : Prop where
  question : ∀ f, s.question m ≠ .error (.flaw f)
  answer : ∀ {message f}, s.question m = .ok message → (s.confirm message w).1 = .error f → f.isUnreadable = false

theorem askResume_cases (s : Session σ) (m : Model) (w : World σ) :
    (∃ e, s.question m = .error e ∧ s.askResume m w = (.error (.fill e), w)) ∨
    (∃ message f, s.question m = .ok message ∧ (s.confirm message w).1 = .error f ∧
      s.askResume m w = (.error f, w.withScene (s.confirm message w).2)) ∨
    ∃ message answer, s.question m = .ok message ∧ (s.confirm message w).1 = .ok answer ∧
      s.askResume m w = (.ok answer.truth, w.withScene (s.confirm message w).2) := by
  unfold askResume question World.call
  cases Text.fill s.settings.resumeMessage "storyboard" m.board with
  | error e => exact .inl ⟨e, rfl, rfl⟩
  | ok message =>
    dsimp only
    cases hc : (s.confirm message w).1 with
    | error f => exact .inr (.inl ⟨message, f, rfl, hc, rfl⟩)
    | ok answer => exact .inr (.inr ⟨message, answer, rfl, hc, rfl⟩)

theorem asksCleanly_iff : s.AsksCleanly m w ↔ ∀ f, (s.askResume m w).1 = .error f → f.isUnreadable = false := by
  rcases askResume_cases s m w with ⟨e, hq, ha⟩ | ⟨message, f, hq, hc, ha⟩ | ⟨message, answer, hq, hc, ha⟩
  · rw [ha]
    constructor
    · rintro ⟨hquestion, -⟩ f hf
      cases hf
      cases e with
      | flaw e => exact absurd hq (hquestion e)
      | _ => rfl
    · intro h
      refine ⟨fun e' he => ?_, fun hq' _ => nomatch hq.symm.trans hq'⟩
      cases hq.symm.trans he
      cases h _ rfl
  · rw [ha]
    constructor
    · rintro ⟨-, hanswer⟩ f' hf
      cases hf
      exact hanswer hq hc
    · intro h
      refine ⟨fun _ he => (nomatch hq.symm.trans he), fun hq' hc' => ?_⟩
      cases hq.symm.trans hq'
      cases hc.symm.trans hc'
      exact h f rfl
  · rw [ha]
    refine ⟨fun _ _ he => (nomatch he), fun _ => ⟨fun _ he => (nomatch hq.symm.trans he), fun hq' hc' => ?_⟩⟩
    cases hq.symm.trans hq'
    cases hc.symm.trans hc'

/-- What may become of a stored run: it is resumed, the user is asked and declines, or a fault is raised. The fault
leaves the journals in memory alone and the file as well, unless the question to the user changed it. -/
inductive Heeds (s : Session σ) (m : Model) (a : Address) (w : World σ) :
    Except Fault (Answer Model) × World σ → Prop where
  | resumed {w' : World σ} : w'.model? a = some m → Heeds s m a w (.ok (.ok m), w')
  | declined {message : String} {answer : Value} {w' : World σ} : s.question m = .ok message →
      (s.confirm message (s.readFile w).2).1 = .ok answer → answer.truth = false →
      w'.model? a = some s.freshModel → Heeds s m a w (.ok (.ok s.freshModel), w')
  | unasked {e : Text.FillFault} {w' : World σ} : s.question m = .error e → w'.memory = w.memory →
      w'.disk.node? s.file = w.disk.node? s.file → Heeds s m a w (.error (.fill e), w')
  | unanswered {message : String} {f : Fault} {w' : World σ} : s.question m = .ok message →
      (s.confirm message (s.readFile w).2).1 = .error f → w'.memory = w.memory →
      w'.disk = (s.confirm message (s.readFile w).2).2.disk → Heeds s m a w (.error f, w')

theorem load_asking (hn : s.isNested = false) (hm : s.stored? w = some m) (a : Address) :
    ((s.askResume m (s.readFile w).2).1 = .ok true ∧ ∃ w', s.load a w = (.ok (.ok m), w') ∧ w'.model? a = some m) ∨
    ((s.askResume m (s.readFile w).2).1 = .ok false ∧
      ∃ w', s.load a w = (.ok (.ok s.freshModel), w') ∧ w'.model? a = some s.freshModel) ∨
    ∃ f w₁, s.askResume m (s.readFile w).2 = (.error f, w₁) ∧
      if f.isUnreadable = true then ∃ w', s.load a w = (.ok (.error f), w') ∧ w'.model? a = some s.freshModel ∧
        w'.user = w₁.user
      else s.load a w = (.error f, w₁) := by
  obtain ⟨j, hr, hj⟩ := stored?_some hm
  have hagreed : ∀ w, s.resumeAgreed m w = s.askResume m w := fun w => by
    unfold resumeAgreed
    rw [hn, if_neg Bool.false_ne_true]
  unfold load storedModel
  generalize (s.readFile w).2 = w₁ at hr ⊢
  simp only [hr, hj, hagreed]
  cases hq : s.askResume m w₁ with
  | mk answer w₂ =>
    cases answer with
    | error f =>
      refine .inr (.inr ⟨f, w₂, rfl, ?_⟩)
      dsimp only
      split
      · exact ⟨_, rfl, World.model?_remember_self _ _ _, rfl⟩
      · rfl
    | ok yes =>
      cases yes with
      | true => exact .inl ⟨rfl, _, rfl, World.model?_remember_self _ _ _⟩
      | false => exact .inr (.inl ⟨rfl, _, rfl, World.model?_remember_self _ _ _⟩)

theorem heeds_error (hm : s.stored? w = some m) {f : Fault} {w₁ : World σ}
    (hf : s.askResume m (s.readFile w).2 = (.error f, w₁)) (a : Address) : s.Heeds m a w (.error f, w₁) := by
  obtain ⟨hmemory, hfile⟩ := stored?_rest hm
  rcases askResume_cases s m (s.readFile w).2 with ⟨e, hq, ha⟩ | ⟨message, f', hq, hc, ha⟩ | ⟨message, answer, -, -, ha⟩
  all_goals
    rw [ha] at hf
    cases hf
  · exact .unasked hq hmemory hfile
  · exact .unanswered hq hc hmemory rfl

theorem heeds_declined (hno : (s.askResume m (s.readFile w).2).1 = .ok false) {a : Address} {w' : World σ}
    (hfresh : w'.model? a = some s.freshModel) : s.Heeds m a w (.ok (.ok s.freshModel), w') := by
  rcases askResume_cases s m (s.readFile w).2 with ⟨e, -, ha⟩ | ⟨message, f, -, -, ha⟩ | ⟨message, answer, hq, hc, ha⟩
  all_goals
    rw [ha] at hno
  · cases hno
  · cases hno
  · exact .declined hq hc (Except.ok.inj hno) hfresh

/-- **A stored run is only given up if the user declines it, just if no fault of the question is taken for trouble
with the file.** -/
theorem load_heeds_iff (hn : s.isNested = false) (hm : s.stored? w = some m) (a : Address) :
    s.Heeds m a w (s.load a w) ↔ s.AsksCleanly m (s.readFile w).2 := by
  rw [asksCleanly_iff]
  rcases load_asking hn hm a with ⟨hyes, w', hl, hmodel⟩ | ⟨hno, w', hl, hmodel⟩ | ⟨f, w₁, hf, hl⟩
  · rw [hl, hyes]
    exact ⟨fun _ _ he => (nomatch he), fun _ => .resumed hmodel⟩
  · rw [hl, hno]
    exact ⟨fun _ _ he => (nomatch he), fun _ => heeds_declined hno hmodel⟩
  · rw [hf]
    split at hl
    · -- the fault is reported in the answer, beside a fresh journal
      rename_i hunreadable
      obtain ⟨w', hl, -⟩ := hl
      rw [hl]
      constructor
      · intro h
        cases h
      · intro h
        rw [h f rfl] at hunreadable
        cases hunreadable
    · rename_i hreadable
      rw [hl]
      refine ⟨fun _ f' he => ?_, fun _ => heeds_error hm hf a⟩
      cases he
      exact Bool.eq_false_iff.mpr hreadable

/-! ## A message that cannot be put together -/

/-- The session of a user who declines, and takes a note of every question. -/
def asking (message : String) : Session (List String) :=
  { (plain none "d" : Session (List String)) with
    settings := { Settings.defaults with resumeMessage := message }
    confirm := fun question w => (.ok (.bool false), ⟨w.disk, w.user ++ [question]⟩) }

def lastNight : Model := ⟨"d", [⟨.int 0, "A", "key_frame", .int 0, .bool true, .int 0⟩]⟩

def atNight : World (List String) :=
  { World.blank [] with disk := ⟨[((asking "").file, .file (lastNight.bytes?.getD ByteArray.empty))]⟩ }

theorem atNight_stored (message : String) :
    ∃ m, (asking message).stored? atNight = some m ∧ m.board = "d" ∧ m.timeline.length = 1 := by
  have hstored : ((asking "").stored? atNight).map (fun m => (m.board, m.timeline.length)) = some ("d", 1) := by
    decide +kernel
  have hsame : (asking "").stored? atNight = (asking message).stored? atNight := stored?_congr rfl rfl
  rw [hsame] at hstored
  obtain ⟨m, hm, he⟩ := Option.map_eq_some_iff.mp hstored
  obtain ⟨hboard, hlength⟩ := Prod.mk.inj he
  exact ⟨m, hm, hboard, hlength⟩

/-- The user is asked, and declines. -/
theorem asking_heeds : ∃ m, (asking "Go on with {storyboard}?").stored? atNight = some m ∧
    (asking "Go on with {storyboard}?").question m = .ok "Go on with d?" ∧
    (asking "Go on with {storyboard}?").Heeds m [] atNight ((asking "Go on with {storyboard}?").load [] atNight) := by
  obtain ⟨m, hm, hboard, -⟩ := atNight_stored "Go on with {storyboard}?"
  have hq : (asking "Go on with {storyboard}?").question m = .ok "Go on with d?" := by
    unfold question
    rw [hboard]
    rfl
  exact ⟨m, hm, hq, (load_heeds_iff rfl hm []).mpr ⟨fun _ he => (nomatch hq.symm.trans he), fun _ hc => nomatch hc⟩⟩

/-- Nobody is asked, and the run is given up. -/
theorem asking_not_heeded : ∃ m, (asking "\x7b").stored? atNight = some m ∧ m.timeline.length = 1 ∧
    ∃ f w', (asking "\x7b").load [] atNight = (.ok (.error f), w') ∧ w'.model? [] = some (asking "\x7b").freshModel ∧
      w'.user = [] := by
  obtain ⟨m, hm, hboard, hlength⟩ := atNight_stored "\x7b"
  obtain ⟨e, hq⟩ : ∃ e, (asking "\x7b").question m = .error (.flaw e) := by
    unfold question
    rw [hboard]
    exact ⟨_, rfl⟩
  have hasked : ∀ w₁, (asking "\x7b").askResume m w₁ = (.error (.fill (.flaw e)), w₁) := fun w₁ => by
    unfold askResume
    rw [show Text.fill _ _ _ = _ from hq]
  have huser : ((asking "\x7b").readFile atNight).2.user = [] := by
    rw [readFile_rest]
    rfl
  refine ⟨m, hm, hlength, ?_⟩
  rcases load_asking rfl hm [] with ⟨hyes, -⟩ | ⟨hno, -⟩ | ⟨f, w₁, hf, hl⟩
  · rw [hasked] at hyes
    cases hyes
  · rw [hasked] at hno
    cases hno
  · rw [hasked] at hf
    cases hf
    rw [if_pos (show (Fault.fill (.flaw e)).isUnreadable = true from rfl)] at hl
    obtain ⟨w', hload, hmodel, hasker⟩ := hl
    exact ⟨_, w', hload, hmodel, hasker.trans huser⟩

end Boardwalk.Session
