import Boardwalk.Proofs.Session.Cleared
import Boardwalk.Proofs.Session.Discard
/-!
# What comes of loading

Once its directories are made and its lock is taken, the file of a session holds a run, holds none, or cannot be read
(`found`). What loading answers, what it puts into memory and what it asks the user follow from that, from whether the
session has a parent, and from the user's answer (`load_outcome`). A fault of reading that is no failure, as that of a
text which is nested too deep, comes out of loading (`load_of_overflow`).
-/

namespace Boardwalk.Session

open StateFile

variable {σ : Type} {s : Session σ} {w : World σ}

/-! ## What the file holds -/

def opened (s : Session σ) (w : World σ) : Except Fault Disk :=
  match w.disk.makeDirs s.directory with
  | (.error f, _) => .error (.disk f)
  | (.ok _, d) =>
    match s.resolved with
    | .error f => .error f
    | .ok l =>
      match d.makeDirs l.parent with
      | (.error f, _) => .error (.disk f)
      | (.ok dir, d) => takeLock w.held dir l d

def runIn (n : Option Node) : Except Fault (Option Model) :=
  match stateOfNode n with
  | .error f => .error f
  | .ok none => .ok none
  | .ok (some j) => (Model.ofState j).map some

theorem runIn_of_bytes {m : Model} {c : ByteArray} (hc : m.bytes? = some c) (hv : ∀ r ∈ m.timeline, r.IsValid) :
    runIn (some (.file c)) = .ok (some m.reread) := by
  obtain ⟨j, hj, hstate⟩ := form_of_bytes hc
  unfold runIn
  rw [hstate]
  dsimp only
  rw [Model.ofState_reread hv hj]
  rfl

def bytesOf (m : Model) : ByteArray := m.bytes?.getD ByteArray.empty

theorem runIn_bytesOf {m : Model} (h : m.bytes?.isSome = true) (hv : ∀ r ∈ m.timeline, r.IsValid) :
    runIn (some (.file (bytesOf m))) = .ok (some m.reread) := by
  obtain ⟨c, hc⟩ := Option.isSome_iff_exists.mp h
  unfold bytesOf
  rw [hc]
  exact runIn_of_bytes hc hv

theorem runIn_deep {n : Nat} (h : Json.depthLimit < n) (rest : List Char) :
    runIn (some (.file (deepBytes n rest))) = .error (.overflow (.reading .array)) := by
  have hstate : stateOfNode (some (.file (deepBytes n rest))) = .error (.overflow (.reading .array)) :=
    stateOfBytes_deep h rest
  unfold runIn
  rw [hstate]

theorem runIn_unreadable {n : Option Node} {f : Fault} (h : runIn n = .error f) (hdeep : ∀ k, f ≠ .overflow k) :
    f.isUnreadable = true := by
  unfold runIn at h
  cases hstate : stateOfNode n with
  | error f' =>
    rw [hstate] at h
    cases h
    exact stateOfNode_unreadable hstate hdeep
  | ok o =>
    rw [hstate] at h
    cases o with
    | none => cases h
    | some j =>
      cases hm : Model.ofState j with
      | error f' =>
        simp only [hm] at h
        cases h
        exact Model.ofState_unreadable hm
      | ok m =>
        simp only [hm] at h
        cases h

def found (s : Session σ) (w : World σ) : Except Fault (Option Model) :=
  match s.opened w with
  | .error f => .error f
  | .ok d => runIn (d.node? s.file)

theorem readFile_barred {f : Fault} (h : s.opened w = .error f) : (s.readFile w).1 = .error f := by
  unfold opened at h
  unfold readFile
  cases hmade : w.disk.makeDirs s.directory with
  | mk made d₀ =>
    rw [hmade] at h
    cases made with
    | error f' =>
      cases h
      rfl
    | ok u =>
      dsimp only at h ⊢
      cases hl : s.resolved with
      | error f' =>
        rw [hl] at h
        cases h
        rfl
      | ok l =>
        rw [hl] at h
        unfold StateFile.read locked
        dsimp only at h ⊢
        cases hdirs : d₀.makeDirs l.parent with
        | mk above d₁ =>
          rw [hdirs] at h
          cases above with
          | error f' =>
            cases h
            rfl
          | ok dir =>
            dsimp only at h ⊢
            rw [h]

theorem readFile_opened {d : Disk} (h : s.opened w = .ok d) :
    s.readFile w = (stateOfNode (d.node? s.file), w.withDisk d) := by
  unfold opened at h
  unfold readFile
  cases hmade : w.disk.makeDirs s.directory with
  | mk made d₀ =>
    rw [hmade] at h
    cases made with
    | error f => cases h
    | ok u =>
      dsimp only at h ⊢
      cases hl : s.resolved with
      | error f =>
        rw [hl] at h
        cases h
      | ok l =>
        rw [hl] at h
        obtain rfl := eq_target hl
        dsimp only at h ⊢
        cases hdirs : d₀.makeDirs s.target.parent with
        | mk above d₁ =>
          rw [hdirs] at h
          cases above with
          | error f => cases h
          | ok dir =>
            obtain rfl := Disk.makeDirs_place hdirs
            have hread : StateFile.read w.held s.target d₀ = (stateOfNode (d.node? s.file), d) := by
              unfold StateFile.read
              rw [locked_eq hdirs h, readState_eq]
              rfl
            rw [hread]

/-- What stands in the place of the file stays, and no file appears there. A directory does only if the way to the
sessions leads through the place. -/
theorem readFile_node (s : Session σ) (w : World σ) :
    (∀ n, w.disk.node? s.file = some n → (s.readFile w).2.disk.node? s.file = some n) ∧
      (w.disk.node? s.file = none → (s.readFile w).2.disk.node? s.file = none ∨
        (s.readFile w).2.disk.node? s.file = some .dir) := by
  refine ⟨fun n hn => stays_readFile s.lock s w _ n hn (.inl (file_ne_lock s s)), fun hn => ?_⟩
  cases hd : (s.readFile w).2.disk.node? s.file with
  | none => exact .inl rfl
  | some n =>
    cases n with
    | dir => exact .inr rfl
    | file c => cases hn.symm.trans (brings_readFile (file_ne_lock s s) w c hd)

theorem readFile_file? (s : Session σ) (w : World σ) : (s.readFile w).2.disk.file? s.file = w.disk.file? s.file := by
  obtain ⟨hstays, hnone⟩ := readFile_node s w
  unfold Disk.file?
  cases hn : w.disk.node? s.file with
  | some n => rw [hstays n hn]
  | none => rcases hnone hn with h | h <;> rw [h]

theorem found_of_node {n : Node} {d : Disk} (hn : w.disk.node? s.file = some n) (hd : s.opened w = .ok d) :
    s.found w = runIn (some n) := by
  have hsame := (readFile_node s w).1 n hn
  rw [readFile_opened hd] at hsame
  unfold found
  rw [hd]
  exact congrArg runIn hsame

theorem found_of_absent (hn : w.disk.node? s.file = none) (m : Model) : s.found w ≠ .ok (some m) := by
  have hnone := (readFile_node s w).2 hn
  unfold found
  cases hd : s.opened w with
  | error f => simp
  | ok d =>
    rw [readFile_opened hd] at hnone
    dsimp only
    rcases hnone with h | h
    all_goals
      rw [show d.node? s.file = _ from h]
      simp [runIn, stateOfNode]

/-! ## Loading, by what the file holds -/

theorem found_eq (s : Session σ) (w : World σ) : s.found w = match (s.readFile w).1 with
    | .error f => .error f
    | .ok none => .ok none
    | .ok (some j) => (Model.ofState j).map some := by
  unfold found
  cases ho : s.opened w with
  | error f => rw [readFile_barred ho]
  | ok d =>
    rw [readFile_opened ho]
    rfl

theorem storedModel_of_error {f : Fault} (h : s.found w = .error f) :
    s.storedModel w = (.error f, (s.readFile w).2) ∧ ((∀ k, f ≠ .overflow k) → f.isUnreadable = true) := by
  rw [found_eq] at h
  unfold storedModel
  cases hr : s.readFile w with
  | mk answer w₁ =>
    rw [hr] at h
    cases answer with
    | error f' =>
      cases h
      exact ⟨rfl, readFile_unreadable hr⟩
    | ok state =>
      cases state with
      | none => cases h
      | some j =>
        dsimp only at h ⊢
        cases hj : Model.ofState j with
        | error f' =>
          rw [hj] at h
          cases h
          exact ⟨rfl, fun _ => Model.ofState_unreadable hj⟩
        | ok m =>
          rw [hj] at h
          cases h

theorem storedModel_of_none (h : s.found w = .ok none) : s.storedModel w = (.ok none, (s.readFile w).2) := by
  rw [found_eq] at h
  unfold storedModel
  cases hr : s.readFile w with
  | mk answer w₁ =>
    rw [hr] at h
    cases answer with
    | error f => cases h
    | ok state =>
      cases state with
      | none => rfl
      | some j =>
        dsimp only at h
        cases hj : Model.ofState j with
        | error f =>
          rw [hj] at h
          cases h
        | ok m =>
          rw [hj] at h
          cases h

theorem storedModel_of_some {m : Model} (h : s.found w = .ok (some m)) :
    (s.storedModel w).1 = ((s.resumeAgreed m (s.readFile w).2).1.map fun agreed => if agreed then some m else none) ∧
    (s.storedModel w).2.scene = (s.resumeAgreed m (s.readFile w).2).2.scene ∧
    (s.storedModel w).2.memory = w.memory := by
  have hmemory := (resumeAgreed_rest s m (s.readFile w).2).1
  rw [show (s.readFile w).2.memory = w.memory by rw [readFile_rest]; rfl] at hmemory
  rw [found_eq] at h
  unfold storedModel
  cases hr : s.readFile w with
  | mk answer w₁ =>
    rw [hr] at h hmemory
    cases answer with
    | error f => cases h
    | ok state =>
      cases state with
      | none => cases h
      | some j =>
        dsimp only at h hmemory ⊢
        cases hj : Model.ofState j with
        | error f =>
          rw [hj] at h
          cases h
        | ok m' =>
          rw [hj] at h
          cases h
          dsimp only
          cases hq : s.resumeAgreed m w₁ with
          | mk agreed w₂ =>
            rw [hq] at hmemory
            cases agreed with
            | error f => exact ⟨rfl, rfl, hmemory⟩
            | ok yes =>
              cases yes with
              | true => exact ⟨rfl, rfl, hmemory⟩
              | false => exact ⟨rfl, rfl, hmemory⟩

theorem load_of_error {f : Fault} (h : (s.storedModel w).1 = .error f) (a : Address) :
    if f.isUnreadable then ∃ w', s.load a w = (.ok (.error f), w') ∧ w'.model? a = some s.freshModel ∧
      w'.scene = (s.storedModel w).2.scene
    else s.load a w = (.error f, (s.storedModel w).2) := by
  unfold load
  cases hs : s.storedModel w with
  | mk answer w₁ =>
    rw [hs] at h
    dsimp only at h
    subst h
    dsimp only
    split
    · exact ⟨_, rfl, World.model?_remember_self _ _ _, rfl⟩
    · rfl

theorem load_of_overflow {k : Descent} (h : s.found w = .error (.overflow k)) (a : Address) :
    s.load a w = (.error (.overflow k), (s.readFile w).2) := by
  obtain ⟨hs, -⟩ := storedModel_of_error h
  have hl := load_of_error (congrArg Prod.fst hs) a
  rwa [if_neg (by simp [Fault.isUnreadable, Fault.family]), hs] at hl

theorem load_of_ok {o : Option Model} (h : (s.storedModel w).1 = .ok o) (a : Address) :
    ∃ w', s.load a w = (.ok (.ok (o.getD s.freshModel)), w') ∧ w'.model? a = some (o.getD s.freshModel) ∧
      w'.scene = (s.storedModel w).2.scene := by
  unfold load
  cases hs : s.storedModel w with
  | mk answer w₁ =>
    rw [hs] at h
    dsimp only at h
    subst h
    cases o with
    | none => exact ⟨_, rfl, World.model?_remember_self _ _ _, rfl⟩
    | some m => exact ⟨_, rfl, World.model?_remember_self _ _ _, rfl⟩

/-! ## The questions -/

/-- What is left when questions were put to the user, one after the other. -/
def ask (s : Session σ) : World σ → List String → World σ
  | w, [] => w
  | w, q :: qs => s.ask (w.call (s.confirm q)).2 qs

/-- What comes of loading, with the questions to the user: one constructor for each way. -/
inductive Comes (s : Session σ) (a : Address) (w : World σ) :
    List String → Except Fault (Answer Model) × World σ → Prop where
  | troubled {f : Fault} {w' : World σ} : s.found w = .error f → (∀ k, f ≠ .overflow k) →
      w'.model? a = some s.freshModel → Comes s a w [] (.ok (.error f), w')
  -- a text that is nested too deep is a fault of its own kind, which nobody reports
  | overflowed {k : Descent} {w' : World σ} : s.found w = .error (.overflow k) → w'.memory = w.memory →
      Comes s a w [] (.error (.overflow k), w')
  | fresh {w' : World σ} : s.found w = .ok none → w'.model? a = some s.freshModel →
      Comes s a w [] (.ok (.ok s.freshModel), w')
  | nested {m : Model} {w' : World σ} : s.isNested = true → s.found w = .ok (some m) → w'.model? a = some m →
      Comes s a w [] (.ok (.ok m), w')
  | agreed {m : Model} {message : String} {answer : Value} {w' : World σ} : s.isNested = false →
      s.found w = .ok (some m) → s.question m = .ok message →
      (s.confirm message (s.readFile w).2).1 = .ok answer → answer.truth = true → w'.model? a = some m →
      Comes s a w [message] (.ok (.ok m), w')
  | declined {m : Model} {message : String} {answer : Value} {w' : World σ} : s.isNested = false →
      s.found w = .ok (some m) → s.question m = .ok message →
      (s.confirm message (s.readFile w).2).1 = .ok answer → answer.truth = false →
      w'.model? a = some s.freshModel → Comes s a w [message] (.ok (.ok s.freshModel), w')
  | escaped {m : Model} {message : String} {f : Fault} {w' : World σ} : s.isNested = false →
      s.found w = .ok (some m) → s.question m = .ok message → (s.confirm message (s.readFile w).2).1 = .error f →
      f.isUnreadable = false → w'.memory = w.memory → Comes s a w [message] (.error f, w')
  | reported {m : Model} {message : String} {f : Fault} {w' : World σ} : s.isNested = false →
      s.found w = .ok (some m) → s.question m = .ok message → (s.confirm message (s.readFile w).2).1 = .error f →
      f.isUnreadable = true → w'.model? a = some s.freshModel → Comes s a w [message] (.ok (.error f), w')

structure Outcome (s : Session σ) (a : Address) (w : World σ) (questions : List String)
    (r : Except Fault (Answer Model) × World σ) : Prop where
  comes : s.Comes a w questions r
  /-- If the file can be opened, the run in it is the one that was there before. -/
  found : ∀ {n d}, w.disk.node? s.file = some n → s.opened w = .ok d → s.found w = runIn (some n)
  absent : w.disk.node? s.file = none → ∀ m, s.found w ≠ .ok (some m)
  /-- The reading leaves the file and the user alone; after it, just the questions are asked. -/
  file : (s.readFile w).2.disk.file? s.file = w.disk.file? s.file
  user : (s.readFile w).2.user = w.user
  asks : r.2.scene = (s.ask (s.readFile w).2 questions).scene
  keeps : (∀ message w, (s.confirm message w).2.disk.file? s.file = w.disk.file? s.file) →
    r.2.disk.file? s.file = w.disk.file? s.file
  others : ∀ a', a' ≠ a → r.2.model? a' = w.model? a'

theorem Comes.asked {a : Address} {questions : List String} {r : Except Fault (Answer Model) × World σ}
    (h : s.Comes a w questions r) {m : Model} {message : String} (hn : s.isNested = false)
    (hm : s.found w = .ok (some m)) (hq : s.question m = .ok message) : questions = [message] := by
  have hsame {m' : Model} {message' : String} (hm' : s.found w = .ok (some m'))
      (hq' : s.question m' = .ok message') : message' = message := by
    cases hm.symm.trans hm'
    cases hq.symm.trans hq'
    rfl
  cases h with
  | troubled hf _ _ => cases hm.symm.trans hf
  | overflowed hf _ => cases hm.symm.trans hf
  | fresh hf _ => cases hm.symm.trans hf
  | nested hn' _ _ => cases hn.symm.trans hn'
  | agreed _ hm' hq' _ _ _ => rw [hsame hm' hq']
  | declined _ hm' hq' _ _ _ => rw [hsame hm' hq']
  | escaped _ hm' hq' _ _ _ => rw [hsame hm' hq']
  | reported _ hm' hq' _ _ _ => rw [hsame hm' hq']

theorem ask_file? (hc : ∀ message w, (s.confirm message w).2.disk.file? s.file = w.disk.file? s.file)
    (questions : List String) (w : World σ) : (s.ask w questions).disk.file? s.file = w.disk.file? s.file := by
  induction questions generalizing w with
  | nil => rfl
  | cons q qs ih => exact (ih _).trans (hc q w)

theorem comes_asked {m : Model} {message : String} (hn : s.isNested = false) (hm : s.found w = .ok (some m))
    (hq : s.question m = .ok message) (a : Address) :
    s.Comes a w [message] (s.load a w) ∧ (s.load a w).2.scene = (s.ask (s.readFile w).2 [message]).scene := by
  obtain ⟨hanswer, hscene, hmemory⟩ := storedModel_of_some hm
  have hask : s.resumeAgreed m (s.readFile w).2 = s.askResume m (s.readFile w).2 := by
    unfold resumeAgreed
    rw [hn, if_neg Bool.false_ne_true]
  have hasked : (s.askResume m (s.readFile w).2).2 = s.ask (s.readFile w).2 [message] := by
    unfold askResume
    rw [show Text.fill _ _ _ = _ from hq]
    rfl
  rw [hask] at hanswer hscene
  rw [hasked] at hscene
  rcases askResume_cases s m (s.readFile w).2 with
    ⟨e, he, -⟩ | ⟨message', f, hq', hf, ha⟩ | ⟨message', answer, hq', hc, ha⟩
  · -- the question can be put, so this is not what happened
    cases hq.symm.trans he
  · cases hq.symm.trans hq'
    rw [ha] at hanswer
    have hl := load_of_error (f := f) hanswer a
    split at hl
    · rename_i hu
      obtain ⟨w', hl, hmodel, hscene'⟩ := hl
      rw [hl]
      exact ⟨.reported hn hm hq hf hu hmodel, hscene'.trans hscene⟩
    · rename_i hu
      rw [hl]
      exact ⟨.escaped hn hm hq hf (Bool.eq_false_iff.mpr hu) hmemory, hscene⟩
  · cases hq.symm.trans hq'
    rw [ha] at hanswer
    obtain ⟨w', hl, hmodel, hscene'⟩ := load_of_ok (o := if answer.truth then some m else none) hanswer a
    rw [hl]
    refine ⟨?_, hscene'.trans hscene⟩
    cases ht : answer.truth with
    | true =>
      rw [ht] at hmodel
      exact .agreed hn hm hq hc ht hmodel
    | false =>
      rw [ht] at hmodel
      exact .declined hn hm hq hc ht hmodel

/-- **What comes of loading.** -/
theorem load_outcome (hq : ∀ m, s.found w = .ok (some m) → ∃ message, s.question m = .ok message) (a : Address) :
    ∃ questions, s.Outcome a w questions (s.load a w) := by
  have huser : (s.readFile w).2.user = w.user := by
    rw [readFile_rest]
    rfl
  -- everything else is settled by the questions that are asked
  suffices h : ∃ questions, s.Comes a w questions (s.load a w) ∧
      (s.load a w).2.scene = (s.ask (s.readFile w).2 questions).scene by
    obtain ⟨questions, hcomes, hasks⟩ := h
    refine ⟨questions, hcomes, found_of_node, found_of_absent, readFile_file? s w, huser, hasks, fun hc => ?_,
      fun a' ha => load_model?_ne s w ha⟩
    rw [show (s.load a w).2.disk = _ from congrArg Scene.disk hasks]
    exact (ask_file? hc questions _).trans (readFile_file? s w)
  cases hf : s.found w with
  | error f =>
    by_cases hdeep : ∃ k, f = .overflow k
    · obtain ⟨k, rfl⟩ := hdeep
      rw [load_of_overflow hf a]
      refine ⟨[], .overflowed hf ?_, rfl⟩
      rw [readFile_rest]
      rfl
    · have hdeep : ∀ k, f ≠ .overflow k := fun k hk => hdeep ⟨k, hk⟩
      obtain ⟨hs, hu⟩ := storedModel_of_error hf
      have hl := load_of_error (congrArg Prod.fst hs) a
      rw [if_pos (hu hdeep), hs] at hl
      obtain ⟨w', hl, hmodel, hscene⟩ := hl
      rw [hl]
      exact ⟨[], .troubled hf hdeep hmodel, hscene⟩
  | ok o =>
    cases o with
    | none =>
      have hs := storedModel_of_none hf
      obtain ⟨w', hl, hmodel, hscene⟩ := load_of_ok (congrArg Prod.fst hs) a
      rw [hs] at hscene
      rw [hl]
      exact ⟨[], .fresh hf hmodel, hscene⟩
    | some m =>
      cases hn : s.isNested with
      | true =>
        obtain ⟨hanswer, hscene, -⟩ := storedModel_of_some hf
        have hyes : s.resumeAgreed m (s.readFile w).2 = (.ok true, (s.readFile w).2) := if_pos hn
        rw [hyes] at hanswer hscene
        obtain ⟨w', hl, hmodel, hscene'⟩ := load_of_ok (o := some m) hanswer a
        rw [hl]
        exact ⟨[], .nested hn hf hmodel, hscene'.trans hscene⟩
      | false =>
        obtain ⟨message, hmessage⟩ := hq m hf
        exact ⟨[message], comes_asked hn hf hmessage a⟩

theorem found_of_stored {m : Model} (h : s.stored? w = some m) : s.found w = .ok (some m) := by
  obtain ⟨j, hr, hj⟩ := stored?_some h
  rw [found_eq, hr]
  dsimp only
  rw [hj]
  rfl

theorem load_of_found {m : Model} (h : s.found w = .ok (some m)) (ha : s.Agrees w) (a : Address) :
    ∃ w', s.load a w = (.ok (.ok m), w') ∧ w'.model? a = some m := by
  have hyes : (s.resumeAgreed m (s.readFile w).2).1 = .ok true := by
    rw [found_eq] at h
    split at h
    · cases h
    · cases h
    · rename_i j hr
      refine ha (Prod.ext hr rfl : s.readFile w = (.ok (some j), (s.readFile w).2)) ?_
      cases hj : Model.ofState j with
      | error f =>
        rw [hj] at h
        cases h
      | ok m' =>
        rw [hj] at h
        cases h
        rfl
  obtain ⟨hanswer, -, -⟩ := storedModel_of_some h
  rw [hyes] at hanswer
  obtain ⟨w', hl, hmodel, -⟩ := load_of_ok (o := some m) hanswer a
  exact ⟨w', hl, hmodel⟩

/-- The user is asked once. -/
theorem asking_outcome : ∃ m, (asking "Go on with {storyboard}?").found atNight = .ok (some m) ∧
    (asking "Go on with {storyboard}?").Outcome [] atNight ["Go on with d?"]
      ((asking "Go on with {storyboard}?").load [] atNight) := by
  obtain ⟨m, hm, hboard, -⟩ := atNight_stored "Go on with {storyboard}?"
  have hfound := found_of_stored hm
  have hq : (asking "Go on with {storyboard}?").question m = .ok "Go on with d?" := by
    unfold question
    rw [hboard]
    rfl
  obtain ⟨questions, h⟩ := load_outcome (s := asking "Go on with {storyboard}?") (w := atNight)
    (fun _ _ => ⟨_, rfl⟩) []
  refine ⟨m, hfound, ?_⟩
  rw [← h.comes.asked rfl hfound hq]
  exact h

def atNull : World (List String) :=
  { World.blank [] with disk := ⟨[((asking "").file, .file "null".toUTF8)]⟩ }

theorem parse_null : Json.parse "null" = .ok .null := by
  have h : (Json.parse "null").toOption.map (fun j => (Value.ofJson j).isNull) = some true := by decide +kernel
  generalize Json.parse "null" = answer at h ⊢
  cases answer with
  | error f => cases h
  | ok j =>
    cases j with
    | null => rfl
    | _ => cases h

/-- A file with more brackets than can be kept in mind. -/
def atDepth : World (List String) :=
  { World.blank [] with disk := ⟨[((asking "Go on?").file, .file (deepBytes 1000 []))]⟩ }

/-- Just null in the file is no journal, and yet no failure. What is nested too deep is none that loading would answer: it
comes out of it. -/
theorem asking_astray : (atNull.disk.node? (asking "Go on?").file = some (.file "null".toUTF8) ∧
    Json.parse "null" = .ok .null ∧ (∃ f, Model.ofState .null = .error f) ∧
    ∃ w', (asking "Go on?").load [] atNull = (.ok (.ok (asking "Go on?").freshModel), w')) ∧
    atDepth.disk.node? (asking "Go on?").file = some (.file (deepBytes 1000 [])) ∧
    ∃ w', (asking "Go on?").load [] atDepth = (.error (.overflow (.reading .array)), w') := by
  have hnull : (asking "Go on?").found atNull = .ok none := by
    have h : ((asking "Go on?").found atNull).toOption.map Option.isNone = some true := by decide +kernel
    generalize (asking "Go on?").found atNull = answer at h ⊢
    cases answer with
    | error f => cases h
    | ok o =>
      cases o with
      | none => rfl
      | some m => cases h
  have hnode : atDepth.disk.node? (asking "Go on?").file = some (.file (deepBytes 1000 [])) := rfl
  obtain ⟨d, hopened⟩ : ∃ d, (asking "Go on?").opened atDepth = .ok d := ok_of_toBool rfl
  have hdeep : (asking "Go on?").found atDepth = .error (.overflow (.reading .array)) :=
    (found_of_node hnode hopened).trans (runIn_deep (by decide) [])
  obtain ⟨w', hl, -⟩ := load_of_ok (congrArg Prod.fst (storedModel_of_none hnull)) []
  exact ⟨⟨rfl, parse_null, ⟨_, rfl⟩, w', hl⟩, hnode, _, load_of_overflow hdeep []⟩

end Boardwalk.Session
