import Boardwalk.Proofs.Record.Validated
import Boardwalk.Proofs.Session.Stored
/-!
# Sessions that start afresh

A session resumes a run only if its file can be read, holds one, and the user does not decline (`Declines`). In every
other case loading puts an empty journal into memory and raises no fault (`load_of_declines`), unless the file is nested
too deep: this is so for every other kind of trouble with the file (`Troubled.declines`).
-/

namespace Boardwalk

open StateFile

/-! ## Faults of reading -/

theorem Model.ofState_unreadable {j : Json} {f : Fault} (h : Model.ofState j = .error f) : f.isUnreadable = true := by
  unfold ofState at h
  cases hc : check (Value.ofJson j) with
  | good m =>
    rw [hc] at h
    cases h
  | bad is =>
    rw [hc] at h
    cases h
    rfl

namespace StateFile

theorem stateOfBytes_unreadable {c : ByteArray} {f : Fault} (h : stateOfBytes c = .error f)
    (hdeep : ∀ k, f ≠ .overflow k) : f.isUnreadable = true := by
  unfold stateOfBytes stateOf at h
  split at h
  · split at h
    · cases h
    · split at h
      · cases h
      · cases h
      · cases h
        rfl
      · cases h
        exact absurd rfl (hdeep _)
      · cases h
        rfl
  · cases h
    rfl

theorem stateOfNode_unreadable {n : Option Node} {f : Fault} (h : stateOfNode n = .error f)
    (hdeep : ∀ k, f ≠ .overflow k) : f.isUnreadable = true := by
  cases n with
  | none => cases h
  | some n =>
    cases n with
    | dir =>
      cases h
      exact Fault.isUnreadable_disk _
    | file c => exact stateOfBytes_unreadable h hdeep

/-- Either the file is not reached, or what is found there is the answer. -/
theorem read_cases (held : List Place) (l : Location) (d : Disk) :
    (∃ f d', read held l d = (.error f, d') ∧ f.isUnreadable = true) ∨
      ∃ d', read held l d = (stateOfNode (d'.node? (filePlace l)), d') ∧ held.contains (lockPlace l) = false := by
  unfold read locked
  split
  · exact .inl ⟨_, _, rfl, Fault.isUnreadable_disk _⟩
  · rename_i dir d₀ hm
    obtain rfl := Disk.makeDirs_place hm
    split
    · rename_i hlock
      exact .inl ⟨_, _, rfl, takeLock_unreadable hlock⟩
    · rename_i d₁ hlock
      exact .inr ⟨d₁, readState_eq _ d₁, (takeLock_inv hlock).2.2⟩

end StateFile

namespace Session

variable {σ : Type} {s : Session σ} {w : World σ}

theorem readFile_cases (s : Session σ) (w : World σ) :
    (∃ f, (s.readFile w).1 = .error f ∧ f.isUnreadable = true) ∨
      (s.readFile w).1 = stateOfNode ((s.readFile w).2.disk.node? s.file) ∧
        w.held.contains s.lock = false ∧ ∃ p, (w.disk.makeDirs s.directory).1 = .ok p := by
  unfold readFile
  cases hm : w.disk.makeDirs s.directory with
  | mk made d =>
    cases made with
    | error f => exact .inl ⟨_, rfl, Fault.isUnreadable_disk f⟩
    | ok p =>
      dsimp only
      cases hl : s.resolved with
      | error f =>
        refine .inl ⟨f, rfl, ?_⟩
        unfold resolved at hl
        cases hr : s.location.resolve with
        | error f' =>
          rw [hr] at hl
          cases hl
          exact Fault.isUnreadable_disk f'
        | ok l =>
          rw [hr] at hl
          cases hl
      | ok l =>
        obtain rfl := eq_target hl
        dsimp only
        rcases StateFile.read_cases w.held s.target d with ⟨f, d', hr, hf⟩ | ⟨d', hr, hfree⟩
        · rw [hr]
          exact .inl ⟨f, rfl, hf⟩
        · rw [hr]
          exact .inr ⟨rfl, hfree, p, rfl⟩

theorem readFile_unreadable {w' : World σ} {f : Fault} (h : s.readFile w = (.error f, w'))
    (hdeep : ∀ k, f ≠ .overflow k) : f.isUnreadable = true := by
  rcases readFile_cases s w with ⟨f', hf, hu⟩ | ⟨hstate, -⟩
  · rw [h] at hf
    cases hf
    exact hu
  · rw [h] at hstate
    exact stateOfNode_unreadable hstate.symm hdeep

/-- What the file holds is read, or found to be too deep, only if nothing stands in the way. -/
theorem readFile_reaches {w' : World σ} {x : Except Fault (Option Json)} (h : s.readFile w = (x, w'))
    (hx : ∀ f, x = .error f → f.isUnreadable = false) (hsome : x ≠ .ok none) :
    (∃ c, w.disk.node? s.file = some (.file c) ∧ stateOfBytes c = x) ∧
      w.held.contains s.lock = false ∧ ∃ p, (w.disk.makeDirs s.directory).1 = .ok p := by
  have hbrings := brings_readFile (file_ne_lock s s) w
  rcases readFile_cases s w with ⟨f, hf, hu⟩ | ⟨hstate, hrest⟩
  · rw [h] at hf
    cases hu.symm.trans (hx f hf)
  · rw [h] at hstate hbrings
    refine ⟨?_, hrest⟩
    cases hn : w'.disk.node? s.file with
    | none =>
      rw [hn] at hstate
      exact absurd hstate hsome
    | some n =>
      rw [hn] at hstate
      cases n with
      | dir => cases (hx _ hstate).symm.trans (Fault.isUnreadable_disk _)
      | file c => exact ⟨c, hbrings c hn, hstate.symm⟩

theorem readFile_state {w' : World σ} {j : Json} (h : s.readFile w = (.ok (some j), w')) :
    (∃ c, w.disk.node? s.file = some (.file c) ∧ stateOfBytes c = .ok (some j)) ∧
      w.held.contains s.lock = false ∧ ∃ p, (w.disk.makeDirs s.directory).1 = .ok p :=
  readFile_reaches h nofun (by simp)

/-! ## Loading afresh -/

/-- The file is not nested too deep, and a run that it holds is not resumed. -/
structure Declines (s : Session σ) (w : World σ) : Prop where
  shallow : ∀ k, (s.readFile w).1 ≠ .error (.overflow k)
  resumes : ∀ {j w₁ m}, s.readFile w = (.ok (some j), w₁) → Model.ofState j = .ok m →
    (s.resumeAgreed m w₁).1 = .ok false

theorem storedModel_of_declines (h : s.Declines w) :
    (s.storedModel w).1 = .ok none ∨ ∃ f, (s.storedModel w).1 = .error f ∧ f.isUnreadable = true := by
  unfold storedModel
  split
  · rename_i hr
    refine .inr ⟨_, rfl, readFile_unreadable hr ?_⟩
    rintro k rfl
    exact h.shallow k (congrArg Prod.fst hr)
  · exact .inl rfl
  · rename_i j w₁ hr
    split
    · rename_i hj
      exact .inr ⟨_, rfl, Model.ofState_unreadable hj⟩
    · rename_i m hj
      have hno := h.resumes hr hj
      split
      all_goals
        rename_i hq
        rw [hq] at hno
      · cases hno
      · cases hno
      · exact .inl rfl

theorem load_of_declines (h : s.Declines w) (a : Address) :
    ∃ r w', s.load a w = (.ok r, w') ∧ w'.model? a = some s.freshModel := by
  have hs := storedModel_of_declines h
  unfold load
  split
  all_goals
    rename_i hr
    rw [hr] at hs
  · rcases hs with hs | ⟨f, hs, -⟩
    · cases hs
    · cases hs
  · exact ⟨_, _, rfl, World.model?_remember_self _ _ _⟩
  · rcases hs with hs | ⟨f, hs, hf⟩
    · cases hs
    · cases hs
      rw [if_pos hf]
      exact ⟨_, _, rfl, World.model?_remember_self _ _ _⟩

/-! ## Loading a run again -/

theorem storedModel_some {m : Model} (h : (s.storedModel w).1 = .ok (some m)) :
    ∃ j, s.readFile w = (.ok (some j), (s.readFile w).2) ∧ Model.ofState j = .ok m := by
  unfold storedModel at h
  cases hr : s.readFile w with
  | mk answer w₁ =>
    rw [hr] at h
    cases answer with
    | error f => cases h
    | ok state =>
      cases state with
      | none => cases h
      | some j =>
        refine ⟨j, rfl, ?_⟩
        dsimp only at h
        split at h
        · cases h
        · rename_i m' hj
          split at h
          · cases h
          · cases h
            exact hj
          · cases h

theorem load_loads {a : Address} {w' : World σ} {r : Answer Model} (h : s.load a w = (.ok r, w')) :
    ∃ m, w'.model? a = some m ∧
      ((s.storedModel w).1 = .ok (some m) ∨ m = s.freshModel ∧ ∀ m', (s.storedModel w).1 ≠ .ok (some m')) := by
  unfold load at h
  split at h
  · rename_i m _ hs
    cases h
    exact ⟨m, World.model?_remember_self _ _ _, .inl (congrArg Prod.fst hs)⟩
  · rename_i hs
    cases h
    exact ⟨_, World.model?_remember_self _ _ _, .inr ⟨rfl, by simp [hs]⟩⟩
  · rename_i hs
    split at h
    · cases h
      exact ⟨_, World.model?_remember_self _ _ _, .inr ⟨rfl, by simp [hs]⟩⟩
    · cases h

theorem load_valid {a : Address} {w' : World σ} {r : Answer Model} {m : Model} (h : s.load a w = (.ok r, w'))
    (hm : w'.model? a = some m) : ∀ r ∈ m.timeline, r.IsValid := by
  obtain ⟨m', hm', hstored⟩ := load_loads h
  cases hm.symm.trans hm'
  rcases hstored with hs | ⟨rfl, -⟩
  · obtain ⟨j, -, hj⟩ := storedModel_some hs
    exact Model.ofState_valid hj
  · intro r hr
    cases hr

/-- The file holds a run with records, and the user does not decline to resume it. -/
def Resumes (s : Session σ) (w : World σ) : Prop := ∃ m, (s.storedModel w).1 = .ok (some m) ∧ m.timeline ≠ []

/-- **The journal is empty after the loading unless a run is resumed.** -/
theorem load_journal {a : Address} {w' : World σ} {r : Answer Model} (h : s.load a w = (.ok r, w')) :
    w'.journal a = [] ↔ ¬ s.Resumes w := by
  obtain ⟨m, hm, hstored⟩ := load_loads h
  unfold World.journal Resumes
  rw [hm]
  rcases hstored with hs | ⟨rfl, hs⟩
  · simp [hs]
  · simp [hs, freshModel]

theorem Resumes.stores (h : s.Resumes w) {d : Disk} (hb : Disk.BringsNone s.file d w.disk) :
    ∃ t, s.Stores d t ∧ t ≠ [] := by
  obtain ⟨m, hm, hne⟩ := h
  obtain ⟨j, hr, hj⟩ := storedModel_some hm
  obtain ⟨⟨c, hc, hstate⟩, -⟩ := readFile_state hr
  exact ⟨_, .model (by rw [hb c hc]; exact hstate) hj, hne⟩

theorem readFile_stateOfNode {o o' : Option Json} {w' : World σ} (h : stateOfNode (w.disk.node? s.file) = .ok o)
    (hr : s.readFile w = (.ok o', w')) : o' = o := by
  have hstate := (readFile_ok hr).2
  have hstays := stays_readFile s.lock s w
  have hbrings := brings_readFile (file_ne_lock s s) w
  rw [hr] at hstays hbrings
  dsimp only at hstays hbrings
  cases hn : w.disk.node? s.file with
  | some n =>
    -- the node is still there
    rw [hn] at h
    rw [hstays _ n hn (.inl (file_ne_lock s s)), h] at hstate
    exact (Except.ok.inj hstate).symm
  | none =>
    rw [hn] at h
    cases h
    cases hn' : w'.disk.node? s.file with
    | none =>
      rw [hn'] at hstate
      cases hstate
      rfl
    | some n =>
      cases n with
      | file c => cases hn.symm.trans (hbrings c hn')
      | dir =>
        rw [hn'] at hstate
        cases hstate

/-- **If nothing is in the way, the loading gives the journal that the file stores.** -/
theorem load_stores {a : Address} {t : Timeline} {m : Model} {w' : World σ} (h : s.Stores w.disk t)
    (hl : s.load a w = (.ok (.ok m), w')) (ha : s.Agrees w) : w'.journal a = t := by
  obtain ⟨o, w₁, hr⟩ : ∃ o w₁, s.readFile w = (.ok o, w₁) := by
    cases hr : s.readFile w with
    | mk answer w₁ =>
      cases answer with
      | ok o => exact ⟨o, w₁, rfl⟩
      | error f =>
        unfold load storedModel at hl
        simp only [hr] at hl
        split at hl
        · cases hl
        · cases hl
  cases h with
  | nothing hs =>
    obtain rfl := readFile_stateOfNode hs hr
    refine (load_journal hl).mpr ?_
    rintro ⟨m', hm', -⟩
    obtain ⟨j, hj, -⟩ := storedModel_some hm'
    rw [hr] at hj
    cases hj
  | model hs hj =>
    obtain rfl := readFile_stateOfNode hs hr
    obtain ⟨w₂, hl', hmodel, -⟩ := load_of_state a hr hj ha
    cases hl.symm.trans hl'
    unfold World.journal
    rw [hmodel]
    rfl

theorem load_user {P : σ → Prop} (h : P w.user)
    (hask : ∀ message w, P w.user → P (s.confirm message w).2.user) (a : Address) : P (s.load a w).2.user := by
  refine load_world (P := fun w => P w.user) ?_ (fun h message => hask message _ h) (fun h _ => h) (fun h _ => h)
  rw [readFile_rest]
  exact h

/-! ## Trouble with the file -/

/-- The file of the session cannot be read, holds no session, or one that the user does not resume. -/
inductive Troubled (s : Session σ) (w : World σ) : Prop where
  | blank {c : ByteArray} : w.disk.node? s.file = some (.file c) → stateOfBytes c = .ok none → Troubled s w
  | unreadable {c : ByteArray} {f : Fault} : w.disk.node? s.file = some (.file c) → stateOfBytes c = .error f →
      (∀ k, f ≠ .overflow k) → Troubled s w
  | invalid {c : ByteArray} {j : Json} {f : Fault} : w.disk.node? s.file = some (.file c) →
      stateOfBytes c = .ok (some j) → Model.ofState j = .error f → Troubled s w
  | declined {c : ByteArray} {j : Json} {m : Model} : w.disk.node? s.file = some (.file c) →
      stateOfBytes c = .ok (some j) → Model.ofState j = .ok m →
      (s.resumeAgreed m (s.readFile w).2).1 = .ok false → Troubled s w
  | directory : w.disk.node? s.file = some .dir → Troubled s w
  | blocked {names rest : List String} {n : String} {c : ByteArray} : s.directory.way = names ++ n :: rest →
      w.disk.node? ((names ++ [n]).foldl Place.enter s.directory.start) = some (.file c) → Troubled s w
  | locked : w.held.contains s.lock = true → Troubled s w

end Session

namespace Disk

theorem makeDirsAlong_blocked {names rest : List String} {n : String} {c : ByteArray} {d : Disk} {dir : Place}
    {made : Bool} (h : d.node? ((names ++ [n]).foldl Place.enter dir) = some (.file c)) (p : Place) :
    (d.makeDirsAlong dir made (names ++ n :: rest)).1 ≠ .ok p := by
  have herror : ∀ {d : Disk} {f : DiskFault}, ((.error f, d) : Except DiskFault Place × Disk).1 ≠ .ok p := by
    intro d f he
    cases he
  induction names generalizing d dir made with
  | nil =>
    unfold makeDirsAlong
    dsimp only [List.nil_append]
    split
    · exact herror
    · rw [show d.node? (dir.enter n) = some (.file c) from h]
      exact herror
  | cons m names ih =>
    unfold makeDirsAlong
    dsimp only [List.cons_append]
    split
    · exact herror
    · split
      · exact ih h
      · exact herror
      · rename_i hm
        refine ih ?_
        by_cases hp : (names ++ [n]).foldl Place.enter (dir.enter m) = dir.enter m
        · have h' : d.node? ((names ++ [n]).foldl Place.enter (dir.enter m)) = some (.file c) := h
          rw [hp, hm] at h'
          cases h'
        · rw [node?_put_ne d _ hp]
          exact h

end Disk

namespace Session

variable {σ : Type} {s : Session σ} {w : World σ}

/-- What is found in a file that can be reached is neither a run that is resumed nor nested too deep. -/
theorem Troubled.found (h : s.Troubled w) {x : Except Fault (Option Json)} {w' : World σ} (hr : s.readFile w = (x, w'))
    (hx : ∀ f, x = .error f → f.isUnreadable = false) (hsome : x ≠ .ok none) :
    ∃ j, x = .ok (some j) ∧ ∀ m, Model.ofState j = .ok m → (s.resumeAgreed m w').1 = .ok false := by
  obtain ⟨⟨c, hfile, hstate⟩, hfree, p, hdirs⟩ := readFile_reaches hr hx hsome
  cases h with
  | @blank c' hf hs =>
    cases hfile.symm.trans hf
    exact absurd (hstate.symm.trans hs) hsome
  | @unreadable c' f hf hs hdeep =>
    cases hfile.symm.trans hf
    obtain rfl := hstate.symm.trans hs
    cases (hx f rfl).symm.trans (stateOfBytes_unreadable hs hdeep)
  | @invalid c' j f hf hs hj =>
    cases hfile.symm.trans hf
    obtain rfl := hstate.symm.trans hs
    refine ⟨j, rfl, fun m hm => ?_⟩
    cases hj.symm.trans hm
  | @declined c' j m hf hs hj hno =>
    cases hfile.symm.trans hf
    obtain rfl := hstate.symm.trans hs
    refine ⟨j, rfl, fun m' hm => ?_⟩
    cases hj.symm.trans hm
    rw [hr] at hno
    exact hno
  | directory hf => cases hfile.symm.trans hf
  | blocked hway hf =>
    unfold Disk.makeDirs at hdirs
    split at hdirs
    · cases hdirs
    · rw [hway] at hdirs
      exact absurd hdirs (Disk.makeDirsAlong_blocked hf p)
  | locked hl => cases hfree.symm.trans hl

theorem Troubled.declines (h : s.Troubled w) : s.Declines w where
  shallow k hk := by
    obtain ⟨j, hj, -⟩ := h.found (Prod.ext hk rfl : s.readFile w = (_, (s.readFile w).2)) (fun f hf => by cases hf; rfl)
      (by simp)
    cases hj
  resumes {j w₁ m} hr hj := by
    obtain ⟨j', hj', hno⟩ := h.found hr nofun (by simp)
    cases hj'
    exact hno m hj

theorem readFile_of_none (h : w.disk.node? s.file = none) (j : Json) : (s.readFile w).1 ≠ .ok (some j) := by
  intro hr
  obtain ⟨⟨c, hc, -⟩, -⟩ := readFile_state (Prod.ext hr rfl : s.readFile w = (.ok (some j), (s.readFile w).2))
  cases hc.symm.trans h

theorem declines_of_none (h : w.disk.node? s.file = none) : s.Declines w where
  shallow k hk := by
    obtain ⟨⟨c, hc, -⟩, -⟩ := readFile_reaches (Prod.ext hk rfl : s.readFile w = (_, (s.readFile w).2))
      (fun f hf => by cases hf; rfl) (by simp)
    cases hc.symm.trans h
  resumes hr _ := absurd (congrArg Prod.fst hr) (readFile_of_none h _)

theorem load_user_of_none (h : w.disk.node? s.file = none) (a : Address) : (s.load a w).2.user = w.user := by
  have hread : (s.readFile w).2.user = w.user := by
    rw [readFile_rest]
    rfl
  have hno := readFile_of_none h
  unfold load storedModel
  cases hr : s.readFile w with
  | mk answer w₁ =>
    rw [hr] at hread hno
    cases answer with
    | error f =>
      dsimp only
      split
      · exact hread
      · exact hread
    | ok state =>
      cases state with
      | none => exact hread
      | some j => exact absurd rfl (hno j)

end Session

end Boardwalk
