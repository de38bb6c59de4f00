import Boardwalk.Board.Walk
/-!
# The tree of a board

The boards below a board by their addresses, the code that a board calls, and induction over the tree: what
holds of a board whenever it holds of the boards directly below holds of every board (`induction`).
-/

namespace Boardwalk

variable {σ : Type}

def Frame.AllCode (P : Code σ Value → Prop) : Frame σ → Prop
  | .work _ _ condition provider action =>
    (∀ c ∈ condition, ∀ v, P (c v)) ∧ (∀ p ∈ provider, ∀ v x, P (p v x)) ∧ ∀ x, P (action x)
  | .stop _ c => ∀ v, P (c v)
  | .jump _ condition => ∀ c ∈ condition, ∀ v, P (c v)
  | .story _ condition provider => (∀ c ∈ condition, ∀ v, P (c v)) ∧ ∀ p ∈ provider, ∀ v x, P (p v x)

theorem Frame.AllCode.imp {P Q : Code σ Value → Prop} {f : Frame σ} (h : f.AllCode P) (hpq : ∀ code, P code → Q code) :
    f.AllCode Q := by
  cases f with
  | work => exact ⟨fun c hc v => hpq _ (h.1 c hc v), fun p hp v x => hpq _ (h.2.1 p hp v x), fun x => hpq _ (h.2.2 x)⟩
  | stop => exact fun v => hpq _ (h v)
  | jump => exact fun c hc v => hpq _ (h c hc v)
  | story => exact ⟨fun c hc v => hpq _ (h.1 c hc v), fun p hp v x => hpq _ (h.2 p hp v x)⟩

namespace Board

inductive Has : Board σ → Address → Board σ → Prop where
  | here (b : Board σ) : Has b [] b
  | story {b c d : Board σ} {i : Nat} {p : Address} {condition : Option (Condition σ)}
      {provider : Option (Provider σ)} : b.frames[i]? = some (.story c condition provider) → Has c p d →
      Has b (i :: p) d

theorem Has.snoc {b c d : Board σ} {p : Address} {i : Nat} {condition : Option (Condition σ)}
    {provider : Option (Provider σ)} (h : b.Has p c)
    (hf : c.frames[i]? = some (.story d condition provider)) : b.Has (p ++ [i]) d := by
  induction h with
  | here b => exact .story hf (.here d)
  | story hf' _ ih => exact .story hf' (ih hf)

inductive Calls (b : Board σ) : Code σ Value → Prop where
  | condition {i : Nat} {f : Frame σ} {c : Condition σ} (v : View) : b.frames[i]? = some f →
      f.condition? = some c → Calls b (c v)
  | provider {i : Nat} {f : Frame σ} {p : Provider σ} (v : View) (x : Value) : b.frames[i]? = some f →
      f.provider? = some p → Calls b (p v x)
  | predicate {i : Nat} {given : Option String} {c : Condition σ} (v : View) :
      b.frames[i]? = some (.stop given c) → Calls b (c v)
  | action {i : Nat} {kind : WorkKind} {name : String} {condition : Option (Condition σ)}
      {provider : Option (Provider σ)} {act : Action σ} (x : Value) :
      b.frames[i]? = some (.work kind name condition provider act) → Calls b (act x)
  | question (message : String) : Calls b (b.session.confirm message)

theorem Calls.all {b : Board σ} {P : Code σ Value → Prop} (hframes : ∀ f ∈ b.frames, f.AllCode P)
    (hquestion : ∀ message, P (b.session.confirm message)) {code : Code σ Value} (h : b.Calls code) : P code := by
  cases h with
  | question message => exact hquestion message
  | @condition i f c v hf hc =>
    have hall := hframes f (List.mem_of_getElem? hf)
    cases f with
    | work => exact hall.1 c hc v
    | stop => cases hc
    | jump => exact hall c hc v
    | story => exact hall.1 c hc v
  | @provider i f p v x hf hp =>
    have hall := hframes f (List.mem_of_getElem? hf)
    cases f with
    | work => exact hall.2.1 p hp v x
    | stop => cases hp
    | jump => cases hp
    | story => exact hall.2 p hp v x
  | predicate v hf => exact hframes _ (List.mem_of_getElem? hf) v
  | action x hf => exact (hframes _ (List.mem_of_getElem? hf)).2.2 x

def IsFlat (b : Board σ) : Prop := ∀ f ∈ b.frames, ∀ c condition provider, f ≠ Frame.story c condition provider

/-! ## Induction over the tree -/

theorem sizeOf_frames_lt (b : Board σ) : sizeOf b.frames < sizeOf b := by
  cases b
  simp only [BoardOf.mk.sizeOf_spec]
  omega

theorem sizeOf_story_lt {b c : Board σ} {i : Nat} {condition : Option (Condition σ)}
    {provider : Option (Provider σ)} (h : b.frames[i]? = some (.story c condition provider)) :
    sizeOf c < sizeOf b := by
  have hm := List.sizeOf_lt_of_mem (List.mem_of_getElem? h)
  have hb := b.sizeOf_frames_lt
  simp only [Frame.story.sizeOf_spec] at hm
  omega

/-- What a board inherits from the boards directly below holds of every board. -/
theorem induction {motive : Board σ → Prop}
    (step : ∀ b : Board σ, (∀ (i : Nat) (c : Board σ) (condition : Option (Condition σ))
      (provider : Option (Provider σ)), b.frames[i]? = some (.story c condition provider) → motive c) → motive b)
    (b : Board σ) : motive b :=
  step b fun _ c _ _ h =>
    have := sizeOf_story_lt h
    induction step c
termination_by sizeOf b

theorem mem_stories {b c : Board σ} {i : Nat} (h : (i, c) ∈ b.stories) :
    ∃ condition provider, b.frames[i]? = some (.story c condition provider) := by
  unfold stories at h
  obtain ⟨⟨j, f⟩, hm, he⟩ := List.mem_filterMap.mp h
  obtain ⟨k, hk, hkf⟩ := List.mem_mapIdx.mp hm
  obtain ⟨rfl, hf⟩ := Prod.mk.inj hkf
  have hget : b.frames[k]? = some f := by rw [List.getElem?_eq_getElem hk, hf]
  cases f with
  | story c' condition provider =>
    cases he
    exact ⟨condition, provider, hget⟩
  | work kind name condition provider action => cases he
  | stop given condition => cases he
  | jump target condition => cases he

theorem IsFlat.stories {b : Board σ} (h : b.IsFlat) : b.stories = [] := by
  apply List.eq_nil_iff_forall_not_mem.mpr
  rintro ⟨i, c⟩ hm
  obtain ⟨condition, provider, hf⟩ := mem_stories hm
  exact h _ (List.mem_of_getElem? hf) c condition provider rfl

/-! ## How the boards of story frames run -/

theorem enterBoard_eq (limit : Nat) (a : Address) (b : Board σ) :
    enterBoard limit a b = runWith b (enterFrames limit a 0 b.frames) limit a := by
  cases b
  rw [enterBoard]

theorem runWith_cases (b : Board σ) (enters : List (Enter σ)) (limit : Nat) (a : Address)
    (above : List (Level σ)) (x : Value) (g : Stage σ) :
    (∃ f w, b.session.load a g.world = (.error f, w) ∧
      b.runWith enters limit a above x g = (.raised f, g.withWorld w)) ∨
    (∃ f w, b.session.load a g.world = (.ok (.error f), w) ∧ b.session.settings.strictLoad = true ∧
      b.runWith enters limit a above x g = (.failure f, g.withWorld w)) ∨
    ∃ loaded w, b.session.load a g.world = (.ok loaded, w) ∧
      b.runWith enters limit a above x g =
        b.walk enters limit (⟨b, a, w⟩ :: above) a (givenContext x) (g.withWorld w) := by
  unfold runWith
  cases hl : b.session.load a g.world with
  | mk answer w =>
    cases answer with
    | error f => exact .inl ⟨f, w, rfl, rfl⟩
    | ok loaded =>
      dsimp only
      split
      · rename_i hstrict
        exact .inr (.inl ⟨_, w, rfl, hstrict, rfl⟩)
      · exact .inr (.inr ⟨_, w, rfl, rfl⟩)

def opened (b : Board σ) (ls : List (Level σ)) (a : Address) (g : Stage σ) : Stage σ :=
  b.report Log.info "Storyboard run started"
    [("cursor", .int (g.world.journal a).cursor), ("frames", .int b.frames.length)]
    (g.note ls (.started (g.world.journal a).cursor))

def close (b : Board σ) (ls : List (Level σ)) (a : Address) : Halt × Stage σ → Ending × Stage σ
  | (.raised f, g) => (.raised f, g)
  | (.unfinished, g) => (.unfinished, g)
  | (.ended, g) => b.finish ls a g

theorem walk_eq (b : Board σ) (enters : List (Enter σ)) (limit : Nat) (ls : List (Level σ)) (a : Address) (x : Value)
    (g : Stage σ) : b.walk enters limit ls a x g =
      b.close ls a (b.steps enters ls a x limit (g.world.journal a).cursor (b.opened ls a g)) := rfl

theorem enterFrames_getElem? (limit : Nat) (a : Address) (k : Nat) (fs : List (Frame σ)) (i : Nat) :
    (enterFrames limit a k fs)[i]? = fs[i]?.map (enterFrame limit (a ++ [k + i])) := by
  induction fs generalizing k i with
  | nil => rfl
  | cons f fs ih =>
    rw [enterFrames]
    cases i with
    | zero => rfl
    | succ i =>
      rw [List.getElem?_cons_succ, List.getElem?_cons_succ, ih]
      congr 4
      omega

theorem enterFrames_story {limit : Nat} {a : Address} {b c : Board σ} {i : Nat}
    {condition : Option (Condition σ)} {provider : Option (Provider σ)}
    (h : b.frames[i]? = some (.story c condition provider)) :
    (enterFrames limit a 0 b.frames)[i]? = some (enterBoard limit (a ++ [i]) c) := by
  rw [enterFrames_getElem?, h, Option.map_some, enterFrame, Nat.zero_add]

theorem mem_enterFrames {limit : Nat} {a : Address} {b : Board σ} {enter : Enter σ}
    (h : enter ∈ enterFrames limit a 0 b.frames) :
    (∃ i c condition provider, b.frames[i]? = some (.story c condition provider) ∧
      enter = enterBoard limit (a ++ [i]) c) ∨ enter = fun _ _ g => (.unfinished, g) := by
  obtain ⟨i, hi⟩ := List.getElem?_of_mem h
  rw [enterFrames_getElem?, Nat.zero_add] at hi
  obtain ⟨f, hf, rfl⟩ := Option.map_eq_some_iff.mp hi
  cases f with
  | story c condition provider => exact .inl ⟨i, c, condition, provider, hf, by rw [enterFrame]⟩
  | work kind name condition provider action => exact .inr rfl
  | stop given condition => exact .inr rfl
  | jump target condition => exact .inr rfl

/-! ## The frame at a cursor -/

theorem spot?_some {b : Board σ} {cursor : Int} {s : Spot σ} (h : b.spot? cursor = some s) :
    b.frames[s.position]? = some s.frame ∧ s.cursor = cursor ∧ (0 ≤ cursor → (s.position : Int) = cursor) := by
  unfold spot? at h
  dsimp only at h
  generalize hp : (if cursor < 0 then cursor + (b.frames.length : Int) else cursor) = position at h
  split at h
  · cases h
  · cases hf : b.frames[position.toNat]? with
    | none =>
      rw [hf] at h
      cases h
    | some f =>
      rw [hf] at h
      cases h
      refine ⟨hf, rfl, fun hc => ?_⟩
      rw [if_neg (by omega)] at hp
      dsimp only
      omega

theorem IsFlat.frame_ne {b : Board σ} (h : b.IsFlat) {cursor : Int} {s : Spot σ} (hs : b.spot? cursor = some s)
    {c : Board σ} {condition : Option (Condition σ)} {provider : Option (Provider σ)} :
    s.frame ≠ .story c condition provider :=
  h s.frame (List.mem_of_getElem? (spot?_some hs).1) c condition provider

theorem spot?_of_lt {b : Board σ} {cursor : Int} (h₀ : 0 ≤ cursor) (h : cursor < b.frames.length) :
    ∃ s, b.spot? cursor = some s := by
  unfold spot?
  dsimp only
  rw [if_neg (show ¬ cursor < 0 by omega), if_neg (show ¬ cursor < 0 by omega),
    List.getElem?_eq_getElem (by omega)]
  exact ⟨_, rfl⟩

theorem jumpTarget_lt {b : Board σ} {target : Target} {t : Nat} (h : b.jumpTarget target = .ok t) :
    t < b.frames.length := by
  unfold jumpTarget at h
  split at h
  · cases h
  · split at h
    · rename_i i hn
      cases h
      unfold lastNamed? at hn
      obtain ⟨p, hp, rfl⟩ := Option.map_eq_some_iff.mp hn
      have hm := List.mem_reverse.mp (List.mem_of_find?_eq_some hp)
      have hl := (List.mem_zipIdx_iff_getElem?.mp hm)
      obtain ⟨hlt, -⟩ := List.getElem?_eq_some_iff.mp hl
      simpa [names] using hlt
    · cases h
  · split at h
    · rename_i hn
      cases h
      omega
    · cases h

end Board

end Boardwalk
