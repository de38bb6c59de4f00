import Boardwalk.Proofs.Board.Ascent
/-!
# What a jump journals

A jump that is taken is journaled together with the frames that it passes over: its own record first, and then one for
each frame up to its target, in their order, so that the records stay as many as the frames up to the next cursor. All
of them are saved at once, and no code of the frames between is asked for (`jump_step`). A jump back passes over
nothing.
-/

namespace Boardwalk.Board

variable {σ : Type}

/-! ## The records of a jump -/

/-- The record, at a place of the journal, of a frame that is passed over. -/
def gapRecord (b : Board σ) (place : Nat) (i : Int) : Record :=
  ⟨.int place, ((b.spot? i).map Spot.name).getD "", emptyKind, .dict [], .bool true, .int i⟩

theorem skipped_eq (b : Board σ) (is : List Int) (t : Timeline) :
    b.skipped t is = t ++ is.mapIdx fun j i => b.gapRecord (t.length + j) i := by
  induction is generalizing t with
  | nil => simp [skipped]
  | cons i is ih =>
    rw [skipped, ih, List.mapIdx_cons, List.append_assoc, List.singleton_append, List.length_append]
    congr 3
    funext j i'
    rw [List.length_singleton, Nat.add_assoc, Nat.add_comm 1 j]

theorem between_getElem?_of_lt {i d k : Nat} (hl : i < d) (hr : d < k) : (between i k)[d - (i + 1)]? = some (d : Int) := by
  unfold between
  rw [List.getElem?_map, List.getElem?_range (by omega), Option.map_some]
  congr 1
  omega

/-- The records that a jump from a frame to another one adds to the journal: its own one, and one for each frame
between the two. -/
structure JumpRecords (b : Board σ) (i k : Nat) (t rs : Timeline) : Prop where
  length : rs.length = max 1 (k - i)
  own : rs[0]? = some ⟨.int t.length, numbered "jump_at_" i, "jump_frame", .int i, .bool true, .int i⟩
  gaps : ∀ d f, i < d → d < k → b.frames[d]? = some f →
    rs[d - i]? = some ⟨.int (t.length + (d - i) : Nat), f.nameAt d, emptyKind, .dict [], .bool true, .int d⟩

theorem spot?_of_frame {b : Board σ} {i : Nat} {f : Frame σ} (hf : b.frames[i]? = some f) :
    b.spot? i = some ⟨i, i, f⟩ := by
  obtain ⟨hlt, -⟩ := List.getElem?_eq_some_iff.mp hf
  obtain ⟨s, hs⟩ := spot?_of_lt (b := b) (Int.natCast_nonneg i) (by omega)
  obtain ⟨hposition, hframe⟩ := spot?_natCast hs
  obtain ⟨-, hcursor, -⟩ := spot?_some hs
  obtain ⟨cursor, position, frame⟩ := s
  dsimp only at hposition hframe hcursor
  subst hposition hcursor
  cases hf.symm.trans hframe
  exact hs

theorem jumpRecords_skipped (b : Board σ) (i k : Nat) (t : Timeline) : b.JumpRecords i k t
    (⟨.int t.length, numbered "jump_at_" i, "jump_frame", .int i, .bool true, .int i⟩ ::
      (between i k).mapIdx fun j d => b.gapRecord (t.length + 1 + j) d) := by
  refine ⟨?_, rfl, fun d f hl hr hf => ?_⟩
  · rw [List.length_cons, List.length_mapIdx, length_between]
    omega
  · obtain ⟨j, rfl⟩ : ∃ j, d = i + 1 + j := ⟨d - (i + 1), by omega⟩
    have hd := between_getElem?_of_lt hl hr
    rw [Nat.add_sub_cancel_left] at hd
    rw [show i + 1 + j - i = j + 1 by omega, List.getElem?_cons_succ, List.getElem?_mapIdx, hd, Option.map_some,
      gapRecord, spot?_of_frame hf, Nat.add_assoc, Nat.add_comm 1 j]
    rfl

/-! ## The step -/

theorem persist_user (b : Board σ) (ls : List (Level σ)) (a : Address) (g : Stage σ) :
    (b.persist ls a g).world.user = g.world.user := by
  obtain ⟨-, huser, -⟩ := Session.save_rest b.session a g.world
  unfold persist
  split
  · rename_i h
    rw [h] at huser
    exact huser
  · rename_i h
    rw [h] at huser
    exact huser

theorem taken_trace (ls : List (Level σ)) (s : Spot σ) (v : View) (g : Stage σ) :
    ∃ ms, (taken ls s v g).2.trace = ms ++ g.trace ∧ ms.length ≤ 1 ∧
      ∀ m ∈ ms, ∃ answer, m = ⟨ls, .evaluated s.position .condition answer, g.world⟩ := by
  unfold taken
  cases s.frame.condition? with
  | none => exact ⟨[], rfl, Nat.zero_le 1, nofun⟩
  | some c => exact ⟨[_], rfl, Nat.le_refl 1, fun m hm => ⟨_, List.mem_singleton.mp hm⟩⟩

section

variable {b : Board σ} {ls : List (Level σ)} {a : Address} {x : Value} {m : Model} {g : Stage σ} {i k : Nat}
  {target : Target} {condition : Option (Condition σ)}

/-- **A jump that is taken** adds its own record and one for each frame that it passes over. It asks for nothing but its
own condition, saves all of the records in one, and the walk goes on at its target. -/
theorem jump_step (hm : g.world.model? a = some m) (hf : b.frames[i]? = some (.jump target condition))
    (hk : b.jumpTarget target = .ok k)
    (htaken : (taken ls ⟨i, i, .jump target condition⟩ ⟨m.timeline, i⟩ g).1 = .ok true) (enters : List (Enter σ)) :
    ∃ rs g' answer w ms, b.turn enters ls a x i g = (.next k, g') ∧ b.JumpRecords i k m.timeline rs ∧
      g'.world.model? a = some ⟨m.board, m.timeline ++ rs⟩ ∧
      g'.trace = ⟨ls, .saved answer, w⟩ :: (ms ++ g.trace) ∧ w.model? a = some ⟨m.board, m.timeline ++ rs⟩ ∧
      (answer = .ok () → b.session.FileHolds ⟨m.board, m.timeline ++ rs⟩ g'.world.disk) ∧
      ms.length ≤ 1 ∧ (∀ m ∈ ms, ∃ answer, m = ⟨ls, .evaluated i .condition answer, g.world⟩) ∧
      g'.world.user = (taken ls ⟨i, i, .jump target condition⟩ ⟨m.timeline, i⟩ g).2.world.user ∧
      ∀ n, b.steps enters ls a x (n + 1) i g =
        b.steps enters ls a x n k (g'.record ⟨ls, .turned i (.next k), g.world⟩) := by
  obtain ⟨es, -, hasks⟩ := taken_asks ls (s := ⟨i, i, .jump target condition⟩) hf ⟨m.timeline, i⟩ g
  obtain ⟨ms, htrace, hone, hown⟩ := taken_trace ls ⟨i, i, .jump target condition⟩ ⟨m.timeline, i⟩ g
  obtain ⟨hlt, -⟩ := List.getElem?_eq_some_iff.mp hf
  cases hdecided : taken ls ⟨i, i, .jump target condition⟩ ⟨m.timeline, i⟩ g with
  | mk yes g₁ =>
    rw [hdecided] at htaken hasks htrace
    dsimp only at htaken hasks htrace
    subst htaken
    have hm₁ : g₁.world.model? a = some m := (hasks.model a).trans hm
    have hjumped := adds_entry hm₁ (numbered "jump_at_" i) "jump_frame" i (.int i) true
    obtain ⟨gaps, hgaps, hskipped⟩ := adds_skipped_eq b a m (between i k) (hjumped.model hm₁)
    rw [skipped_eq, List.append_cancel_left_eq, List.length_append, List.length_singleton] at hskipped
    subst hskipped
    have hadds := hjumped.trans hgaps
    have hw := hadds.model hm₁
    have huser := hadds.user
    -- the world in which the jump and the frames between are journaled
    generalize hadded : (between i k).foldl (b.addSkipped a)
      (add a (numbered "jump_at_" i) "jump_frame" i (.int i) true g₁.world) = w at hw huser
    obtain ⟨answer, hcommits⟩ := persist_commits b ls (g := g₁.withWorld w) hw 0
    have hturn : b.turn enters ls a x i g = (.next k, b.report Log.debug "Jumped"
        [("from_frame", .int i), ("to_frame", .int k)] (b.persist ls a (g₁.withWorld w))) := by
      unfold turn
      simp only [spot?_of_frame hf, journal_of_model hm, hdecided]
      unfold jump
      simp only [hk, ← hadded]
      rfl
    refine ⟨_, _, answer, w, ms, hturn, jumpRecords_skipped b i k m.timeline, hcommits.model, ?_, hw, fun hanswer => ?_,
      hone, hown, ?_, fun n => ?_⟩
    · rw [← htrace]
      exact hcommits.spans.trace
    · subst hanswer
      exact hcommits.holds trivial (by simp [SavesSucceed])
    · exact (persist_user b ls a (g₁.withWorld w)).trans huser
    · rw [steps, if_neg (by omega), hturn]

end

/-- The jump passes over the third frame: its record follows that of the jump. -/
theorem leaps_jump : ∃ rs g', leaps.turn [] [] [] .null 1 ⟨(World.blank ()).remember [] ⟨"b", []⟩, []⟩ = (.next 3, g') ∧
    g'.world.model? [] = some ⟨"b", rs⟩ ∧ rs.length = 2 ∧
    rs[0]? = some ⟨.int 0, numbered "jump_at_" 1, "jump_frame", .int 1, .bool true, .int 1⟩ ∧
    rs[1]? = some ⟨.int 1, "B", emptyKind, .dict [], .bool true, .int 2⟩ := by
  obtain ⟨rs, g', -, -, -, hturn, hrecords, hmodel, -⟩ :=
    @jump_step _ leaps [] [] .null _ ⟨(World.blank ()).remember [] ⟨"b", []⟩, []⟩ 1 3 (.name "C") none
      (World.model?_remember_self _ _ _) rfl rfl rfl []
  exact ⟨rs, g', hturn, hmodel, hrecords.length, hrecords.own, hrecords.gaps 2 _ (by decide) (by decide) rfl⟩

end Boardwalk.Board
