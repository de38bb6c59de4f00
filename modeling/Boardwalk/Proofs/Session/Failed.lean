import Boardwalk.Proofs.Session.Stored
/-!
# Operations that fail

An operation on a state file that fails has made directories on the way to the file, and the file that stands for its
lock, and has not touched anything else (`gains_delete`); a write may also fail on a text that no bytes stand for, and
has opened the file then (`gains_write`). So a saving or a clearing that fails for another reason leaves all journals,
and every file that there was (`failed_unharmed`).
-/

namespace Boardwalk

/-- A location leads through the places of its names, taken one after the other. -/
def Location.LeadsThrough (l : Location) (p : Place) : Prop :=
  ∃ names, names <+: l.way ∧ p = names.foldl Place.enter l.start

namespace Disk

/-- Every place is what it was, or had nothing and now has a node that may be made there. -/
def Gains (G : Place → Node → Prop) (d d' : Disk) : Prop :=
  ∀ p, d'.node? p = d.node? p ∨ d.node? p = none ∧ ∃ n, d'.node? p = some n ∧ G p n

variable {G : Place → Node → Prop} {d d' d'' : Disk}

theorem Gains.refl (G : Place → Node → Prop) (d : Disk) : Gains G d d := fun _ => .inl rfl

theorem Gains.trans (h : Gains G d d') (h' : Gains G d' d'') : Gains G d d'' := by
  intro p
  rcases h' p with h' | ⟨hn', n, hn, hG⟩
  · rw [h']
    exact h p
  · rcases h p with h | ⟨-, n', hn'', -⟩
    · exact .inr ⟨h.symm.trans hn', n, hn, hG⟩
    · cases hn'.symm.trans hn''

theorem Gains.mono {G' : Place → Node → Prop} (h : Gains G d d') (hG : ∀ p n, G p n → G' p n) : Gains G' d d' := by
  intro p
  rcases h p with h | ⟨hn, n, hn', hp⟩
  · exact .inl h
  · exact .inr ⟨hn, n, hn', hG p n hp⟩

theorem Gains.stays (h : Gains G d d') {p : Place} {n : Node} (hp : d.node? p = some n) : d'.node? p = some n := by
  rcases h p with h | ⟨hn, -⟩
  · exact h.trans hp
  · cases hn.symm.trans hp

theorem gains_put {p : Place} {n : Node} (hp : d.node? p = none) (hG : G p n) : Gains G d (d.put p n) := by
  intro q
  by_cases hq : q = p
  · subst hq
    exact .inr ⟨hp, n, node?_put_self d n (isBase_eq_false hp (by simp)), hG⟩
  · exact .inl (node?_put_ne d n hq)

theorem gains_makeDirsAlong (names : List String) (d : Disk) (dir : Place) (made : Bool) :
    Gains (fun p n => n = .dir ∧ ∃ front, front <+: names ∧ p = front.foldl Place.enter dir) d
      (d.makeDirsAlong dir made names).2 := by
  induction names generalizing d dir made with
  | nil => exact .refl _ d
  | cons name rest ih =>
    have hrest (d : Disk) (made : Bool) :
        Gains (fun p n => n = .dir ∧ ∃ front, front <+: name :: rest ∧ p = front.foldl Place.enter dir) d
          (d.makeDirsAlong (Place.enter dir name) made rest).2 := by
      refine (ih d (Place.enter dir name) made).mono ?_
      rintro p n ⟨hn, front, hfront, hp⟩
      exact ⟨hn, name :: front, List.cons_prefix_cons.mpr ⟨rfl, hfront⟩, hp⟩
    unfold makeDirsAlong
    dsimp only
    split
    · exact .refl _ d
    · split
      · exact hrest d made
      · exact .refl _ d
      · rename_i hn
        refine .trans (gains_put hn ⟨rfl, [name], ?_, rfl⟩) (hrest _ true)
        exact List.cons_prefix_cons.mpr ⟨rfl, List.nil_prefix⟩

theorem gains_makeDirs (d : Disk) (l : Location) :
    Gains (fun p n => n = .dir ∧ l.LeadsThrough p) d (d.makeDirs l).2 := by
  unfold makeDirs
  split
  · exact .refl _ d
  · exact gains_makeDirsAlong l.way d l.start false

theorem gains_touch {p : Place} (h : d.touch p = .ok d') :
    Gains (fun q n => n = .file ByteArray.empty ∧ q = p) d d' := by
  rcases touch_cases h with ⟨rfl, -⟩ | ⟨hn, rfl⟩
  · exact .refl _ d'
  · exact gains_put hn ⟨rfl, rfl⟩

end Disk

namespace StateFile

open Disk

/-- What an operation makes around a state file. -/
inductive Around (l : Location) : Place → Node → Prop where
  | lock : Around l (lockPlace l) (.file ByteArray.empty)
  | dir {p : Place} : l.parent.LeadsThrough p → Around l p .dir

theorem takeLock_ne_unencodable {held : List Place} {dir : Place} {l : Location} {d : Disk} :
    takeLock held dir l d ≠ .error .unencodable := by
  unfold takeLock
  dsimp only
  split
  · simp
  · simp
  · split
    · simp
    · simp

/-- What was made around the file before the operation, if it was done at all. -/
theorem gains_locked {held : List Place} {l : Location} {α : Type} {op : Place → Disk → Except Fault α × Disk}
    {d d' : Disk} {f : Fault} (h : locked held l op d = (.error f, d')) :
    ∃ d₁, Gains (Around l) d d₁ ∧ (d' = d₁ ∨ op (filePlace l) d₁ = (.error f, d')) := by
  have hdirs : Gains (Around l) d (d.makeDirs l.parent).2 := by
    refine (gains_makeDirs d l.parent).mono ?_
    rintro p n ⟨rfl, hp⟩
    exact .dir hp
  unfold locked at h
  split at h
  · rename_i hm
    rw [hm] at hdirs
    cases h
    exact ⟨_, hdirs, .inl rfl⟩
  · rename_i dir d₀ hm
    rw [hm] at hdirs
    obtain rfl := makeDirs_place hm
    split at h
    · cases h
      exact ⟨_, hdirs, .inl rfl⟩
    · rename_i d₁ ht
      refine ⟨d₁, hdirs.trans ((gains_touch (takeLock_inv ht).2.1).mono ?_), .inr h⟩
      rintro p n ⟨rfl, rfl⟩
      exact .lock

theorem gains_write {held : List Place} {l : Location} {bytes? : Option ByteArray} {d d' : Disk} {f : Fault}
    (h : write held l bytes? d = (.error f, d')) (hf : f ≠ .unencodable) : Gains (Around l) d d' := by
  obtain ⟨d₁, hgains, rfl | hop⟩ := gains_locked h
  · exact hgains
  · unfold overwrite at hop
    split at hop
    · cases hop
      exact hgains
    · cases hop
      exact absurd rfl hf
    · cases hop

theorem write_unencodable {held : List Place} {l : Location} {bytes? : Option ByteArray} {d d' : Disk}
    (h : write held l bytes? d = (.error .unencodable, d')) :
    bytes? = none ∧ d'.node? (filePlace l) = some (.file ByteArray.empty) := by
  unfold write locked at h
  split at h
  · cases h
  · rename_i dir d₀ hm
    obtain rfl := makeDirs_place hm
    split at h
    · rename_i hlock
      cases h
      exact absurd hlock takeLock_ne_unencodable
    · unfold overwrite at h
      split at h
      · cases h
      · rename_i hopen
        cases h
        exact ⟨rfl, node?_write hopen⟩
      · cases h

theorem gains_delete {held : List Place} {l : Location} {d d' : Disk} {f : Fault}
    (h : delete held l d = (.error f, d')) : Gains (Around l) d d' := by
  obtain ⟨d₁, hgains, rfl | hop⟩ := gains_locked h
  · exact hgains
  · unfold removeState at hop
    split at hop
    · split at hop
      · cases hop
      · cases hop
        exact hgains
    · cases hop

end StateFile

namespace Session

variable {σ : Type} {s : Session σ}

/-- Nothing is lost: the journals are what they were, and every node that there was still stands. New are at most the
file that stands for the lock, and directories on the way to it. -/
structure Unharmed (s : Session σ) (w w' : World σ) : Prop where
  memory : w'.memory = w.memory
  user : w'.user = w.user
  held : w'.held = w.held
  disk : Disk.Gains (StateFile.Around s.target) w.disk w'.disk

theorem Unharmed.refl (s : Session σ) (w : World σ) : s.Unharmed w w := ⟨rfl, rfl, rfl, .refl _ _⟩

theorem draft_ne_unencodable (m : Model) : s.draft m ≠ .error .unencodable := by
  unfold draft resolved
  cases s.location.resolve with
  | error f => simp [Except.mapError, bind, Except.bind]
  | ok l =>
    cases m.normal with
    | error f => cases f <;> simp [Except.mapError, bind, Except.bind, dumpFault]
    | ok j => simp [Except.mapError, bind, Except.bind, pure, Except.pure]

theorem unharmed_save {a : Address} {w w' : World σ} {f : Fault} (h : s.save a w = (.error f, w'))
    (hf : f ≠ .unencodable) : s.Unharmed w w' := by
  unfold save at h
  split at h
  · cases h
    exact .refl s w
  · split at h
    · cases h
      exact ⟨rfl, rfl, rfl, .refl _ _⟩
    · rename_i l j hd
      obtain ⟨rfl, -⟩ := draft_ok hd
      split at h
      · split at h
        · cases h
        · rename_i f' d hw
          by_cases hfamily : (f'.family == .disk) = true
          · rw [if_pos hfamily] at h
            cases h
            refine ⟨rfl, rfl, rfl, StateFile.gains_write hw ?_⟩
            rintro rfl
            cases hfamily
          · rw [if_neg hfamily] at h
            cases h
            exact ⟨rfl, rfl, rfl, StateFile.gains_write hw hf⟩
      · cases h
        exact ⟨rfl, rfl, rfl, .refl _ _⟩

/-- A save fails so only on a journal with a text without bytes, and only after it has opened the file. -/
theorem save_unencodable {a : Address} {w w' : World σ} (h : s.save a w = (.error .unencodable, w')) :
    (∃ m j, w.model? a = some m ∧ m.normal = .ok j ∧ j.isEncodable = false) ∧
      w'.disk.node? s.file = some (.file ByteArray.empty) := by
  unfold save at h
  split at h
  · cases h
  · rename_i m hm
    split at h
    · rename_i f hd
      cases h
      exact absurd hd (draft_ne_unencodable _)
    · rename_i l j hd
      obtain ⟨rfl, hj⟩ := draft_ok hd
      split at h
      · split at h
        · cases h
        · rename_i f' d hw
          split at h
          · cases h
          · cases h
            obtain ⟨hbytes, hnode⟩ := StateFile.write_unencodable hw
            refine ⟨⟨m, j, hm, hj, ?_⟩, hnode⟩
            cases he : j.isEncodable with
            | false => rfl
            | true =>
              rw [Json.bytes?, if_pos he] at hbytes
              cases hbytes
      · cases h

theorem unharmed_clear {a : Address} {w w' : World σ} {f : Fault} (h : s.clear a w = (.ok (.error f), w')) :
    s.Unharmed w w' := by
  unfold clear at h
  split at h
  · cases h
  · rename_i l hl
    obtain rfl := eq_target hl
    split at h
    · rename_i hd
      cases h
      exact ⟨rfl, rfl, rfl, StateFile.gains_delete hd⟩
    · cases h

/-- A path without null characters can be resolved, and then clearing only answers. -/
theorem clear_answers (h : s.location.hasNull = false) (a : Address) (w : World σ) :
    ∃ r w', s.clear a w = (.ok r, w') := by
  have hl : s.resolved = .ok s.target := by
    unfold resolved Location.resolve
    rw [h]
    rfl
  unfold clear
  rw [hl]
  dsimp only
  cases StateFile.delete w.held s.target w.disk with
  | mk answer d =>
    cases answer with
    | error f => exact ⟨_, _, rfl⟩
    | ok removed => exact ⟨_, _, rfl⟩

/-- **An operation that fails changes nothing** but for what it makes around the file. The exception is a save of a journal
with a text without bytes. -/
theorem failed_unharmed (s : Session σ) (a : Address) (w : World σ) :
    (∀ {f w'}, s.save a w = (.error f, w') → f ≠ .unencodable → s.Unharmed w w') ∧
    (∀ {w'}, s.save a w = (.error .unencodable, w') →
      ∃ m j, w.model? a = some m ∧ m.normal = .ok j ∧ j.isEncodable = false) ∧
    (∀ {f w'}, s.clear a w = (.ok (.error f), w') → s.Unharmed w w') ∧
    (s.location.hasNull = false → ∃ r w', s.clear a w = (.ok r, w')) :=
  ⟨unharmed_save, fun h => (save_unencodable h).1, unharmed_clear, fun h => clear_answers h a w⟩

/-! ## A directory in the place of the file -/

def blocked : World Unit :=
  { World.blank () with
    disk := ⟨[((plain none "d" : Session Unit).file, .dir)]⟩
    memory := [([], ⟨"d", []⟩)] }

theorem blocked_unharmed : ∃ f w₁ f' w₂, (plain none "d").save [] blocked = (.error f, w₁) ∧
    (plain none "d").Unharmed blocked w₁ ∧ (plain none "d").clear [] blocked = (.ok (.error f'), w₂) ∧
    (plain none "d").Unharmed blocked w₂ := by
  obtain ⟨hsave, -, hclear, hanswers⟩ := failed_unharmed (plain none "d") [] blocked
  obtain ⟨r, w₂, hw₂⟩ := hanswers (by decide +kernel)
  have hfails : ((plain none "d").save [] blocked).1.toBool = false := by decide +kernel
  have hfails' : ((plain none "d").clear [] blocked).1.toOption.map Except.toBool = some false := by decide +kernel
  have hdir : ((plain none "d").save [] blocked).2.disk.file? (plain none "d" : Session Unit).file = none := by
    decide +kernel
  cases hs : (plain none "d").save [] blocked with
  | mk answer w₁ =>
    rw [hs] at hfails hdir
    rw [hw₂] at hfails'
    cases answer with
    | ok u => cases hfails
    | error f =>
      cases r with
      | ok u => cases hfails'
      | error f' =>
        refine ⟨f, w₁, f', w₂, rfl, hsave hs ?_, hw₂, hclear hw₂⟩
        -- a text without bytes would have left an empty file
        rintro rfl
        rw [Disk.file?, (save_unencodable hs).2] at hdir
        cases hdir

/-- The journal holds a text for which no bytes stand, and the file has something else in it. -/
def halved : World Unit :=
  { World.blank () with
    disk := ⟨[((plain none "d" : Session Unit).file, .file "x".toUTF8)]⟩
    memory := [([], ⟨"d", [⟨.int 0, "A", "key_frame", .str (String.singleton (Text.half 0)), .bool true, .int 0⟩]⟩)] }

/-- The lock is new, a path with a null character is a fault that clearing raises, and a file is emptied before its new
text is found to have no bytes. -/
theorem failed_alters : ((((plain none "d").save [] blocked).1 matches .error _) ∧
    blocked.disk.file? (plain none "d" : Session Unit).lock = none ∧
    (((plain none "d").save [] blocked).2.disk.file? (plain none "d" : Session Unit).lock).isSome = true) ∧
    (({ (plain none "d" : Session Unit) with directory := ⟨[], [['\x00']]⟩ }.clear [] blocked).1 matches .error _) ∧
    (((plain none "d").save [] halved).1 matches .error .unencodable) ∧
    halved.disk.file? (plain none "d" : Session Unit).file = some "x".toUTF8 ∧
    ((plain none "d").save [] halved).2.disk.file? (plain none "d" : Session Unit).file = some ByteArray.empty := by
  decide +kernel

end Session

end Boardwalk
