import Boardwalk.Disk.StateFile
import Boardwalk.Proofs.Json.Depth
import Boardwalk.Proofs.Json.RoundTrip
/-!
# What operations leave standing

Directories that were made once are found again (`makeDirs_again`), and no operation on a state file takes away
anything but the file itself (`StaysBut`). What the first operation on a file made is therefore there for all
later ones, which change nothing else on the disk.
-/

namespace Boardwalk

theorem Fault.isUnreadable_disk (f : DiskFault) : (Fault.disk f).isUnreadable = true := by
  cases f <;> rfl

namespace Disk

theorem isDir_iff {d : Disk} {p : Place} : d.isDir p = true ↔ d.node? p = some .dir := by
  unfold isDir
  split
  · rename_i h
    simp [h]
  · rename_i h
    simp only [Bool.false_eq_true, false_iff]
    exact h

theorem isDir_of_isBase {d : Disk} {p : Place} (h : isBase p = true) : d.node? p = some .dir := by
  simp [node?, h]

theorem isBase_eq_false {d : Disk} {p : Place} {n : Option Node} (h : d.node? p = n) (hn : n ≠ some .dir) :
    isBase p = false :=
  Bool.eq_false_iff.mpr fun hb => hn (h.symm.trans (isDir_of_isBase hb))

theorem isBase_concat {p : Place} {n : String} (hdots : n ≠ "..") (hroot : n ≠ "/") : isBase (p ++ [n]) = false := by
  unfold isBase
  simp [hdots, hroot, List.append_eq_cons_iff]

def KeepsDirs (d d' : Disk) : Prop := ∀ p, d.node? p = some .dir → d'.node? p = some .dir

def StaysBut (f : Place) (d d' : Disk) : Prop :=
  ∀ p n, d.node? p = some n → p ≠ f ∨ n = .dir → d'.node? p = some n

theorem StaysBut.refl (f : Place) (d : Disk) : StaysBut f d d := fun _ _ h _ => h

theorem StaysBut.trans {f : Place} {d d' d'' : Disk} (h : StaysBut f d d') (h' : StaysBut f d' d'') :
    StaysBut f d d'' := fun p n hp hf => h' p n (h p n hp hf) hf

theorem StaysBut.keepsDirs {f : Place} {d d' : Disk} (h : StaysBut f d d') : KeepsDirs d d' :=
  fun p hp => h p .dir hp (.inr rfl)

/-! ## Directories -/

theorem stays_put_new (f : Place) {d : Disk} {p : Place} (n : Node) (h : d.node? p = none) :
    StaysBut f d (d.put p n) := by
  intro q x hq _
  have hqp : q ≠ p := by
    rintro rfl
    rw [h] at hq
    cases hq
  rw [node?_put_ne d n hqp]
  exact hq

theorem stays_makeDirs (f : Place) (d : Disk) (l : Location) : StaysBut f d (d.makeDirs l).2 :=
  fun _ _ h _ => node?_makeDirs h

theorem makeDirsAlong_place {names : List String} {d d' : Disk} {dir p : Place} {hasMade : Bool}
    (h : d.makeDirsAlong dir hasMade names = (.ok p, d')) : p = names.foldl Place.enter dir := by
  induction names generalizing d dir hasMade with
  | nil =>
    cases h
    rfl
  | cons n rest ih =>
    simp only [makeDirsAlong] at h
    split at h
    · cases h
    · split at h
      · exact ih h
      · cases h
      · exact ih h

theorem makeDirsAlong_again {names : List String} {d d' d'' : Disk} {dir p : Place} {hasMade : Bool}
    (h : d.makeDirsAlong dir hasMade names = (.ok p, d')) (hk : KeepsDirs d' d'') (made : Bool) :
    d''.makeDirsAlong dir made names = (.ok p, d'') := by
  induction names generalizing d dir hasMade with
  | nil =>
    cases h
    rfl
  | cons n rest ih =>
    simp only [makeDirsAlong] at h ⊢
    split at h
    · cases h
    · rename_i hl
      rw [if_neg hl]
      split at h
      · rename_i hn
        have hd : d'.node? (Place.enter dir n) = some .dir := by
          have hs := node?_makeDirsAlong rest (Place.enter dir n) hasMade hn
          rw [h] at hs
          exact hs
        rw [hk _ hd]
        exact ih h
      · cases h
      · rename_i hn
        have hb : isBase (Place.enter dir n) = false := isBase_eq_false hn (by simp)
        have hd : d'.node? (Place.enter dir n) = some .dir := by
          have hs := node?_makeDirsAlong rest (Place.enter dir n) true (node?_put_self d .dir hb)
          rw [h] at hs
          exact hs
        rw [hk _ hd]
        exact ih h

theorem makeDirs_place {d d' : Disk} {l : Location} {p : Place} (h : d.makeDirs l = (.ok p, d')) :
    p = l.place := by
  unfold makeDirs at h
  split at h
  · cases h
  · exact makeDirsAlong_place h

/-- **Directories that were made are found again**, as long as they stand. -/
theorem makeDirs_again {d d' d'' : Disk} {l : Location} {p : Place} (h : d.makeDirs l = (.ok p, d'))
    (hk : KeepsDirs d' d'') : d''.makeDirs l = (.ok p, d'') := by
  unfold makeDirs at h ⊢
  split at h
  · cases h
  · exact makeDirsAlong_again h hk false

/-! ## Files -/

theorem stays_write {d d' : Disk} {p : Place} {c : ByteArray} (h : d.write p c = .ok d') : StaysBut p d d' := by
  unfold write at h
  split at h
  · cases h
  · rename_i hd
    split at h
    · cases h
    · split at h
      · cases h
      · cases h
        intro q n hq hf
        have hqp : q ≠ p := by
          rintro rfl
          rcases hf with hf | rfl
          · exact hf rfl
          · exact hd (isDir_iff.mpr hq)
        rw [node?_put_ne d _ hqp]
        exact hq

theorem node?_write {d d' : Disk} {p : Place} {c : ByteArray} (h : d.write p c = .ok d') :
    d'.node? p = some (.file c) := by
  unfold write at h
  split at h
  · cases h
  · rename_i hd
    split at h
    · cases h
    · split at h
      · cases h
      · cases h
        exact node?_put_self d _ (isBase_eq_false (d := d) rfl fun hn => hd (isDir_iff.mpr hn))

/-- Filling a file that was opened is writing it at once. -/
theorem write_fill {d d' : Disk} {p : Place} {c : ByteArray} (h : d.write p c = .ok d') (c' : ByteArray) :
    d.write p c' = .ok (d'.put p (.file c')) := by
  unfold write at h ⊢
  split at h
  · cases h
  · split at h
    · cases h
    · split at h
      · cases h
      · cases h
        rename_i hd hparent hlong
        rw [if_neg hd, if_neg hparent, if_neg hlong]
        simp [put, List.filter_filter]

theorem write_of_keeps {d d' d'' : Disk} {p : Place} {c : ByteArray} (h : d.write p c = .ok d') (hk : KeepsDirs d d'')
    (hp : d''.isDir p = false) (c' : ByteArray) : ∃ d₃, d''.write p c' = .ok d₃ := by
  unfold write at h ⊢
  split at h
  · cases h
  · split at h
    · cases h
    · rename_i hparent
      split at h
      · cases h
      · rename_i hlong
        have hparent' : d''.isDir p.dropLast = true := isDir_iff.mpr (hk _ (isDir_iff.mp (by simpa using hparent)))
        refine ⟨d''.put p (.file c'), ?_⟩
        rw [if_neg (by simp [hp]), if_neg (by simp [hparent']), if_neg hlong]

theorem not_isDir_of_write {d d' : Disk} {p : Place} {c : ByteArray} (h : d.write p c = .ok d') : d.isDir p = false := by
  unfold write at h
  split at h
  · cases h
  · rename_i hd
    exact Bool.eq_false_iff.mpr hd

/-- Over a file that was written another one can be written, as long as its directory stands. -/
theorem write_again {d d' d'' : Disk} {p : Place} {c c' : ByteArray} (h : d.write p c = .ok d')
    (hk : KeepsDirs d' d'') (hf : d''.node? p = some (.file c')) (c'' : ByteArray) :
    ∃ d₃, d''.write p c'' = .ok d₃ :=
  write_of_keeps h (fun q hq => hk q ((stays_write h).keepsDirs q hq)) (by simp [isDir, hf]) c''

theorem touch_cases {d d' : Disk} {p : Place} (h : d.touch p = .ok d') :
    (d' = d ∧ (d.file? p).isSome = true) ∨ (d.node? p = none ∧ d' = d.put p (.file ByteArray.empty)) := by
  unfold touch at h
  split at h
  · rename_i hf
    cases h
    exact .inl ⟨rfl, hf⟩
  · rename_i hf
    unfold write at h
    split at h
    · cases h
    · rename_i hd
      split at h
      · cases h
      · split at h
        · cases h
        · cases h
          refine .inr ⟨?_, rfl⟩
          cases hn : d.node? p with
          | none => rfl
          | some n =>
            cases n with
            | dir => exact absurd (isDir_iff.mpr hn) hd
            | file c => exact absurd (by simp [file?, hn]) hf

theorem stays_touch (f : Place) {d d' : Disk} {p : Place} (h : d.touch p = .ok d') : StaysBut f d d' := by
  rcases touch_cases h with ⟨rfl, -⟩ | ⟨hn, rfl⟩
  · exact .refl f d'
  · exact stays_put_new f _ hn

theorem file?_touch {d d' : Disk} {p : Place} (h : d.touch p = .ok d') : ∃ c, d'.node? p = some (.file c) := by
  rcases touch_cases h with ⟨rfl, hf⟩ | ⟨hn, rfl⟩
  · unfold file? at hf
    split at hf
    · rename_i c hc
      exact ⟨c, hc⟩
    · cases hf
  · exact ⟨_, node?_put_self d _ (isBase_eq_false hn (by simp))⟩

def BringsNone (p : Place) (d d' : Disk) : Prop := ∀ c, d'.node? p = some (.file c) → d.node? p = some (.file c)

theorem BringsNone.trans {p : Place} {d d' d'' : Disk} (h : BringsNone p d d') (h' : BringsNone p d' d'') :
    BringsNone p d d'' := fun c hc => h c (h' c hc)

theorem brings_makeDirsAlong (p : Place) (names : List String) (d : Disk) (dir : Place) (hasMade : Bool) :
    BringsNone p d (d.makeDirsAlong dir hasMade names).2 := by
  induction names generalizing d dir hasMade with
  | nil => exact fun _ hc => hc
  | cons n rest ih =>
    simp only [makeDirsAlong]
    split
    · exact fun _ hc => hc
    · split
      · exact ih d _ _
      · exact fun _ hc => hc
      · refine (BringsNone.trans ?_ (ih _ _ _) : BringsNone p d _)
        intro c hc
        have hne : p ≠ Place.enter dir n := by
          rintro rfl
          cases hb : isBase (Place.enter dir n) with
          | true => simp [isDir_of_isBase hb] at hc
          | false => simp [node?_put_self d .dir hb] at hc
        rwa [node?_put_ne d .dir hne] at hc

theorem brings_makeDirs (p : Place) (d : Disk) (l : Location) : BringsNone p d (d.makeDirs l).2 := by
  unfold makeDirs
  split
  · exact fun _ hc => hc
  · exact brings_makeDirsAlong p l.way d l.start false

theorem brings_touch {p q : Place} (hp : p ≠ q) {d d' : Disk} (h : d.touch q = .ok d') : BringsNone p d d' := by
  rcases touch_cases h with ⟨rfl, -⟩ | ⟨-, rfl⟩
  · exact fun _ hc => hc
  · intro c hc
    rwa [node?_put_ne d _ hp] at hc

theorem touch_again {d : Disk} {p : Place} {c : ByteArray} (h : d.node? p = some (.file c)) :
    d.touch p = .ok d := by
  unfold touch file?
  rw [h]
  rfl

theorem stays_remove {d d' : Disk} {p : Place} (h : d.remove p = .ok d') : StaysBut p d d' := by
  unfold remove at h
  split at h
  · rename_i c hc
    cases h
    intro q n hq hf
    have hqp : q ≠ p := by
      rintro rfl
      rcases hf with hf | rfl
      · exact hf rfl
      · rw [hc] at hq
        cases hq
    rw [node?_drop_ne d hqp]
    exact hq
  · cases h
  · cases h

theorem brings_remove (p : Place) {d d' : Disk} {q : Place} (h : d.remove q = .ok d') : BringsNone p d d' := by
  unfold remove at h
  split at h
  · rename_i c hq
    cases h
    intro x hx
    have hb : isBase q = false := isBase_eq_false hq (by simp)
    by_cases hpq : p = q
    · rw [hpq, node?_drop_self d hb] at hx
      cases hx
    · rwa [node?_drop_ne d hpq] at hx
  · cases h
  · cases h

theorem brings_write {p q : Place} (hp : p ≠ q) {d d' : Disk} {c : ByteArray} (h : d.write q c = .ok d') :
    BringsNone p d d' := by
  unfold write at h
  split at h
  · cases h
  · split at h
    · cases h
    · split at h
      · cases h
      · cases h
        intro x hx
        rwa [node?_put_ne d _ hp] at hx

end Disk

/-! ## Operations under a lock -/

theorem Json.bytes?_inv {j : Json} {c : ByteArray} (h : j.bytes? = some c) : c = j.document.toUTF8 := by
  unfold bytes? at h
  split at h
  · exact (Option.some.inj h).symm
  · cases h

namespace StateFile

open Disk

def filePlace (l : Location) : Place := placeIn l.parent.place l

def lockPlace (l : Location) : Place := l.parent.place ++ [lockName l]

theorem ne_lock (n : String) : n ≠ n ++ ".lock" := by
  intro h
  have hl := congrArg String.length h
  rw [String.length_append] at hl
  exact absurd hl (by simp)

theorem takeLock_inv {held : List Place} {dir : Place} {l : Location} {d d' : Disk}
    (h : takeLock held dir l d = .ok d') :
    (lockLocation l).check = .ok () ∧ d.touch (dir ++ [lockName l]) = .ok d' ∧
      held.contains (dir ++ [lockName l]) = false := by
  unfold takeLock at h
  dsimp only at h
  split at h
  · cases h
  · cases h
  · rename_i hcheck htouch
    split at h
    · cases h
    · rename_i hfree
      cases h
      exact ⟨hcheck, htouch, Bool.eq_false_iff.mpr hfree⟩

theorem takeLock_unreadable {held : List Place} {dir : Place} {l : Location} {d : Disk} {f : Fault}
    (h : takeLock held dir l d = .error f) : f.isUnreadable = true := by
  unfold takeLock at h
  dsimp only at h
  split at h
  · cases h
    exact Fault.isUnreadable_disk _
  · cases h
    exact Fault.isUnreadable_disk _
  · split at h
    · cases h
      rfl
    · cases h

theorem takeLock_ok {held : List Place} {dir : Place} {l : Location} {d d' : Disk}
    (hcheck : (lockLocation l).check = .ok ()) (htouch : d.touch (dir ++ [lockName l]) = .ok d')
    (hfree : held.contains (dir ++ [lockName l]) = false) : takeLock held dir l d = .ok d' := by
  unfold takeLock
  dsimp only
  rw [hcheck, htouch]
  dsimp only
  rw [hfree]
  rfl

/-- What every operation on a state file makes before it, and finds afterwards: the directories above the file
and a lock that nobody else holds. -/
structure Ready (held : List Place) (l : Location) (d : Disk) : Prop where
  directories : d.makeDirs l.parent = (.ok l.parent.place, d)
  allowed : (lockLocation l).check = .ok ()
  lock : ∃ c, d.node? (lockPlace l) = some (.file c)
  free : held.contains (lockPlace l) = false

theorem Ready.of_keeps {held : List Place} {l : Location} {d d' : Disk} (h : Ready held l d)
    (hk : KeepsDirs d d') (hl : ∀ c, d.node? (lockPlace l) = some (.file c) →
      ∃ c', d'.node? (lockPlace l) = some (.file c')) : Ready held l d' := by
  obtain ⟨c, hc⟩ := h.lock
  exact ⟨makeDirs_again h.directories hk, h.allowed, hl c hc, h.free⟩

theorem Ready.of_stays {held : List Place} {l : Location} {d d' : Disk} {f : Place} (h : Ready held l d)
    (hs : StaysBut f d d') (hf : f ≠ lockPlace l) : Ready held l d' :=
  h.of_keeps hs.keepsDirs fun c hc => ⟨c, hs _ _ hc (.inl fun e => hf e.symm)⟩

theorem Ready.locked_eq {held : List Place} {l : Location} {d : Disk} (h : Ready held l d) {α : Type}
    (op : Place → Disk → Except Fault α × Disk) : locked held l op d = op (filePlace l) d := by
  obtain ⟨c, hc⟩ := h.lock
  have ht : takeLock held l.parent.place l d = .ok d := takeLock_ok h.allowed (touch_again hc) h.free
  unfold locked
  simp only [h.directories, ht]
  rfl

/-- **What an operation finds, the later ones find too.** If it succeeds, everything before the operation itself
was as they need it. -/
theorem ready_of_locked {held : List Place} {l : Location} {d d' : Disk} {α : Type} {a : α}
    {op : Place → Disk → Except Fault α × Disk} (h : locked held l op d = (.ok a, d')) :
    ∃ d₁, Ready held l d₁ ∧ (∀ f, StaysBut f d d₁) ∧ op (filePlace l) d₁ = (.ok a, d') := by
  unfold locked at h
  split at h
  · cases h
  · rename_i dir d₀ hm
    have hp := makeDirs_place hm
    subst hp
    split at h
    · cases h
    · rename_i d₁ ht
      obtain ⟨hcheck, htouch, hfree⟩ := takeLock_inv ht
      have hs : ∀ f, StaysBut f d₀ d₁ := fun f => stays_touch f htouch
      have hs₀ : ∀ f, StaysBut f d d₀ := fun f => by
        have := stays_makeDirs f d l.parent
        rw [hm] at this
        exact this
      exact ⟨d₁, ⟨makeDirs_again hm (hs []).keepsDirs, hcheck, file?_touch htouch, hfree⟩,
        fun f => (hs₀ f).trans (hs f), h⟩

/-- What goes along with making directories and files goes along with an operation under the lock. -/
theorem locked_disk {K : Disk → Disk → Prop} (htrans : ∀ {d d' d''}, K d d' → K d' d'' → K d d'')
    {held : List Place} {l : Location} (hdirs : ∀ d, K d (d.makeDirs l.parent).2)
    (htouch : ∀ {d d'}, d.touch (lockPlace l) = .ok d' → K d d') {α : Type}
    {op : Place → Disk → Except Fault α × Disk} (hop : ∀ d, K d (op (filePlace l) d).2) (d : Disk) :
    K d (locked held l op d).2 := by
  have hs₀ := hdirs d
  unfold locked
  split
  · rename_i hm
    rw [hm] at hs₀
    exact hs₀
  · rename_i dir d₀ hm
    rw [hm] at hs₀
    have hp := makeDirs_place hm
    subst hp
    split
    · exact hs₀
    · rename_i d₁ ht
      have hs₁ : K d₀ d₁ := htouch (takeLock_inv ht).2.1
      exact htrans (htrans hs₀ hs₁) (hop d₁)

theorem stays_locked {f : Place} {held : List Place} {l : Location} {d : Disk} {α : Type}
    {op : Place → Disk → Except Fault α × Disk} (hop : ∀ d, StaysBut f d (op (filePlace l) d).2) :
    StaysBut f d (locked held l op d).2 :=
  locked_disk .trans (fun d => stays_makeDirs f d l.parent) (stays_touch f) hop d

theorem readState_disk (p : Place) (d : Disk) : (readState p d).2 = d := by
  unfold readState
  split
  · split
    · rfl
    · rfl
  · rfl

/-- What writing leaves on the disk is what was there, or what opening and filling the file make of it. -/
theorem overwrite_disk {K : Disk → Disk → Prop} {p : Place} {d : Disk} (bytes? : Option ByteArray) (hrefl : K d d)
    (hwrite : ∀ {d' c}, d.write p c = .ok d' → K d d') : K d (overwrite bytes? p d).2 := by
  unfold overwrite
  cases hopen : d.write p ByteArray.empty with
  | error f => exact hrefl
  | ok emptied =>
    cases bytes? with
    | none => exact hwrite hopen
    | some c => exact hwrite (write_fill hopen c)

theorem removeState_disk {K : Disk → Disk → Prop} {p : Place} {d : Disk} (hrefl : K d d)
    (hremove : ∀ {d'}, d.remove p = .ok d' → K d d') : K d (removeState p d).2 := by
  unfold removeState
  split
  · split
    · rename_i hr
      exact hremove hr
    · exact hrefl
  · exact hrefl

theorem stays_read (f : Place) (held : List Place) (l : Location) (d : Disk) :
    StaysBut f d (read held l d).2 := by
  apply stays_locked
  intro d
  rw [readState_disk]
  exact .refl f d

theorem brings_read {p : Place} {held : List Place} {l : Location} (hp : p ≠ lockPlace l) (d : Disk) :
    BringsNone p d (read held l d).2 := by
  refine locked_disk .trans (fun d => brings_makeDirs p d l.parent) (brings_touch hp) (fun d => ?_) d
  rw [readState_disk]
  exact fun _ hc => hc

theorem stays_writeFile (held : List Place) (l : Location) (bytes? : Option ByteArray) (d : Disk) :
    StaysBut (filePlace l) d (write held l bytes? d).2 :=
  stays_locked fun _ => overwrite_disk bytes? (.refl _ _) stays_write

theorem stays_delete (held : List Place) (l : Location) (d : Disk) :
    StaysBut (filePlace l) d (delete held l d).2 :=
  stays_locked fun _ => removeState_disk (.refl _ _) stays_remove

theorem brings_writeFile {p : Place} {l : Location} (hp : p ≠ lockPlace l) (hf : p ≠ filePlace l)
    (held : List Place) (bytes? : Option ByteArray) (d : Disk) : BringsNone p d (write held l bytes? d).2 :=
  locked_disk .trans (fun d => brings_makeDirs p d l.parent) (brings_touch hp)
    (fun _ => overwrite_disk bytes? (fun _ hc => hc) (brings_write hf)) d

theorem brings_delete {p : Place} {l : Location} (hp : p ≠ lockPlace l) (held : List Place) (d : Disk) :
    BringsNone p d (delete held l d).2 :=
  locked_disk .trans (fun d => brings_makeDirs p d l.parent) (brings_touch hp)
    (fun _ => removeState_disk (fun _ hc => hc) (brings_remove p)) d

/-! ## What a file holds -/

def stateOfNode : Option Node → Except Fault (Option Json)
  | some (.file c) => stateOfBytes c
  | some .dir => .error (.disk .isDirectory)
  | none => .ok none

theorem readState_eq (p : Place) (d : Disk) : readState p d = (stateOfNode (d.node? p), d) := by
  unfold readState exists? Disk.read
  cases d.node? p with
  | none => rfl
  | some n => cases n <;> rfl

theorem Ready.read_eq {held : List Place} {l : Location} {d : Disk} (h : Ready held l d) :
    read held l d = (stateOfNode (d.node? (filePlace l)), d) := by
  unfold read
  rw [h.locked_eq, readState_eq]

theorem read_ok {held : List Place} {l : Location} {d d' : Disk} {o : Option Json}
    (h : read held l d = (.ok o, d')) : Ready held l d' ∧ stateOfNode (d'.node? (filePlace l)) = .ok o := by
  obtain ⟨d₁, hr, -, hop⟩ := ready_of_locked h
  have heq := hr.read_eq
  unfold read at heq
  rw [hr.locked_eq, hop] at heq
  obtain ⟨ho, hd⟩ := Prod.mk.inj heq
  subst hd
  exact ⟨hr, ho.symm⟩

theorem Ready.delete_cases {held : List Place} {l : Location} {d : Disk} (h : Ready held l d) :
    (∃ f, delete held l d = (.error f, d)) ∨
      ∃ removed d', delete held l d = (.ok removed, d') ∧ d'.node? (filePlace l) = none := by
  unfold delete
  rw [h.locked_eq]
  unfold removeState exists? Disk.remove
  cases hn : d.node? (filePlace l) with
  | none => exact .inr ⟨false, d, rfl, hn⟩
  | some n =>
    cases n with
    | dir => exact .inl ⟨_, rfl⟩
    | file c => exact .inr ⟨true, _, rfl, node?_drop_self d (isBase_eq_false hn (by simp))⟩

/-- Bytes that were written stand in their file. -/
theorem overwrite_inv {bytes? : Option ByteArray} {p : Place} {d d' : Disk} (h : overwrite bytes? p d = (.ok (), d')) :
    ∃ c, bytes? = some c ∧ d.write p c = .ok d' := by
  unfold overwrite at h
  cases hopen : d.write p ByteArray.empty with
  | error f =>
    rw [hopen] at h
    cases h
  | ok emptied =>
    rw [hopen] at h
    cases bytes? with
    | none => cases h
    | some c =>
      cases h
      exact ⟨c, rfl, write_fill hopen c⟩

theorem overwrite_eq {p : Place} {d d' : Disk} {c : ByteArray} (h : d.write p c = .ok d') :
    overwrite (some c) p d = (.ok (), d') := by
  unfold overwrite
  cases hopen : d.write p ByteArray.empty with
  | error f =>
    obtain ⟨d₁, hd₁⟩ := write_of_keeps h (fun _ hq => hq) (not_isDir_of_write h) ByteArray.empty
    rw [hopen] at hd₁
    cases hd₁
  | ok emptied =>
    have hw := write_fill hopen c
    rw [h] at hw
    cases hw
    rfl

theorem overwrite_closed {p : Place} {d : Disk} {f : DiskFault} (h : d.write p ByteArray.empty = .error f)
    (bytes? : Option ByteArray) : overwrite bytes? p d = (.error (.disk f), d) := by
  simp only [overwrite, h]

theorem write_inv {held : List Place} {l : Location} {bytes? : Option ByteArray} {d d' : Disk}
    (h : write held l bytes? d = (.ok (), d')) :
    ∃ d₁ c, Ready held l d₁ ∧ bytes? = some c ∧ d₁.write (filePlace l) c = .ok d' := by
  obtain ⟨d₁, hr, -, hop⟩ := ready_of_locked h
  obtain ⟨c, hc, hw⟩ := overwrite_inv hop
  exact ⟨d₁, c, hr, hc, hw⟩

theorem write_ok {held : List Place} {l : Location} {bytes? : Option ByteArray} {d d' : Disk}
    (h : write held l bytes? d = (.ok (), d')) : ∃ c, bytes? = some c ∧ d'.node? (filePlace l) = some (.file c) := by
  obtain ⟨d₁, c, -, hc, hw⟩ := write_inv h
  exact ⟨c, hc, node?_write hw⟩

theorem ready_of_write {held : List Place} {l : Location} {bytes? : Option ByteArray} {d d' : Disk}
    (h : write held l bytes? d = (.ok (), d')) (hl : filePlace l ≠ lockPlace l) : Ready held l d' := by
  obtain ⟨d₁, c, hr, -, hw⟩ := write_inv h
  exact hr.of_stays (stays_write hw) hl

/-- **A state that was written can be written over**, as long as its directories stand. -/
theorem Ready.write_over {held held' : List Place} {l : Location} {d d' d'' : Disk} {bytes? : Option ByteArray}
    {c : ByteArray} (h : Ready held' l d'') (hw : write held l bytes? d = (.ok (), d')) (hk : KeepsDirs d' d'')
    (hf : d''.node? (filePlace l) = some (.file c)) (c' : ByteArray) :
    ∃ d₃, write held' l (some c') d'' = (.ok (), d₃) := by
  obtain ⟨d₁, c₁, -, -, hw⟩ := write_inv hw
  obtain ⟨d₃, hd₃⟩ := write_again hw hk hf c'
  refine ⟨d₃, ?_⟩
  unfold write
  rw [h.locked_eq]
  exact overwrite_eq hd₃

theorem fromUTF8?_toUTF8 (s : String) : String.fromUTF8? s.toUTF8 = some s := by
  unfold String.fromUTF8?
  exact dif_pos s.isValidUTF8

theorem document_visible (j : Json) : Text.isBlankText j.document = false := by
  obtain ⟨c, cs, hc, ho⟩ := Json.chars_head .indented 0 j
  unfold Text.isBlankText Json.document
  rw [String.toList_ofList, hc]
  simp [ho.1]

/-- **What was written is found.** -/
theorem stateOfBytes_written {j : Json} (h : j.isWritable = true) (hnest : j.nesting ≤ Json.depthLimit) :
    stateOfBytes j.document.toUTF8 =
      .ok (match j.reread with
        | .null => none
        | k => some k) := by
  unfold stateOfBytes
  rw [fromUTF8?_toUTF8]
  dsimp only
  unfold stateOf
  rw [document_visible j, if_neg Bool.false_ne_true, Json.parse_document h hnest]
  cases j.reread with
  | null => rfl
  | _ => rfl

theorem stateOfBytes_document {fs : List (String × Json)} (h : (Json.obj fs).isWritable = true)
    (hnest : (Json.obj fs).nesting ≤ Json.depthLimit) :
    stateOfBytes (Json.obj fs).document.toUTF8 = .ok (some (Json.obj fs).reread) := by
  rw [stateOfBytes_written h hnest]
  simp only [Json.reread]

def deepBytes (n : Nat) (rest : List Char) : ByteArray := (String.ofList (Json.opening n ++ rest)).toUTF8

theorem stateOfBytes_deep {n : Nat} (h : Json.depthLimit < n) (rest : List Char) :
    stateOfBytes (deepBytes n rest) = .error (.overflow (.reading .array)) := by
  have hvisible : Text.isBlankText (String.ofList (Json.opening n ++ rest)) = false := by
    obtain ⟨n, rfl⟩ := Nat.exists_eq_succ_of_ne_zero (Nat.ne_of_gt (Nat.zero_lt_of_lt h))
    rw [Text.isBlankText, String.toList_ofList, Json.opening, List.replicate_succ, List.cons_append, List.all_cons]
    exact Bool.and_eq_false_imp.mpr fun hblank => by cases hblank
  unfold stateOfBytes deepBytes
  rw [fromUTF8?_toUTF8]
  dsimp only
  unfold stateOf
  rw [hvisible, if_neg Bool.false_ne_true, Json.parse_deep h rest]

end StateFile

end Boardwalk
