import Boardwalk.Proofs.Queue.Operations
/-!
# What operations answer and leave

An operation on a state file is described by what it answers and leaves on the disk (`Operation.run`), and the job that it
puts into the queue does just that (`Operation.job?_finishes`). An operation that makes a file and writes a value is the
exception: it puts the value into the queue when its first job is over. So of a batch of operations the first jobs are
done one after the other, and after these the values are written (`Operation.runBatch`).
-/

namespace Boardwalk.Registry

variable {σ : Type}

/-- A failure on the disk is answered with no. -/
def softened (x : Except Fault Unit × Disk) : Except Fault Value × Disk :=
  match x.1 with
  | .ok _ => (.ok (.bool true), x.2)
  | .error f => (if f.family == .disk then .ok (.bool false) else .error f, x.2)

namespace Operation

def hasMore : Operation → Bool
  | .init (some _) => true
  | _ => false

def first (held : List Place) (l : Location) : Operation → Disk → Except Fault Value × Disk
  | .update v, d =>
    match document v with
    | .ok j => softened (StateFile.write held l j.bytes? d)
    | .error f => (refused f, d)
  | .read, d => ((StateFile.read held l d).1.map stateValue, (StateFile.read held l d).2)
  | .delete, d => ((StateFile.delete held l d).1.map .bool, (StateFile.delete held l d).2)
  | .init _, d => softened (StateFile.write held l (some ByteArray.empty) d)

def rest : Operation → Except Fault Value → Option Value
  | .init (some v), .ok made => if made.truth then some v else none
  | _, _ => none

def complete (held : List Place) (l : Location) (o : Operation) (x : Except Fault Value × Disk) :
    Except Fault Value × Disk :=
  match o.rest x.1 with
  | some v => (update v).first held l x.2
  | none => x

/-- What an operation answers and leaves on the disk when nothing comes in between. -/
def run (held : List Place) (l : Location) (o : Operation) (d : Disk) : Except Fault Value × Disk :=
  o.complete held l (o.first held l d)

def runAll (held : List Place) (l : Location) :
    List (Nat × Operation) → Disk → List (Nat × Except Fault Value) × Disk
  | [], d => ([], d)
  | (call, o) :: os, d =>
    let x := o.run held l d
    let y := runAll held l os x.2
    ((call, x.1) :: y.1, y.2)

theorem sequel_rest (o : Operation) (res : Except Fault Value) : o.sequel.rest res = o.rest res := by
  cases o with
  | init v => cases v <;> cases res <;> rfl
  | update _ | read | delete => rfl

theorem rest_of_not_hasMore {o : Operation} (h : o.hasMore = false) (res : Except Fault Value) : o.rest res = none := by
  cases o with
  | init v =>
    cases v with
    | none => rfl
    | some v => cases h
  | update _ | read | delete => rfl

theorem run_of_not_hasMore {o : Operation} (h : o.hasMore = false) (held : List Place) (l : Location) (d : Disk) :
    o.run held l d = o.first held l d := by
  rw [run, complete, rest_of_not_hasMore h]

theorem first_refused {o : Operation} {f : Fault} (h : o.Refused f) (held : List Place) (l : Location)
    (d : Disk) : o.first held l d = (refused f, d) := by
  obtain ⟨v, rfl, hf⟩ := h
  rw [first, hf]

theorem hasMore_refused {o : Operation} {f : Fault} (h : o.Refused f) : o.hasMore = false := by
  obtain ⟨v, rfl, -⟩ := h
  rfl

theorem run_refused {o : Operation} {f : Fault} (h : o.Refused f) (held : List Place) (l : Location)
    (d : Disk) : o.run held l d = (refused f, d) := by
  rw [run_of_not_hasMore (hasMore_refused h), first_refused h]

theorem runAll_calls (held : List Place) (l : Location) (os : List (Nat × Operation)) (d : Disk) :
    (runAll held l os d).1.map Prod.fst = os.map Prod.fst := by
  induction os generalizing d with
  | nil => rfl
  | cons a os ih =>
    obtain ⟨call, o⟩ := a
    exact congrArg (call :: ·) (ih _)

/-- The first jobs of operations one after the other: the answers of those that are over then, and the writes of the
others. -/
def opening (held : List Place) (l : Location) :
    List (Nat × Operation) → Disk → List (Nat × Except Fault Value) × List (Nat × Operation) × Disk
  | [], d => ([], [], d)
  | (call, o) :: os, d =>
    let x := o.first held l d
    let y := opening held l os x.2
    match o.rest x.1 with
    | none => ((call, x.1) :: y.1, y.2.1, y.2.2)
    | some v => (y.1, (call, .update v) :: y.2.1, y.2.2)

/-- Answers with those of operations that follow. -/
def follow (held : List Place) (l : Location)
    (y : List (Nat × Except Fault Value) × List (Nat × Operation) × Disk) : List (Nat × Except Fault Value) × Disk :=
  let z := runAll held l y.2.1 y.2.2
  (y.1 ++ z.1, z.2)

/-- What a batch answers and leaves that is started before any of its operations is done. -/
def runBatch (held : List Place) (l : Location) (os : List (Nat × Operation)) (d : Disk) :
    List (Nat × Except Fault Value) × Disk :=
  follow held l (opening held l os d)

theorem opening_append (held : List Place) (l : Location) (os ps : List (Nat × Operation)) (d : Disk) :
    opening held l (os ++ ps) d =
      ((opening held l os d).1 ++ (opening held l ps (opening held l os d).2.2).1,
        (opening held l os d).2.1 ++ (opening held l ps (opening held l os d).2.2).2.1,
        (opening held l ps (opening held l os d).2.2).2.2) := by
  induction os generalizing d with
  | nil => rfl
  | cons a os ih =>
    obtain ⟨call, o⟩ := a
    simp only [List.cons_append, opening, ih]
    cases o.rest (o.first held l d).1 with
    | none => rfl
    | some v => rfl

theorem opening_refused {o : Operation} {f : Fault} (h : o.Refused f) (held : List Place) (l : Location)
    (call : Nat) (os : List (Nat × Operation)) (d : Disk) :
    opening held l ((call, o) :: os) d =
      ((call, refused f) :: (opening held l os d).1, (opening held l os d).2) := by
  rw [opening, first_refused h, rest_of_not_hasMore (hasMore_refused h)]

theorem follow_append (held : List Place) (l : Location) (as : List (Nat × Except Fault Value))
    (y : List (Nat × Except Fault Value) × List (Nat × Operation) × Disk) :
    follow held l (as ++ y.1, y.2) = (as ++ (follow held l y).1, (follow held l y).2) := by
  simp only [follow, List.append_assoc]

theorem runBatch_one (held : List Place) (l : Location) (call : Nat) (o : Operation) (d : Disk) :
    runBatch held l [(call, o)] d = ([(call, (o.run held l d).1)], (o.run held l d).2) := by
  unfold runBatch opening run complete
  dsimp only
  cases o.rest (o.first held l d).1 with
  | none => rfl
  | some v => rfl

theorem job?_begin {x : Manager σ} {o : Operation} {j : Job (World σ)} (h : o.job? x = some j) (w : World σ) :
    j.begin w = w := by
  cases o with
  | update v =>
    obtain ⟨k, -, rfl⟩ := Option.map_eq_some_iff.mp h
    rfl
  | read | delete | init _ =>
    cases h
    rfl

/-- Besides the log, a job changes the disk alone. -/
structure Finishes (j : Job (World σ)) (f : List Place → Disk → Except Fault Value × Disk) : Prop where
  result : ∀ w, (j.finish w).1 = (f w.held w.disk).1
  disk : ∀ w, (j.finish w).2.disk = (f w.held w.disk).2
  held : ∀ w, (j.finish w).2.held = w.held

theorem finishes_writing (l : Location) (label name : String) (bytes? : Option ByteArray) :
    Finishes (fileJob l (fun held l d => done (StateFile.write held l bytes? d)) (failSoftly label name) : Job (World σ))
      (fun held d => softened (StateFile.write held l bytes? d)) := by
  have h : ∀ w : World σ, ∃ w', (fileJob l (fun held l d => done (StateFile.write held l bytes? d))
      (failSoftly label name) : Job (World σ)).finish w = ((softened (StateFile.write w.held l bytes? w.disk)).1, w') ∧
      w'.disk = (softened (StateFile.write w.held l bytes? w.disk)).2 ∧ w'.held = w.held := by
    intro w
    unfold fileJob softened done failSoftly
    dsimp only
    cases (StateFile.write w.held l bytes? w.disk).1 with
    | ok _ => exact ⟨_, rfl, rfl, rfl⟩
    | error f =>
      dsimp only [Except.map]
      split
      · exact ⟨_, rfl, rfl, rfl⟩
      · exact ⟨_, rfl, rfl, rfl⟩
  constructor
  all_goals intro w; obtain ⟨w', he, hd, hh⟩ := h w; rw [he]
  · exact hd
  · exact hh

theorem job?_finishes {x : Manager σ} {o : Operation} {j : Job (World σ)} (h : o.job? x = some j) :
    Finishes j fun held => o.first held x.location := by
  cases o with
  | update v =>
    obtain ⟨k, ht, rfl⟩ := Option.map_eq_some_iff.mp h
    have hf : (fun held => (update v).first held x.location) =
        fun held d => softened (StateFile.write held x.location k.bytes? d) := by
      funext held d
      rw [first, document_of_some ht]
    rw [hf]
    exact finishes_writing _ _ _ _
  | read =>
    cases h
    exact ⟨fun _ => rfl, fun _ => rfl, fun _ => rfl⟩
  | delete =>
    cases h
    exact ⟨fun _ => rfl, fun _ => rfl, fun _ => rfl⟩
  | init _ =>
    cases h
    exact finishes_writing _ _ _ _

end Operation

end Boardwalk.Registry
