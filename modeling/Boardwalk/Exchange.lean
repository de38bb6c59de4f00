import Boardwalk.Log.Line
import Boardwalk.Session
import Boardwalk.Text.Hex
/-!
# Exchange with other programs

Values, journals, log entries and disks in Json, without loss: an object with one key that begins with a
dollar sign stands for what Json cannot hold.
-/

namespace Boardwalk

namespace Value

def recordForm (index : Json) (name kind : String) (output completed frameIndex : Json) : Json :=
  .obj [("index", index), ("name", .str name), ("type", .str kind), ("output", output),
    ("completed", completed), ("frameIndex", frameIndex)]

mutual

def tagged : Value → Json
  | .null => .null
  | .bool b => .bool b
  | .int n => .int n
  | .float x =>
    if Number.isFinite x then .float x else .obj [("$float", .str (floatWord x))]
  | .str s => .str s
  | .bytes b => .obj [("$bytes", .str (Text.toHex b))]
  | .list xs => .arr (taggedItems xs)
  | .row xs => .obj [("$tuple", .arr (taggedItems xs))]
  | .dict fs => .obj (taggedFields fs)
  | .record index name kind output completed frameIndex =>
    .obj [("$record", recordForm (tagged index) name kind (tagged output) (tagged completed)
      (tagged frameIndex))]
  | .foreign => .obj [("$opaque", .bool true)]

def taggedItems : List Value → List Json
  | [] => []
  | x :: xs => tagged x :: taggedItems xs

def taggedFields : List (String × Value) → List (String × Json)
  | [] => []
  | (k, x) :: fs => (k, tagged x) :: taggedFields fs

end

def bareTagged : Value → Json
  | .record index name kind output completed frameIndex =>
    recordForm index.tagged name kind output.tagged completed.tagged frameIndex.tagged
  | v => v.tagged

/-- What a run amounts to. A list of nothing but records has no signs for them. -/
def outcomeTagged : Value → Json
  | .list xs => if xs.all (·.isRecord) then .arr (xs.map bareTagged) else .arr (taggedItems xs)
  | v => v.tagged

def floatNamed (name : String) : Float := (Number.floatOfText? name).getD Number.notANumber

def untag : List (String × Value) → Except Fault Value
  | [("$float", .str s)] => .ok (.float (floatNamed s))
  | [("$bytes", .str s)] => .ok (.bytes (Text.ofHex s))
  | [("$tuple", .list xs)] => .ok (.row xs)
  | [("$opaque", _)] => .ok .foreign
  | [("$record", v)] => (Record.check v).toExcept.map Record.toValue
  | fs => .ok (.dict fs)

mutual

def ofTagged : Json → Except Fault Value
  | .null => .ok .null
  | .bool b => .ok (.bool b)
  | .int n => .ok (.int n)
  | .float x => .ok (.float x)
  | .str s => .ok (.str s)
  | .arr xs => do return .list (← ofTaggedItems xs)
  | .obj fs => do untag (← ofTaggedFields fs)

def ofTaggedItems : List Json → Except Fault (List Value)
  | [] => .ok []
  | x :: xs => do return (← ofTagged x) :: (← ofTaggedItems xs)

def ofTaggedFields : List (String × Json) → Except Fault (List (String × Value))
  | [] => .ok []
  | (k, x) :: fs => do return (k, ← ofTagged x) :: (← ofTaggedFields fs)

end

end Value

namespace Record

def tagged (r : Record) : Json := r.toValue.bareTagged

def ofTagged (j : Json) : Except Fault Record := do (check (← Value.ofTagged j)).toExcept

end Record

def Timeline.tagged (t : Timeline) : Json := .arr (t.map Record.tagged)

def Model.tagged (m : Model) : Json :=
  .obj [("storyboard", .str m.board), ("timeline", m.timeline.tagged)]

def Log.Entry.tagged (e : Log.Entry) : Json :=
  (Value.ofJson (.obj (e.line ⟨0, 0⟩).body)).tagged

namespace Node

def tagged : Node → Json
  | .file c => match String.fromUTF8? c with
    | some s => .str s
    | none => .obj [("$hex", .str (Text.toHex c))]
  | .dir => .obj [("$dir", .bool true)]

def ofTagged? : Json → Option Node
  | .str s => some (.file s.toUTF8)
  | .obj [("$hex", .str h)] => some (.file (Text.ofHex h))
  | .obj _ => some .dir
  | _ => none

end Node

namespace Disk

def insertByKey {α : Type} (x : String × α) : List (String × α) → List (String × α)
  | [] => [x]
  | y :: ys => if x.1 ≤ y.1 then x :: y :: ys else y :: insertByKey x ys

def listing (d : Disk) : List (String × Node) :=
  (d.nodes.filterMap fun (p, n) =>
    if p.head?.any fun h => h != "/" && h != ".." then some ("/".intercalate p, n) else none).foldr insertByKey []

def lay (d : Disk) (l : Location) (n : Node) : Disk :=
  match d.makeDirs l.parent with
  | (.ok dir, d) => d.put (StateFile.placeIn dir l) n
  | (.error _, d) => d

def unlink (d : Disk) (l : Location) : Except DiskFault Disk := do d.remove (← d.reach l)

end Disk

namespace World

variable {σ : Type}

def hold (w : World σ) (lock : Location) : World σ :=
  let d := (w.disk.makeDirs lock.parent).2
  match d.reach lock with
  | .error _ => w
  | .ok p => match d.touch p with
    | .error _ => w
    | .ok d => { w with disk := d, held := p :: w.held }

def release (w : World σ) (lock : Location) : World σ :=
  match w.disk.reach lock with
  | .error _ => w
  | .ok p => { w with held := w.held.filter (· != p) }

end World

end Boardwalk
