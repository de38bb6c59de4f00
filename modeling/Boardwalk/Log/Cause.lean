import Boardwalk.Value.Display
/-!
# Causes

An entry may give a cause: a kind of fault, a fault and its trace, in a list of three. A list with neither a
fault nor a trace is told as such, and anything else that is given instead is at fault itself.
-/

namespace Boardwalk.Log

inductive CauseFault where
  | notList (kind : String)
  /-- A list, row, text or run of bytes of fewer than three items. -/
  | tooShort (kind : String)
  | noTrace
  /-- Something that is not a trace, or not a fault, has not what these have. -/
  | noAttribute (kind name : String)
  deriving DecidableEq

def CauseFault.message : CauseFault → String
  | .notList kind => "'" ++ kind ++ "' object is not subscriptable"
  | .tooShort kind =>
    if kind = "bytes" then "index out of range"
    else (if kind = "str" then "string" else kind) ++ " index out of range"
  | .noTrace => "2"
  | .noAttribute kind name => "'" ++ kind ++ "' object has no attribute '" ++ name ++ "'"

namespace Cause

def emptyText : String := "NoneType: None"

def parts : Value → Except CauseFault (List Value)
  | .list vs => .ok vs
  | .row vs => .ok vs
  | .str s => .ok (s.toList.map fun c => .str (String.singleton c))
  | .bytes b => .ok (b.toList.map fun n => .int n.toNat)
  | .dict _ => .error .noTrace
  | v => .error (.notList v.kindWord)

def text? (given : Value) : Except CauseFault (Option String) :=
  if !given.truth then .ok none
  else match parts given with
    | .error f => .error f
    | .ok (_ :: fault :: .null :: _) =>
      if fault.isNull then .ok (some emptyText)
      else .error (.noAttribute fault.kindWord "__suppress_context__")
    | .ok (_ :: _ :: trace :: _) => .error (.noAttribute trace.kindWord "tb_frame")
    | .ok _ => .error (.tooShort given.kindWord)

end Cause

end Boardwalk.Log
