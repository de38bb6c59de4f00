import Boardwalk.Text.Digit
import Boardwalk.Fault
/-!
# Targets

A frame is named by its position or by its name. A name that consists of digit signs is read as a
position.
-/

namespace Boardwalk

inductive Target where
  | position (n : Int)
  | name (s : String)
  deriving DecidableEq, Inhabited

namespace Target

/-- Reads a name of digit signs as a position. Some digit signs make no numeral. -/
def settle : Target → Except Fault Target
  | .position n => .ok (.position n)
  | .name s =>
    if Text.allDigitSigns s.toList then
      match Text.readNumeral s.toList with
      | .ok n => .ok (.position n)
      | .error f => .error (.numeral f s)
    else .ok (.name s)

end Target

end Boardwalk
