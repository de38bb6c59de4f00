import Boardwalk.Fault
/-!
# Consoles

What is printed to a console goes through its markup first, and a text whose markup makes no sense is not printed.
-/

namespace Boardwalk

/-- What is seen of a text that is printed. -/
abbrev Console := String → Except Fault String

namespace Console

def plain : Console := .ok

/-- Gives styles to what stands between tags. -/
def marked : Console := fun text => (Text.Markup.shown text).mapError .markup

def Shows (console : Console) (text : String) : Prop := ∃ shown, console text = .ok shown

instance (console : Console) (text : String) : Decidable (console.Shows text) :=
  match h : console text with
  | .ok shown => isTrue ⟨shown, h⟩
  | .error _ => isFalse fun ⟨shown, hshown⟩ => by cases h.symm.trans hshown

end Console

end Boardwalk
