import Boardwalk.Console
import Boardwalk.Text.Cell
/-!
# Terminals

Questions are written to a terminal, and lines of it are the answers. A question is asked again as long as
its answers are refused; what is not answered at all is a fault. All that is written goes through the markup of the
console, but for what a question adds to its message: the default, and the answers that it takes.
-/

namespace Boardwalk

structure Terminal where
  console : Console
  lines : List String
  written : String
  deriving Inhabited

abbrev Dialog (α : Type) := Terminal → Except Fault α × Terminal

def Dialog.before {α : Type} (first : Dialog Unit) (next : Dialog α) : Dialog α := fun t =>
  match first t with
  | (.error f, t) => (.error f, t)
  | (.ok _, t) => next t

inductive Verdict (α : Type) where
  | accepted (a : α)
  | refused (complaint : String)
  | raised (f : Fault)

namespace Terminal

/-- The lines of a text. Line ends and the carriage returns before them are dropped. -/
def linesOf (text : String) : List String :=
  let pieces := Text.splitAt '\n' text.toList
  let pieces := if pieces.getLast? = some [] then pieces.dropLast else pieces
  pieces.map fun l => String.ofList (l.reverse.dropWhile fun c => c = '\r' || c = '\n').reverse

def ofAnswers (console : Console) (text : String) : Terminal := ⟨console, linesOf text, ""⟩

def print (text : String) : Dialog Unit := fun t =>
  match t.console text with
  | .error f => (.error f, t)
  | .ok shown => (.ok (), { t with written := t.written ++ Text.seen shown ++ "\n" })

def printSome (text : Option String) : Dialog Unit := fun t =>
  match text with
  | some s => if s = "" then (.ok (), t) else print s t
  | none => (.ok (), t)

def dimmed (text : String) : String := "[dim]" ++ text ++ "[/dim]"

def printHint (hint : Option String) : Dialog Unit := printSome ((hint.filter (· ≠ "")).map dimmed)

def askLines {α : Type} (console : Console) (question : String) (judge : String → Verdict α) :
    List String → String → Except Fault α × Terminal
  | [], written => (.error .noAnswer, ⟨console, [], written ++ Text.seen question⟩)
  | line :: lines, written =>
    match judge line with
    | .accepted a => (.ok a, ⟨console, lines, written ++ Text.seen question⟩)
    | .raised f => (.error f, ⟨console, lines, written ++ Text.seen question⟩)
    | .refused complaint =>
      match console complaint with
      | .error f => (.error f, ⟨console, lines, written ++ Text.seen question⟩)
      | .ok shown => askLines console question judge lines (written ++ Text.seen question ++ Text.seen shown ++ "\n")

/-- Asks with a message, and with what follows it as it stands. -/
def ask {α : Type} (message rest : String) (judge : String → Verdict α) : Dialog α := fun t =>
  match t.console message with
  | .error f => (.error f, t)
  | .ok shown => askLines t.console (shown ++ rest) judge t.lines t.written

end Terminal

end Boardwalk
