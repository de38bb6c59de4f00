import Boardwalk.Prompt.Choice
import Boardwalk.Prompt.Terminal
import Boardwalk.Text.Template
/-!
# Questions

The questions a board may ask: yes or no, a text, one or several of some choices, and forms of several
fields. An empty line stands for the default as it is; any other answer counts without the blanks around it.
-/

namespace Boardwalk.Prompt

/-- What a question adds to its message. -/
def hinted (default : Option String) : String :=
  match default with
  | some d => " (" ++ d ++ "): "
  | none => ": "

def answerOf (default : Option String) (line : String) : String :=
  match default with
  | some d => if line = "" then d else Text.trim line
  | none => Text.trim line

def askText (message : String) (default : Option String) : Dialog String :=
  Terminal.ask message (hinted default) fun line => .accepted (answerOf default line)

def number (n : Nat) : String := String.ofList (Json.natChars n)

/-! ## Yes or no -/

def truthyWords : List String := ["y", "yes", "true", "tak", "1"]

def isTruthy (v : Value) : Bool := truthyWords.contains (Text.lower (Text.trim v.text))

/-- Anything but a word for yes means no. -/
def confirm (message : String) (header : Option String) : Dialog Bool :=
  (Terminal.printSome header).before (Terminal.ask (message ++ " (y/n)") ": " fun line =>
    .accepted (isTruthy (.str (answerOf (some "n") line))))

def proceed (message : String) (header : Option String) : Dialog Bool :=
  (Terminal.printSome header).before (Terminal.ask (message ++ " Do you want to continue?") " [y/n]: " fun line =>
    let word := Text.lower (Text.trim line)
    if word = "y" then .accepted true
    else if word = "n" then .accepted false
    else .refused "[prompt.invalid]Please enter Y or N")

/-! ## Texts and choices -/

/-- The text of a default that is shown: only texts are. -/
def shownDefault : Value → Option String
  | .str s => some s
  | _ => none

def valueOf (default : Value) (line : String) : Value :=
  if line = "" && !default.isNull then default else .str (Text.trim line)

def input (message : String) (initial : Value) (hint header : Option String) : Dialog Value :=
  (Terminal.printSome header).before <| (Terminal.printHint hint).before <|
    Terminal.ask message (hinted (shownDefault initial)) fun line => .accepted (valueOf initial line)

def labelled (n : Nat) (label : String) : String := "  " ++ number n ++ ") " ++ label

def printChoices : Nat → List Value → Dialog Unit
  | _, [], t => (.ok (), t)
  | n, c :: cs, t =>
    match Choice.label c with
    | .error f => (.error f, t)
    | .ok label => (Terminal.print (labelled n label)).before (printChoices (n + 1) cs) t

def namesAt (choices : List Value) : List Nat → Except Fault (List String)
  | [] => .ok []
  | p :: ps => do
    let name ← Choice.name (choices[p]?.getD .null)
    return name :: (← namesAt choices ps)

def judgeNumber (choices : List Value) (default : Option Nat) (line : String) : Verdict Nat :=
  match default, line with
  | some p, "" => .accepted p
  | _, _ =>
    match ((List.range choices.length).map fun p => number (p + 1)).idxOf? (Text.trim line) with
    | some p => .accepted p
    | none => .refused "[prompt.invalid.choice]Please select one of the available options"

def select (message : String) (choices : List Value) (initial : Value) (hint header : Option String) :
    Dialog String := fun t =>
  if choices.isEmpty then (.error .noChoices, t)
  else
    match (Terminal.printSome header).before ((Terminal.printHint hint).before (printChoices 1 choices)) t with
    | (.error f, t) => (.error f, t)
    | (.ok _, t) =>
      match Choice.position choices initial with
      | .error f => (.error f, t)
      | .ok default =>
        match Terminal.ask message (hinted (default.map fun p => number (p + 1))) (judgeNumber choices default) t with
        | (.error f, t) => (.error f, t)
        | (.ok p, t) => (Choice.name (choices[p]?.getD .null), t)

def positionsText (ps : List Nat) : String := ",".intercalate (ps.map fun p => number (p + 1))

def outOfRange (count : Nat) : String := "[prompt.invalid]Enter numbers between 1 and " ++ number count

def judgePositions (count : Nat) (default : Option String) (line : String) : Verdict (List Nat) :=
  match Choice.parsePositions (answerOf default line) count with
  | .error f => .raised f
  | .ok (some ps) => .accepted ps
  | .ok none => .refused (outOfRange count)

def hintOr (hint : Option String) : String := (hint.filter (· ≠ "")).getD "Comma-separated numbers, empty for none"

def multiSelect (message : String) (choices : List Value) (initial : Value) (hint header : Option String) :
    Dialog (List String) := fun t =>
  match (Terminal.printSome header).before
      ((Terminal.print (Terminal.dimmed (hintOr hint))).before (printChoices 1 choices)) t with
  | (.error f, t) => (.error f, t)
  | (.ok _, t) =>
    match (Choice.listed initial).bind (Choice.positions choices) with
    | .error f => (.error f, t)
    | .ok ps =>
      let default := if ps.isEmpty then none else some (positionsText ps)
      match Terminal.ask message (hinted default) (judgePositions choices.length default) t with
      | (.error f, t) => (.error f, t)
      | (.ok picked, t) => (namesAt choices picked, t)

/-! ## Forms -/

structure FormField where
  name : String
  message : Option String
  initial : Value
  hint : Option String

structure SnippetField where
  name : String
  message : Option String
  initial : Value
  isRequired : Bool

structure SnippetTemplate where
  template : String
  fields : List SnippetField
  isRequired : Bool

/-- The message of a field is its name unless another one is given. -/
def messageOr (name : String) : Option String → String
  | some m => if m = "" then name else m
  | none => name

def initialText (v : Value) : Option String := if v.isNull then none else some v.text

def askFields : List FormField → List (String × String) → Dialog (List (String × String))
  | [], answers, t => (.ok answers, t)
  | f :: fs, answers, t =>
    match (Terminal.printHint f.hint).before (askText (messageOr f.name f.message) (initialText f.initial)) t with
    | (.error e, t) => (.error e, t)
    | (.ok answer, t) => askFields fs (Json.put f.name answer answers) t

def form (message : String) (fields : List FormField) (header : Option String) :
    Dialog (List (String × String)) :=
  (Terminal.printSome header).before ((Terminal.print message).before (askFields fields []))

def askSnippetFields (allRequired : Bool) :
    List SnippetField → List (String × Value) → Dialog (List (String × Value))
  | [], values, t => (.ok values, t)
  | f :: fs, values, t =>
    let judge : String → Verdict Value := fun line =>
      let answer := valueOf f.initial line
      if !answer.truth && (f.isRequired || allRequired) then .refused ("[prompt.invalid]" ++ f.name ++ " is required")
      else .accepted answer
    match Terminal.ask (messageOr f.name f.message) (hinted (shownDefault f.initial)) judge t with
    | (.error e, t) => (.error e, t)
    | (.ok answer, t) => askSnippetFields allRequired fs (Json.put f.name answer values) t

/-- The values for the places of a template, and the template with its places filled. -/
def snippet (message : String) (template : SnippetTemplate) (header : Option String) :
    Dialog (List (String × Value) × String) := fun t =>
  match (Terminal.printSome header).before ((Terminal.print message).before
      (askSnippetFields template.isRequired template.fields [])) t with
  | (.error f, t) => (.error f, t)
  | (.ok values, t) =>
    (.ok (values, Text.Template.fill template.template (values.map fun v => (v.1, v.2.text))), t)

end Boardwalk.Prompt
