import Boardwalk.Text.Digit
import Boardwalk.Text.Quoted
/-!
# Argument lists

An argument list holds switches, which begin with a dash, and operands. A switch may be shortened as long as
one switch is meant; its value follows it or an equals sign. After two dashes all arguments are operands. A command may
end the operands of a level: what follows it is the argument list of the next level.
-/

namespace Boardwalk.Command

inductive Effect where
  | help
  | version
  | value (field : String)
  deriving DecidableEq

structure Switch where
  names : List String
  effect : Effect
  deriving DecidableEq

inductive Operand where
  | nothing
  | text (field : String)
  | command (field : String) (choices : List String)

structure Level where
  title : String
  switches : List Switch
  operand : Operand

inductive Stop where
  | help
  | version
  | misuse (title complaint : String)

def Stop.exitCode : Stop → Nat
  | .help => 0
  | .version => 0
  | .misuse _ _ => 2

/-! ## The kinds of arguments -/

inductive Kind where
  | plain
  | dashes
  /-- A switch, the name that it is given by, and the value in the same argument. -/
  | known (s : Switch) (name : String) (attached : Option String)
  | unknown

structure Token where
  text : String
  kind : Kind

def Token.isSwitch (t : Token) : Bool :=
  match t.kind with
  | .known .. => true
  | .unknown => true
  | _ => false

def isDecimal (c : Char) : Bool := (Text.digitValue? c).isSome

def dropLineEnd (cs : List Char) : List Char :=
  if cs.getLast? = some '\n' then cs.dropLast else cs

/-- A dash and a number, which a line feed may follow. -/
def isNegativeNumber : List Char → Bool
  | '-' :: text =>
    let cs := dropLineEnd text
    match cs.dropWhile isDecimal with
    | [] => !cs.isEmpty
    | '.' :: ds => !ds.isEmpty && ds.all isDecimal
    | _ => false
  | _ => false

def splitEquals (cs : List Char) : Option (List Char × List Char) :=
  match cs.dropWhile (· != '=') with
  | _ :: rest => some (cs.takeWhile (· != '='), rest)
  | [] => none

def namesOf (switches : List Switch) : List (String × Switch) :=
  switches.flatMap fun s => s.names.map fun n => (n, s)

/-- The switches that an argument may be short for, with the name that is meant and the value that is
attached. -/
def candidates (switches : List Switch) (cs : List Char) :
    List (Switch × String × Option String) :=
  match cs with
  | '-' :: '-' :: _ =>
    let (short, attached) : List Char × Option String := match splitEquals cs with
      | some (short, value) => (short, some (String.ofList value))
      | none => (cs, none)
    (namesOf switches).filterMap fun (n, s) =>
      if short.isPrefixOf n.toList then some (s, n, attached) else none
  | _ =>
    (namesOf switches).filterMap fun (n, s) =>
      if n.toList = cs.take 2 then some (s, n, some (String.ofList (cs.drop 2)))
      else if cs.isPrefixOf n.toList then some (s, n, none)
      else none

def exactly (switches : List Switch) (name : List Char) : Option Switch :=
  (namesOf switches).lookup (String.ofList name)

def kindOf (switches : List Switch) (text : String) : Except String Kind :=
  let cs := text.toList
  let attached := do
    let (name, value) ← splitEquals cs
    let s ← exactly switches name
    return Kind.known s (String.ofList name) (some (String.ofList value))
  if cs.head? != some '-' then .ok .plain
  else match exactly switches cs with
    | some s => .ok (.known s text none)
    | none =>
      if cs.length = 1 then .ok .plain
      else match attached with
        | some k => .ok k
        | none =>
          match candidates switches cs with
          | [(s, name, value)] => .ok (.known s name value)
          -- what looks like a switch and is none may still be a number, or a text with a blank
          | [] => .ok (if isNegativeNumber cs || cs.contains ' ' then .plain else .unknown)
          | several => .error ("ambiguous option: " ++ text ++ " could match " ++
              ", ".intercalate (several.map fun c => c.2.1))

def tokens (switches : List Switch) : List String → Except String (List Token)
  | [] => .ok []
  | a :: as =>
    if a = "--" then .ok (⟨a, .dashes⟩ :: as.map fun b => ⟨b, .plain⟩)
    else do
      let k ← kindOf switches a
      return ⟨a, k⟩ :: (← tokens switches as)

/-! ## Reading a level -/

structure Parsed where
  values : List (String × Option String)
  extras : List String
  isOpen : Bool
  rest : List String

def isDashes (t : Token) : Bool := t.kind matches .dashes

def takeOperand (o : Operand) (ts : List Token) : Option (List String × List Token) :=
  let lead := ts.takeWhile isDashes
  match o, ts.dropWhile isDashes with
  | .command _ _, t :: rest =>
    if t.isSwitch then none else some ((lead ++ t :: rest).map Token.text, [])
  | .text _, t :: rest =>
    if t.isSwitch then none
    else some ((lead ++ t :: rest.takeWhile isDashes).map Token.text, rest.dropWhile isDashes)
  | _, _ => none

def withOperand (l : Level) (p : Parsed) (args : List String) : Except Stop Parsed :=
  match l.operand, args with
  | .command field choices, a :: rest =>
    if choices.contains a then
      .ok { p with values := (field, some a) :: p.values, isOpen := false, rest := rest }
    else .error (.misuse l.title ("argument " ++ field ++ ": invalid choice: " ++ Text.quoted a ++
      " (choose from " ++ ", ".intercalate (choices.map Text.quoted) ++ ")"))
  | .text field, args => .ok { p with
      values := (field, (args.erase "--").head?) :: p.values, isOpen := false }
  | _, _ => .ok p

def complainOf (l : Level) (s : Switch) (complaint : String) : Stop :=
  .misuse l.title ("argument " ++ "/".intercalate s.names ++ ": " ++ complaint)

/-- What is attached to the letter of a switch that takes no value must be more of that letter. -/
def attachedTo (l : Level) (s : Switch) (name value : String) (stop : Stop) : Stop :=
  let left := match name.toList with
    | ['-', letter] => value.toList.dropWhile (· = letter)
    | _ => value.toList
  if left.isEmpty && value != "" then stop
  else complainOf l s ("ignored explicit argument " ++ Text.quoted (String.ofList left))

def attachedValue (value : String) : Option String := if value = "--" then none else some value

def takeSwitch (l : Level) (p : Parsed) (t : Token) (ts : List Token) :
    Except Stop (Parsed × List Token) :=
  match t.kind with
  | .known s name attached =>
    match s.effect, attached with
    | .help, none => .error .help
    | .help, some v => .error (attachedTo l s name v .help)
    | .version, none => .error .version
    | .version, some v => .error (attachedTo l s name v .version)
    | .value field, some a =>
      .ok ({ p with values := (field, attachedValue a) :: p.values }, ts)
    | .value field, none =>
      match ts with
      | ⟨v, .plain⟩ :: rest => .ok ({ p with values := (field, some v) :: p.values }, rest)
      | _ => .error (complainOf l s "expected one argument")
  | _ => .ok ({ p with extras := p.extras ++ [t.text] }, ts)

/-- Takes operands and switches in turn; every round takes at least one argument. -/
def takeAll (l : Level) : Nat → Parsed → List Token → Except Stop Parsed
  | 0, p, _ => .ok p
  | fuel + 1, p, ts =>
    let operand := if p.isOpen then takeOperand l.operand ts else none
    if ts.any Token.isSwitch then
      match ts with
      | [] => .ok p
      | t :: rest =>
        if t.isSwitch then do
          let (p, rest) ← takeSwitch l p t rest
          takeAll l fuel p rest
        else match operand with
          | some (args, rest) => do takeAll l fuel (← withOperand l p args) rest
          -- what no operand takes is left over, up to the next switch
          | none =>
            takeAll l fuel
              { p with extras := p.extras ++ (ts.takeWhile fun t => !t.isSwitch).map Token.text }
              (ts.dropWhile fun t => !t.isSwitch)
    else match operand with
      | some (args, rest) => do
        let p ← withOperand l p args
        return { p with extras := p.extras ++ rest.map Token.text }
      | none => .ok { p with extras := p.extras ++ ts.map Token.text }

def Operand.field? : Operand → Option String
  | .nothing => none
  | .text field => some field
  | .command field _ => some field

def Level.read (l : Level) (args : List String) : Except Stop Parsed :=
  match tokens l.switches args with
  | .error complaint => .error (.misuse l.title complaint)
  | .ok ts =>
    match takeAll l (ts.length + 1) ⟨[], [], true, []⟩ ts with
    | .error s => .error s
    | .ok p =>
      match l.operand.field?, p.isOpen with
      | some field, true =>
        .error (.misuse l.title ("the following arguments are required: " ++ field))
      | _, _ => .ok p

def Parsed.value? (p : Parsed) (field : String) : Option String := (p.values.lookup field).getD none

def unrecognized (title : String) (extras : List String) : Except Stop Unit :=
  if extras.isEmpty then .ok ()
  else .error (.misuse title ("unrecognized arguments: " ++ " ".intercalate extras))

end Boardwalk.Command
