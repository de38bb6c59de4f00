import Boardwalk.Text.Catalog
import Boardwalk.Text.Quoted
/-!
# What can be reached from a text

A place in a message may name parts of its argument: the characters of a text, its methods, its kind, and
what can be reached from these in turn.
-/

namespace Boardwalk.Text

inductive Part where
  | text (cs : List Char)
  | number (n : Int)
  | nothing
  | kind (name : String)
  | kinds (names : List String)
  | applied (kindName : String) (argument : Part)
  | holdings (kindName : String)
  | method (self : Part) (holder : String) (e : Entry)
  | entry (holder : String) (e : Entry)

inductive MemberFault where
  | noAttribute (holder : String) (ofKind : Bool) (name : String)
  | unsaid (name : String)
  /-- A name between brackets where a number is wanted. -/
  | notNumber (isText : Bool)
  | pastEnd (isText : Bool)
  | noItems (holder : String) (ofKind : Bool)
  | noKey (key : String)
  deriving DecidableEq

def MemberFault.message : MemberFault → String
  | .noAttribute holder ofKind name =>
    (if ofKind then "type object '" ++ holder ++ "'" else "'" ++ holder ++ "' object") ++
      " has no attribute '" ++ name ++ "'"
  | .unsaid name => name
  | .notNumber true => "string indices must be integers, not 'str'"
  | .notNumber false => "tuple indices must be integers or slices, not str"
  | .pastEnd true => "string index out of range"
  | .pastEnd false => "tuple index out of range"
  | .noItems holder ofKind =>
    (if ofKind then "type '" ++ holder ++ "'" else "'" ++ holder ++ "' object") ++
      " is not subscriptable"
  | .noKey key => key

namespace Part

def ofString (s : String) : Part := .text s.toList

def ofString? : Option String → Part
  | some s => ofString s
  | none => .nothing

def kindNameOfRole : Role → String
  | .slot => "wrapper_descriptor"
  | .method => "method_descriptor"
  | .kindMethod => "classmethod_descriptor"
  | .free => "staticmethod"
  | .property => "getset_descriptor"
  | .field => "member_descriptor"
  | .maker | .saying => "object"

def kindName : Part → String
  | .text _ => "str"
  | .number _ => "int"
  | .nothing => "NoneType"
  | .kind _ => "type"
  | .kinds _ => "tuple"
  | .applied .. => "types.GenericAlias"
  | .holdings _ => "mappingproxy"
  | .method _ _ e => if e.role = .slot then "method-wrapper" else "builtin_function_or_method"
  | .entry _ e => kindNameOfRole e.role

/-! ## Properties -/

def ofKind? (k : Kind) : String → Option Part
  | "__name__" | "__qualname__" => some (ofString k.name)
  | "__module__" => some (ofString "builtins")
  | "__base__" => some (if k.name = "object" then .nothing else .kind "object")
  | "__bases__" => some (.kinds (if k.name = "object" then [] else ["object"]))
  | "__mro__" => some (.kinds (if k.name = "object" then [k.name] else [k.name, "object"]))
  | "__dict__" => some (.holdings k.name)
  | "__doc__" => match k.description, k.entries.find? fun e => e.name == "__doc__" && e.role = .property with
    | none, some e => some (.entry k.name e)
    | description, _ => some (ofString? description)
  | "__text_signature__" => some (ofString? k.form)
  | "__basicsize__" => some (.number k.basicSize)
  | "__itemsize__" => some (.number k.itemSize)
  | "__flags__" => some (.number k.marks)
  | "__dictoffset__" => some (.number k.fieldsOffset)
  | "__weakrefoffset__" => some (.number k.referencesOffset)
  | _ => none

/-- What is known of a method of a part. A slot is known by the kind that holds it. -/
def ofMethod? (self : Part) (holder : String) (e : Entry) : String → Option Part
  | "__name__" => some (ofString e.name)
  | "__qualname__" =>
    let owner := if e.role = .slot then holder else match self with
      | .kind name => name
      | p => p.kindName
    some (ofString (owner ++ "." ++ e.name))
  | "__self__" => some (if e.role = .free then .nothing else self)
  | "__module__" => some .nothing
  | "__objclass__" => some (.kind holder)
  | "__doc__" => some (ofString? e.description)
  | "__text_signature__" => some (ofString? e.form)
  | _ => none

def ofEntry? (holder : String) (e : Entry) : String → Option Part
  | "__name__" => some (ofString e.name)
  | "__qualname__" => some (ofString (holder ++ "." ++ e.name))
  | "__objclass__" => some (.kind holder)
  | "__doc__" => some (ofString? e.description)
  | "__text_signature__" => some (ofString? e.form)
  | "__func__" | "__wrapped__" => some (.method (.kind holder) holder e)
  | _ => none

def property? (p : Part) (name : String) : Option Part :=
  if name = "__class__" then some (.kind p.kindName)
  else match p with
    | .kind k => ofKind? (Catalog.kind k) name
    | .method self holder e => ofMethod? self holder e name
    | .entry holder e => ofEntry? holder e name
    | .number n =>
      if name = "imag" then some (.number 0)
      else if name = "denominator" then some (.number 1)
      else some (.number n)
    | _ => none

/-! ## Members -/

/-- The value of a member that each part of its kind has; `owner` is the kind that was asked for it. -/
def shared? (owner holder : String) (e : Entry) : Option Part :=
  match e.role with
  | .kindMethod => some (.method (.kind owner) holder e)
  | .free | .maker => some (.method (.kind holder) holder e)
  | .saying => some (ofString? e.description)
  | .slot | .method | .property | .field => none

def given? (p : Part) (holder : String) (e : Entry) : Option Part :=
  match shared? p.kindName holder e with
  | some q => some q
  | none => match e.role with
    | .property | .field => p.property? e.name
    | _ => some (.method p holder e)

/-- The members of a free function that are those of the function. -/
def freeNames : List String := ["__module__", "__name__", "__qualname__", "__doc__"]

/-- A kind gives its own properties first, then what it holds for its parts, then what any kind has. With an
argument it gives the same. -/
def member? (p : Part) (name : String) : Option Part :=
  let p := match p with
    | .applied k _ => if name = "__class__" then p else .kind k
    | p => p
  let given := (Catalog.member? p.kindName name).bind fun (holder, e) =>
    (p.given? holder e).map fun q => (e.role, q)
  match p, given with
  | .kind k, _ =>
    match Catalog.member? "type" name, Catalog.member? k name with
    | some (_, ⟨_, .property, _, _⟩), _ | some (_, ⟨_, .field, _, _⟩), _ | _, none => given.map (·.2)
    | _, some (holder, e) => some ((shared? k holder e).getD (.entry holder e))
  | .entry holder e, _ =>
    if e.role = .free && freeNames.contains name then ofMethod? (.kind holder) holder e name
    else given.map (·.2)
  | _, _ => given.map (·.2)

/-- The kind that a complaint about a part names, and whether the part is that kind. -/
def blamed : Part → String × Bool
  | .kind name => (name, true)
  | p => (p.kindName, false)

def member (p : Part) (name : String) : Except MemberFault Part :=
  match p.member? name with
  | some q => .ok q
  | none =>
    if p.blamed.2 && name = "__abstractmethods__" then .error (.unsaid name)
    else .error (.noAttribute p.blamed.1 p.blamed.2 name)

/-! ## Items -/

def heldPart (kindName : String) (e : Entry) : Part :=
  match e.role with
  | .maker | .saying => (shared? kindName kindName e).getD .nothing
  | _ => .entry kindName e

def takesArgument (kindName : String) : Bool :=
  kindName = "type" || (Catalog.held? kindName "__class_getitem__").isSome

def item (p : Part) (key : List Char) (position : Option Nat) : Except MemberFault Part :=
  match p, position with
  | .text cs, some n => match cs[n]? with
    | some c => .ok (.text [c])
    | none => .error (.pastEnd true)
  | .text _, none => .error (.notNumber true)
  | .kinds names, some n => match names[n]? with
    | some name => .ok (.kind name)
    | none => .error (.pastEnd false)
  | .kinds _, none => .error (.notNumber false)
  | .holdings _, some n => .error (.noKey (toString n))
  | .holdings k, none =>
    match Catalog.held? k (String.ofList key) with
    | some e => .ok (heldPart k e)
    | none => .error (.noKey (quoted (String.ofList key)))
  | .kind k, n =>
    if takesArgument k then .ok (.applied k (match n with
      | some n => .number n
      | none => .text key))
    else .error (.noItems k true)
  | p, _ => .error (.noItems p.blamed.1 p.blamed.2)

/-! ## Texts -/

def kindText (name : String) : String := "<class '" ++ name ++ "'>"

/-- Methods of parts are told apart by a place in memory, which means nothing. -/
def somewhere : String := " object at 0x7f0000000000>"

def methodText (self : Part) (e : Entry) : String :=
  if e.role = .slot then "<method-wrapper '" ++ e.name ++ "' of " ++ self.kindName ++ somewhere
  else "<built-in method " ++ e.name ++ " of " ++ self.kindName ++ somewhere

def entryText (holder : String) (e : Entry) : String :=
  let described (word : String) : String :=
    "<" ++ word ++ " '" ++ e.name ++ "' of '" ++ holder ++ "' objects>"
  match e.role with
  | .slot => described "slot wrapper"
  | .method | .kindMethod => described "method"
  | .property => described "attribute"
  | .field => described "member"
  | .free => "<staticmethod(" ++ methodText (.kind holder) e ++ ")>"
  | .maker => methodText (.kind holder) e
  | .saying => match e.description with
    | some s => quoted s
    | none => "None"

def shown : Part → String
  | .text cs => String.ofList cs
  | .number n => toString n
  | .nothing => "None"
  | .kind name => kindText name
  | .kinds [name] => "(" ++ kindText name ++ ",)"
  | .kinds names => "(" ++ ", ".intercalate (names.map kindText) ++ ")"
  | .applied k (.text cs) => k ++ "[" ++ quoted (String.ofList cs) ++ "]"
  | .applied k p => k ++ "[" ++ p.shown ++ "]"
  | .holdings k =>
    "mappingproxy(\x7b" ++ ", ".intercalate ((Catalog.kind k).entries.map fun e =>
      quoted e.name ++ ": " ++ entryText k e) ++ "\x7d)"
  | .method self _ e => methodText self e
  | .entry holder e => entryText holder e

end Part

end Boardwalk.Text
