import Boardwalk.Json.Parser
import Boardwalk.Text.Fill
import Boardwalk.Text.Markup
import Boardwalk.Value.Display
/-!
# Faults

Everything that can go wrong in a run, by cause, with the wording of those faults that have one.
-/

namespace Boardwalk

inductive DiskFault where
  | exists
  | missing
  | notDirectory
  | isDirectory
  | nameTooLong
  | nullCharacter
  deriving DecidableEq, Inhabited

/-- Where a schema finds a value wanting: a path of field names and positions, and the kind of defect. -/
inductive Step where
  | field (name : String)
  | item (position : Nat)
  deriving DecidableEq

structure Issue where
  path : List Step
  kind : String

/-- What follows the containers of a value one inside the other, as deep as it can. -/
inductive Descent where
  | reading (c : Json.Container)
  | writing
  | writingLine
  deriving DecidableEq, Inhabited

inductive Family where
  | disk
  | value
  | other
  deriving DecidableEq, Inhabited

inductive Fault where
  | jumpOutside (target : Int) (board : String) (frames : Nat)
  | jumpUnknown (target board : String)
  | numeral (f : Number.NumeralFault) (text : String)
  | noNumeral
  /-- A cursor below the first frame counted from the end. It is vast if no board has so many frames. -/
  | noFrame (vast : Bool)
  | nested (board : String) (cause : Fault)
  | notLoaded (session : String)
  | notWritten (place : String)
  | noOutput
  | noRecord (index : Value)
  | fixedField (index : Value) (field : String) (stored : String) (edit : Value)
  | disk (f : DiskFault)
  | lockTimeout
  | badJson
  | undecodable
  /-- No bytes stand for a text that is to be written. -/
  | unencodable
  | unserializable
  /-- An output is nested too deep for its form. -/
  | tooDeep
  | overflow (d : Descent)
  | invalid (issues : List Issue)
  | fill (f : Text.FillFault)
  /-- A text with markup closes a tag that is not open. -/
  | markup (f : Text.Markup.Flaw)
  | unknownLevel (name : String)
  | noAnswer
  | noChoices
  | noField (name : String)
  | noOutputField
  | notPath (kind : String)
  | notListed (kind : String)
  /-- A look at a part of the journal where there is none to see. -/
  | noView (part : String)
  | noLength
  | notComparable (left right : String)
  | nonsense (text : String)
  | cancelled
  /-- Raised by the code of a board or of a prompt. -/
  | raised (family : Family) (kind message : String)
  deriving Inhabited

namespace Fault

def family : Fault → Family
  | .jumpOutside .. | .jumpUnknown .. | .numeral .. | .noRecord _ | .fixedField .. => .value
  | .noNumeral | .badJson | .undecodable | .unencodable | .unserializable | .tooDeep => .value
  | .invalid _ | .unknownLevel _ | .noChoices => .value
  | .fill (.flaw _) | .disk .nullCharacter => .value
  | .notWritten _ | .disk _ | .lockTimeout => .disk
  | .raised f _ _ => f
  | .noFrame _ | .nested .. | .notLoaded _ | .noOutput | .fill _ => .other
  | .noAnswer | .noField _ | .noOutputField | .notPath _ | .notListed _ | .cancelled => .other
  | .noView _ | .noLength | .notComparable .. | .nonsense _ | .overflow _ | .markup _ => .other

def isUnreadable (f : Fault) : Bool := f.family == .disk || f.family == .value

def longNumeral : String :=
  "Exceeds the limit (" ++ Value.intText Number.numeralLimit ++ " digits) for integer string conversion"

def longNumeralHint : String := "; use sys.set_int_max_str_digits() to increase the limit"

def descentText : Descent → String
  | .reading .array => "while decoding a JSON array from a unicode string"
  | .reading .object => "while decoding a JSON object from a unicode string"
  | .writing => "while calling a Python object"
  | .writingLine => "while encoding a JSON object"

/-- The wording; none for faults that are told apart by their kind alone. -/
def message? : Fault → Option String
  | .jumpOutside t b n =>
    some ("Jump target " ++ Value.intText t ++ " is outside storyboard " ++ Text.quoted b ++
      " (0.." ++ Value.intText ((n : Int) - 1) ++ ")")
  | .jumpUnknown t b =>
    some ("Storyboard " ++ Text.quoted b ++ " has no frame named " ++ Text.quoted t)
  | .numeral .malformed t =>
    some ("invalid literal for int() with base 10: " ++
      String.ofList ((Text.quoted t).toList.take 200))
  | .numeral (.tooLong n) _ => some (longNumeral ++ ": value has " ++ Value.intText n ++
      " digits" ++ longNumeralHint)
  | .noNumeral => some (longNumeral ++ longNumeralHint)
  | .noFrame false => some "list index out of range"
  | .noFrame true => some "cannot fit 'int' into an index-sized integer"
  | .nested b c =>
    c.message?.map fun m => "Nested storyboard " ++ Text.quoted b ++ " failed: " ++ m
  | .notLoaded s => some ("Session " ++ Text.quoted s ++ " is not loaded")
  | .notWritten p => some ("Could not write " ++ p)
  | .noOutput => some "No frame produced an output"
  | .noRecord i => some ("No timeline record at index " ++ i.shown)
  | .fixedField i f s e =>
    some ("Timeline record " ++ i.text ++ " field " ++ Text.quoted f ++ " cannot change (" ++
      Text.quoted s ++ " -> " ++ e.shown ++ ")")
  | .fill f => some f.message
  | .markup f => some f.message
  | .unknownLevel n => some ("Unknown level: " ++ Text.quoted n)
  | .noAnswer => some "no more answers"
  | .noChoices => some "select() needs at least one choice"
  | .noField n => some (Text.quoted n)
  | .noOutputField => some "'NoneType' object has no attribute 'output'"
  | .notPath k => some ("expected str, bytes or os.PathLike object, not " ++ k)
  | .notListed k => some ("'" ++ k ++ "' object is not iterable")
  | .noView part => some ("'NoneType' object has no attribute " ++ Text.quoted part)
  | .noLength => some "object of type 'NoneType' has no len()"
  | .notComparable a b =>
    some ("'<' not supported between instances of '" ++ a ++ "' and '" ++ b ++ "'")
  | .nonsense t => some t
  | .cancelled => some ""
  | .raised _ _ m => some m
  | .tooDeep => some "Circular reference detected (depth exceeded)"
  | .overflow d => some ("maximum recursion depth exceeded " ++ descentText d)
  | .disk .nullCharacter => some "embedded null byte"
  | .disk _ | .lockTimeout | .badJson | .undecodable | .unencodable | .unserializable | .invalid _ => none

end Fault

end Boardwalk
