/-!
# The kinds of parts

The kinds that can be reached from a text, with the members that each of them holds, and what is said about
them. Members are in the order in which a kind shows them.
-/

namespace Boardwalk.Text

inductive Role where
  /-- An operation that stands for an operator or the like. -/
  | slot
  | method
  | kindMethod
  | free
  | maker
  /-- A value of each part, that is found out or kept. -/
  | property
  | field
  | saying
  deriving DecidableEq, Inhabited

structure Entry where
  name : String
  role : Role
  description : Option String
  form : Option String
  deriving Inhabited

/-- A kind, by name. The numbers say how its parts lie in memory. -/
structure Kind where
  name : String
  basicSize : Int
  itemSize : Int
  marks : Int
  fieldsOffset : Int
  referencesOffset : Int
  description : Option String
  form : Option String
  entries : List Entry

namespace Catalog

def lines : List String → Option String
  | [] => none
  | ls => some ("\n".intercalate ls)

def entry (role : Role) (name form : String) (description : List String) : Entry :=
  ⟨name, role, lines description, if form = "" then none else some form⟩

def method (name form : String) (description : List String) : Entry := entry .method name form description

def kindMethod (name form : String) (description : List String) : Entry :=
  entry .kindMethod name form description

def property (name : String) (description : List String) : Entry := entry .property name "" description

def fields (names : List String) : List Entry := names.map fun n => entry .field n "" []

def properties (names : List String) : List Entry := names.map (property · [])

def saying (name : String) (description : Option String) : Entry := ⟨name, .saying, description, none⟩

def slotNotes : List (String × String × String) :=
  [("__repr__", "($self, /)", "Return repr(self)."),
   ("__hash__", "($self, /)", "Return hash(self)."),
   ("__str__", "($self, /)", "Return str(self)."),
   ("__getattribute__", "($self, name, /)", "Return getattr(self, name)."),
   ("__lt__", "($self, value, /)", "Return self<value."),
   ("__le__", "($self, value, /)", "Return self<=value."),
   ("__eq__", "($self, value, /)", "Return self==value."),
   ("__ne__", "($self, value, /)", "Return self!=value."),
   ("__gt__", "($self, value, /)", "Return self>value."),
   ("__ge__", "($self, value, /)", "Return self>=value."),
   ("__iter__", "($self, /)", "Implement iter(self)."),
   ("__mod__", "($self, value, /)", "Return self%value."),
   ("__rmod__", "($self, value, /)", "Return value%self."),
   ("__len__", "($self, /)", "Return len(self)."),
   ("__getitem__", "($self, key, /)", "Return self[key]."),
   ("__add__", "($self, value, /)", "Return self+value."),
   ("__mul__", "($self, value, /)", "Return self*value."),
   ("__rmul__", "($self, value, /)", "Return value*self."),
   ("__contains__", "($self, key, /)", "Return key in self."),
   ("__setattr__", "($self, name, value, /)", "Implement setattr(self, name, value)."),
   ("__delattr__", "($self, name, /)", "Implement delattr(self, name)."),
   ("__init__", "($self, /, *args, **kwargs)",
     "Initialize self.  See help(type(self)) for accurate signature."),
   ("__call__", "($self, /, *args, **kwargs)", "Call self as a function."),
   ("__or__", "($self, value, /)", "Return self|value."),
   ("__ror__", "($self, value, /)", "Return value|self."),
   ("__bool__", "($self, /)", "True if self else False"),
   ("__radd__", "($self, value, /)", "Return value+self."),
   ("__sub__", "($self, value, /)", "Return self-value."),
   ("__rsub__", "($self, value, /)", "Return value-self."),
   ("__divmod__", "($self, value, /)", "Return divmod(self, value)."),
   ("__rdivmod__", "($self, value, /)", "Return divmod(value, self)."),
   ("__pow__", "($self, value, mod=None, /)", "Return pow(self, value, mod)."),
   ("__rpow__", "($self, value, mod=None, /)", "Return pow(value, self, mod)."),
   ("__neg__", "($self, /)", "-self"),
   ("__pos__", "($self, /)", "+self"),
   ("__abs__", "($self, /)", "abs(self)"),
   ("__invert__", "($self, /)", "~self"),
   ("__lshift__", "($self, value, /)", "Return self<<value."),
   ("__rlshift__", "($self, value, /)", "Return value<<self."),
   ("__rshift__", "($self, value, /)", "Return self>>value."),
   ("__rrshift__", "($self, value, /)", "Return value>>self."),
   ("__and__", "($self, value, /)", "Return self&value."),
   ("__rand__", "($self, value, /)", "Return value&self."),
   ("__xor__", "($self, value, /)", "Return self^value."),
   ("__rxor__", "($self, value, /)", "Return value^self."),
   ("__int__", "($self, /)", "int(self)"),
   ("__float__", "($self, /)", "float(self)"),
   ("__floordiv__", "($self, value, /)", "Return self//value."),
   ("__rfloordiv__", "($self, value, /)", "Return value//self."),
   ("__truediv__", "($self, value, /)", "Return self/value."),
   ("__rtruediv__", "($self, value, /)", "Return value/self."),
   ("__index__", "($self, /)",
     "Return self converted to an integer, if self is suitable for use as an index into a list."),
   ("__get__", "($self, instance, owner=None, /)",
     "Return an attribute of instance, which is of type owner."),
   ("__set__", "($self, instance, value, /)", "Set an attribute of instance to value."),
   ("__delete__", "($self, instance, /)", "Delete an attribute of instance."),
   ("__ior__", "($self, value, /)", "Return self|=value.")]

def slot (name : String) : Entry :=
  let (form, description) := (slotNotes.lookup name).getD ("", "")
  entry .slot name form [description]

def slots (names : List String) : List Entry := names.map slot

def maker : Entry :=
  entry .maker "__new__" "($type, *args, **kwargs)"
    ["Create and return a new object.  See help(type) for accurate signature."]

def textDescription : Option String :=
  lines ["str(object='') -> str", "str(bytes_or_buffer[, encoding[, errors]]) -> str", "",
     "Create a new string object from the given object. If encoding or",
     "errors is specified, then the object must expose a data buffer",
     "that will be decoded using the given encoding and error handler.",
     "Otherwise, returns the result of object.__str__() (if defined)", "or repr(object).",
     "encoding defaults to sys.getdefaultencoding().", "errors defaults to 'strict'."]

def textEntries : List Entry :=
  [maker] ++
  slots ["__repr__", "__hash__", "__str__", "__getattribute__", "__lt__", "__le__", "__eq__",
       "__ne__", "__gt__", "__ge__", "__iter__", "__mod__", "__rmod__", "__len__", "__getitem__",
       "__add__", "__mul__", "__rmul__", "__contains__"] ++
  [method "encode" "($self, /, encoding='utf-8', errors='strict')"
      ["Encode the string using the codec registered for encoding.", "", "  encoding",
       "    The encoding in which to encode the string.", "  errors",
       "    The error handling scheme to use for encoding errors.",
       "    The default is 'strict' meaning that encoding errors raise a",
       "    UnicodeEncodeError.  Other possible values are 'ignore', 'replace' and",
       "    'xmlcharrefreplace' as well as any other name registered with",
       "    codecs.register_error that can handle UnicodeEncodeErrors."],
   method "replace" "($self, old, new, count=-1, /)"
      ["Return a copy with all occurrences of substring old replaced by new.", "", "  count",
       "    Maximum number of occurrences to replace.",
       "    -1 (the default value) means replace all occurrences.", "",
       "If the optional argument count is given, only the first count occurrences are", "replaced."],
   method "split" "($self, /, sep=None, maxsplit=-1)"
      ["Return a list of the substrings in the string, using sep as the separator string.", "",
       "  sep", "    The separator used to split the string.", "",
       "    When set to None (the default value), will split on any whitespace",
       "    character (including \\n \\r \\t \\f and spaces) and will discard",
       "    empty strings from the result.", "  maxsplit", "    Maximum number of splits.",
       "    -1 (the default value) means no limit.", "",
       "Splitting starts at the front of the string and works to the end.", "",
       "Note, str.split() is mainly useful for data that has been intentionally",
       "delimited.  With natural text that includes punctuation, consider using",
       "the regular expression module."],
   method "rsplit" "($self, /, sep=None, maxsplit=-1)"
      ["Return a list of the substrings in the string, using sep as the separator string.", "",
       "  sep", "    The separator used to split the string.", "",
       "    When set to None (the default value), will split on any whitespace",
       "    character (including \\n \\r \\t \\f and spaces) and will discard",
       "    empty strings from the result.", "  maxsplit", "    Maximum number of splits.",
       "    -1 (the default value) means no limit.", "",
       "Splitting starts at the end of the string and works to the front."],
   method "join" "($self, iterable, /)"
      ["Concatenate any number of strings.", "",
       "The string whose method is called is inserted in between each given string.",
       "The result is returned as a new string.", "",
       "Example: '.'.join(['ab', 'pq', 'rs']) -> 'ab.pq.rs'"],
   method "capitalize" "($self, /)"
      ["Return a capitalized version of the string.", "",
       "More specifically, make the first character have upper case and the rest lower", "case."],
   method "casefold" "($self, /)"
      ["Return a version of the string suitable for caseless comparisons."],
   method "title" "($self, /)"
      ["Return a version of the string where each word is titlecased.", "",
       "More specifically, words start with uppercased characters and all remaining",
       "cased characters have lower case."],
   method "center" "($self, width, fillchar=' ', /)"
      ["Return a centered string of length width.", "",
       "Padding is done using the specified fill character (default is a space)."],
   method "count" ""
      ["S.count(sub[, start[, end]]) -> int", "",
       "Return the number of non-overlapping occurrences of substring sub in",
       "string S[start:end].  Optional arguments start and end are",
       "interpreted as in slice notation."],
   method "expandtabs" "($self, /, tabsize=8)"
      ["Return a copy where all tab characters are expanded using spaces.", "",
       "If tabsize is not given, a tab size of 8 characters is assumed."],
   method "find" ""
      ["S.find(sub[, start[, end]]) -> int", "",
       "Return the lowest index in S where substring sub is found,",
       "such that sub is contained within S[start:end].  Optional",
       "arguments start and end are interpreted as in slice notation.", "", "Return -1 on failure."],
   method "partition" "($self, sep, /)"
      ["Partition the string into three parts using the given separator.", "",
       "This will search for the separator in the string.  If the separator is found,",
       "returns a 3-tuple containing the part before the separator, the separator",
       "itself, and the part after it.", "",
       "If the separator is not found, returns a 3-tuple containing the original string",
       "and two empty strings."],
   method "index" ""
      ["S.index(sub[, start[, end]]) -> int", "",
       "Return the lowest index in S where substring sub is found,",
       "such that sub is contained within S[start:end].  Optional",
       "arguments start and end are interpreted as in slice notation.", "",
       "Raises ValueError when the substring is not found."],
   method "ljust" "($self, width, fillchar=' ', /)"
      ["Return a left-justified string of length width.", "",
       "Padding is done using the specified fill character (default is a space)."],
   method "lower" "($self, /)" ["Return a copy of the string converted to lowercase."],
   method "lstrip" "($self, chars=None, /)"
      ["Return a copy of the string with leading whitespace removed.", "",
       "If chars is given and not None, remove characters in chars instead."],
   method "rfind" ""
      ["S.rfind(sub[, start[, end]]) -> int", "",
       "Return the highest index in S where substring sub is found,",
       "such that sub is contained within S[start:end].  Optional",
       "arguments start and end are interpreted as in slice notation.", "", "Return -1 on failure."],
   method "rindex" ""
      ["S.rindex(sub[, start[, end]]) -> int", "",
       "Return the highest index in S where substring sub is found,",
       "such that sub is contained within S[start:end].  Optional",
       "arguments start and end are interpreted as in slice notation.", "",
       "Raises ValueError when the substring is not found."],
   method "rjust" "($self, width, fillchar=' ', /)"
      ["Return a right-justified string of length width.", "",
       "Padding is done using the specified fill character (default is a space)."],
   method "rstrip" "($self, chars=None, /)"
      ["Return a copy of the string with trailing whitespace removed.", "",
       "If chars is given and not None, remove characters in chars instead."],
   method "rpartition" "($self, sep, /)"
      ["Partition the string into three parts using the given separator.", "",
       "This will search for the separator in the string, starting at the end. If",
       "the separator is found, returns a 3-tuple containing the part before the",
       "separator, the separator itself, and the part after it.", "",
       "If the separator is not found, returns a 3-tuple containing two empty strings",
       "and the original string."],
   method "splitlines" "($self, /, keepends=False)"
      ["Return a list of the lines in the string, breaking at line boundaries.", "",
       "Line breaks are not included in the resulting list unless keepends is given and", "true."],
   method "strip" "($self, chars=None, /)"
      ["Return a copy of the string with leading and trailing whitespace removed.", "",
       "If chars is given and not None, remove characters in chars instead."],
   method "swapcase" "($self, /)"
      ["Convert uppercase characters to lowercase and lowercase characters to uppercase."],
   method "translate" "($self, table, /)"
      ["Replace each character in the string using the given translation table.", "", "  table",
       "    Translation table, which must be a mapping of Unicode ordinals to",
       "    Unicode ordinals, strings, or None.", "",
       "The table must implement lookup/indexing via __getitem__, for instance a",
       "dictionary or list.  If this operation raises LookupError, the character is",
       "left untouched.  Characters mapped to None are deleted."],
   method "upper" "($self, /)" ["Return a copy of the string converted to uppercase."],
   method "startswith" ""
      ["S.startswith(prefix[, start[, end]]) -> bool", "",
       "Return True if S starts with the specified prefix, False otherwise.",
       "With optional start, test S beginning at that position.",
       "With optional end, stop comparing S at that position.",
       "prefix can also be a tuple of strings to try."],
   method "endswith" ""
      ["S.endswith(suffix[, start[, end]]) -> bool", "",
       "Return True if S ends with the specified suffix, False otherwise.",
       "With optional start, test S beginning at that position.",
       "With optional end, stop comparing S at that position.",
       "suffix can also be a tuple of strings to try."],
   method "removeprefix" "($self, prefix, /)"
      ["Return a str with the given prefix string removed if present.", "",
       "If the string starts with the prefix string, return string[len(prefix):].",
       "Otherwise, return a copy of the original string."],
   method "removesuffix" "($self, suffix, /)"
      ["Return a str with the given suffix string removed if present.", "",
       "If the string ends with the suffix string and that suffix is not empty,",
       "return string[:-len(suffix)]. Otherwise, return a copy of the original", "string."],
   method "isascii" "($self, /)"
      ["Return True if all characters in the string are ASCII, False otherwise.", "",
       "ASCII characters have code points in the range U+0000-U+007F.",
       "Empty string is ASCII too."],
   method "islower" "($self, /)"
      ["Return True if the string is a lowercase string, False otherwise.", "",
       "A string is lowercase if all cased characters in the string are lowercase and",
       "there is at least one cased character in the string."],
   method "isupper" "($self, /)"
      ["Return True if the string is an uppercase string, False otherwise.", "",
       "A string is uppercase if all cased characters in the string are uppercase and",
       "there is at least one cased character in the string."],
   method "istitle" "($self, /)"
      ["Return True if the string is a title-cased string, False otherwise.", "",
       "In a title-cased string, upper- and title-case characters may only",
       "follow uncased characters and lowercase characters only cased ones."],
   method "isspace" "($self, /)"
      ["Return True if the string is a whitespace string, False otherwise.", "",
       "A string is whitespace if all characters in the string are whitespace and there",
       "is at least one character in the string."],
   method "isdecimal" "($self, /)"
      ["Return True if the string is a decimal string, False otherwise.", "",
       "A string is a decimal string if all characters in the string are decimal and",
       "there is at least one character in the string."],
   method "isdigit" "($self, /)"
      ["Return True if the string is a digit string, False otherwise.", "",
       "A string is a digit string if all characters in the string are digits and there",
       "is at least one character in the string."],
   method "isnumeric" "($self, /)"
      ["Return True if the string is a numeric string, False otherwise.", "",
       "A string is numeric if all characters in the string are numeric and there is at",
       "least one character in the string."],
   method "isalpha" "($self, /)"
      ["Return True if the string is an alphabetic string, False otherwise.", "",
       "A string is alphabetic if all characters in the string are alphabetic and there",
       "is at least one character in the string."],
   method "isalnum" "($self, /)"
      ["Return True if the string is an alpha-numeric string, False otherwise.", "",
       "A string is alpha-numeric if all characters in the string are alpha-numeric and",
       "there is at least one character in the string."],
   method "isidentifier" "($self, /)"
      ["Return True if the string is a valid Python identifier, False otherwise.", "",
       "Call keyword.iskeyword(s) to test whether string s is a reserved identifier,",
       "such as \"def\" or \"class\"."],
   method "isprintable" "($self, /)"
      ["Return True if the string is printable, False otherwise.", "",
       "A string is printable if all of its characters are considered printable in",
       "repr() or if it is empty."],
   method "zfill" "($self, width, /)"
      ["Pad a numeric string with zeros on the left, to fill a field of the given width.", "",
       "The string is never truncated."],
   method "format" ""
      ["S.format(*args, **kwargs) -> str", "",
       "Return a formatted version of S, using substitutions from args and kwargs.",
       "The substitutions are identified by braces ('\x7b' and '\x7d')."],
   method "format_map" ""
      ["S.format_map(mapping) -> str", "",
       "Return a formatted version of S, using substitutions from mapping.",
       "The substitutions are identified by braces ('\x7b' and '\x7d')."],
   method "__format__" "($self, format_spec, /)"
      ["Return a formatted version of the string as described by format_spec."],
   entry .free "maketrans" "(x, y=<unrepresentable>, z=<unrepresentable>, /)"
      ["Return a translation table usable for str.translate().", "",
       "If there is only one argument, it must be a dictionary mapping Unicode",
       "ordinals (integers) or characters to Unicode ordinals, strings or None.",
       "Character keys will be then converted to ordinals.",
       "If there are two arguments, they must be strings of equal length, and",
       "in the resulting dictionary, each character in x will be mapped to the",
       "character at the same position in y. If there is a third argument, it",
       "must be a string, whose characters will be mapped to None in the result."],
   method "__sizeof__" "($self, /)" ["Return the size of the string in memory, in bytes."],
   method "__getnewargs__" "" [],
   saying "__doc__" textDescription]

def textKind : Kind :=
  ⟨"str", 80, 0, 273159424, 0, 0, textDescription, none, textEntries⟩

def objectDescription : Option String :=
  lines ["The base class of the class hierarchy.", "",
     "When called, it accepts no arguments and returns a new featureless",
     "instance that has no instance attributes and cannot be given any.", ""]

def objectEntries : List Entry :=
  [maker] ++
  slots ["__repr__", "__hash__", "__str__", "__getattribute__", "__setattr__", "__delattr__",
       "__lt__", "__le__", "__eq__", "__ne__", "__gt__", "__ge__", "__init__"] ++
  [method "__reduce_ex__" "($self, protocol, /)" ["Helper for pickle."],
   method "__reduce__" "($self, /)" ["Helper for pickle."],
   method "__getstate__" "($self, /)" ["Helper for pickle."],
   kindMethod "__subclasshook__" ""
      ["Abstract classes can override this to customize issubclass().", "",
       "This is invoked early on by abc.ABCMeta.__subclasscheck__().",
       "It should return True, False or NotImplemented.  If it returns",
       "NotImplemented, the normal algorithm is used.  Otherwise, it",
       "overrides the normal algorithm (and the outcome is cached).", ""],
   kindMethod "__init_subclass__" ""
      ["This method is called when a class is subclassed.", "",
       "The default implementation does nothing. It may be", "overridden to extend subclasses.", ""],
   method "__format__" "($self, format_spec, /)" ["Default object formatter."],
   method "__sizeof__" "($self, /)" ["Size of object in memory, in bytes."],
   method "__dir__" "($self, /)" ["Default dir() implementation."],
   property "__class__" ["the object's class"],
   saying "__doc__" objectDescription]

def objectKind : Kind :=
  ⟨"object", 16, 0, 529664, 0, 0, objectDescription, some "()", objectEntries⟩

def kindDescription : Option String :=
  lines ["type(object) -> the object's type", "type(name, bases, dict, **kwds) -> a new type"]

def kindEntries : List Entry :=
  [maker] ++
  slots ["__repr__", "__call__", "__getattribute__", "__setattr__", "__delattr__", "__init__",
       "__or__", "__ror__"] ++
  [method "mro" "($self, /)" ["Return a type's method resolution order."],
   method "__subclasses__" "($self, /)" ["Return a list of immediate subclasses."],
   kindMethod "__prepare__" ""
      ["__prepare__() -> dict", "used to create the namespace for the class statement"],
   method "__instancecheck__" "($self, instance, /)" ["Check if an object is an instance."],
   method "__subclasscheck__" "($self, subclass, /)" ["Check if a class is a subclass."],
   method "__dir__" "($self, /)" ["Specialized __dir__ implementation for types."],
   method "__sizeof__" "($self, /)" ["Return memory consumption of the type object."]] ++
  fields ["__basicsize__", "__itemsize__", "__flags__", "__weakrefoffset__", "__base__",
       "__dictoffset__", "__mro__"] ++
  properties ["__name__", "__qualname__", "__bases__", "__module__", "__abstractmethods__", "__dict__",
       "__doc__", "__text_signature__", "__annotations__"]

def kindKind : Kind :=
  ⟨"type", 904, 40, 2148031744, 264, 368, kindDescription, none, kindEntries⟩

def rowDescription : Option String :=
  lines ["Built-in immutable sequence.", "",
     "If no argument is given, the constructor returns an empty tuple.",
     "If iterable is specified the tuple is initialized from iterable's items.", "",
     "If the argument is a tuple, the return value is the same object."]

def rowEntries : List Entry :=
  [maker] ++
  slots ["__repr__", "__hash__", "__getattribute__", "__lt__", "__le__", "__eq__", "__ne__", "__gt__",
       "__ge__", "__iter__", "__len__", "__getitem__", "__add__", "__mul__", "__rmul__",
       "__contains__"] ++
  [method "__getnewargs__" "($self, /)" [],
   method "index" "($self, value, start=0, stop=sys.maxsize, /)"
      ["Return first index of value.", "", "Raises ValueError if the value is not present."],
   method "count" "($self, value, /)" ["Return number of occurrences of value."],
   kindMethod "__class_getitem__" "" ["See PEP 585"],
   saying "__doc__" rowDescription]

def rowKind : Kind :=
  ⟨"tuple", 24, 8, 71849248, 0, 0, rowDescription, some "(iterable=(), /)", rowEntries⟩

def nothingEntries : List Entry :=
  [maker] ++
  slots ["__repr__", "__bool__"] ++
  [saying "__doc__" none]

def nothingKind : Kind :=
  ⟨"NoneType", 16, 0, 528640, 0, 0, none, none, nothingEntries⟩

def numberDescription : Option String :=
  lines ["int([x]) -> integer", "int(x, base=10) -> integer", "",
     "Convert a number or string to an integer, or return 0 if no arguments",
     "are given.  If x is a number, return x.__int__().  For floating point",
     "numbers, this truncates towards zero.", "",
     "If x is not a number or if base is given, then x must be a string,",
     "bytes, or bytearray instance representing an integer literal in the",
     "given base.  The literal can be preceded by '+' or '-' and be surrounded",
     "by whitespace.  The base defaults to 10.  Valid bases are 0 and 2-36.",
     "Base 0 means to interpret the base from the string as an integer literal.",
     ">>> int('0b100', base=0)", "4"]

def numberEntries : List Entry :=
  [maker] ++
  slots ["__repr__", "__hash__", "__getattribute__", "__lt__", "__le__", "__eq__", "__ne__", "__gt__",
       "__ge__", "__add__", "__radd__", "__sub__", "__rsub__", "__mul__", "__rmul__", "__mod__",
       "__rmod__", "__divmod__", "__rdivmod__", "__pow__", "__rpow__", "__neg__", "__pos__",
       "__abs__", "__bool__", "__invert__", "__lshift__", "__rlshift__", "__rshift__",
       "__rrshift__", "__and__", "__rand__", "__xor__", "__rxor__", "__or__", "__ror__", "__int__",
       "__float__", "__floordiv__", "__rfloordiv__", "__truediv__", "__rtruediv__", "__index__"] ++
  [method "conjugate" "" ["Returns self, the complex conjugate of any int."],
   method "bit_length" "($self, /)"
      ["Number of bits necessary to represent self in binary.", "", ">>> bin(37)", "'0b100101'",
       ">>> (37).bit_length()", "6"],
   method "bit_count" "($self, /)"
      ["Number of ones in the binary representation of the absolute value of self.", "",
       "Also known as the population count.", "", ">>> bin(13)", "'0b1101'", ">>> (13).bit_count()",
       "3"],
   method "to_bytes" "($self, /, length=1, byteorder='big', *, signed=False)"
      ["Return an array of bytes representing an integer.", "", "  length",
       "    Length of bytes object to use.  An OverflowError is raised if the",
       "    integer is not representable with the given number of bytes.  Default",
       "    is length 1.", "  byteorder",
       "    The byte order used to represent the integer.  If byteorder is 'big',",
       "    the most significant byte is at the beginning of the byte array.  If",
       "    byteorder is 'little', the most significant byte is at the end of the",
       "    byte array.  To request the native byte order of the host system, use",
       "    `sys.byteorder' as the byte order value.  Default is to use 'big'.", "  signed",
       "    Determines whether two's complement is used to represent the integer.",
       "    If signed is False and a negative integer is given, an OverflowError", "    is raised."],
   kindMethod "from_bytes" "($type, /, bytes, byteorder='big', *, signed=False)"
      ["Return the integer represented by the given array of bytes.", "", "  bytes",
       "    Holds the array of bytes to convert.  The argument must either",
       "    support the buffer protocol or be an iterable object producing bytes.",
       "    Bytes and bytearray are examples of built-in objects that support the",
       "    buffer protocol.", "  byteorder",
       "    The byte order used to represent the integer.  If byteorder is 'big',",
       "    the most significant byte is at the beginning of the byte array.  If",
       "    byteorder is 'little', the most significant byte is at the end of the",
       "    byte array.  To request the native byte order of the host system, use",
       "    `sys.byteorder' as the byte order value.  Default is to use 'big'.", "  signed",
       "    Indicates whether two's complement is used to represent the integer."],
   method "as_integer_ratio" "($self, /)"
      ["Return integer ratio.", "",
       "Return a pair of integers, whose ratio is exactly equal to the original int",
       "and with a positive denominator.", "", ">>> (10).as_integer_ratio()", "(10, 1)",
       ">>> (-10).as_integer_ratio()", "(-10, 1)", ">>> (0).as_integer_ratio()", "(0, 1)"],
   method "__trunc__" "" ["Truncating an Integral returns itself."],
   method "__floor__" "" ["Flooring an Integral returns itself."],
   method "__ceil__" "" ["Ceiling of an Integral returns itself."],
   method "__round__" "($self, ndigits=<unrepresentable>, /)"
      ["Rounding an Integral returns itself.", "",
       "Rounding with an ndigits argument also returns an integer."],
   method "__getnewargs__" "($self, /)" [],
   method "__format__" "($self, format_spec, /)" [],
   method "__sizeof__" "($self, /)" ["Returns size in memory, in bytes."],
   property "real" ["the real part of a complex number"],
   property "imag" ["the imaginary part of a complex number"],
   property "numerator" ["the numerator of a rational number in lowest terms"],
   property "denominator" ["the denominator of a rational number in lowest terms"],
   saying "__doc__" numberDescription]

def numberKind : Kind :=
  ⟨"int", 24, 4, 21501184, 0, 0, numberDescription, none, numberEntries⟩

def boundSlotEntries : List Entry :=
  slots ["__repr__", "__hash__", "__call__", "__getattribute__", "__lt__", "__le__", "__eq__",
       "__ne__", "__gt__", "__ge__"] ++
  [method "__reduce__" "" []] ++
  fields ["__self__"] ++
  properties ["__objclass__", "__name__", "__qualname__", "__doc__", "__text_signature__"]

def boundSlotKind : Kind :=
  ⟨"method-wrapper", 32, 0, 545152, 0, 0, none, none, boundSlotEntries⟩

def boundMethodEntries : List Entry :=
  slots ["__repr__", "__hash__", "__call__", "__getattribute__", "__lt__", "__le__", "__eq__",
       "__ne__", "__gt__", "__ge__"] ++
  [method "__reduce__" "" []] ++
  fields ["__module__"] ++
  properties ["__doc__", "__name__", "__qualname__", "__self__", "__text_signature__"]

def boundMethodKind : Kind :=
  ⟨"builtin_function_or_method", 56, 0, 547200, 0, 40, none, none, boundMethodEntries⟩

def slotEntries : List Entry :=
  slots ["__repr__", "__call__", "__getattribute__", "__get__"] ++
  [method "__reduce__" "" []] ++
  fields ["__objclass__", "__name__"] ++
  properties ["__doc__", "__qualname__", "__text_signature__"]

def slotKind : Kind :=
  ⟨"wrapper_descriptor", 56, 0, 676224, 0, 0, none, none, slotEntries⟩

def methodEntries : List Entry :=
  slots ["__repr__", "__call__", "__getattribute__", "__get__"] ++
  [method "__reduce__" "" []] ++
  fields ["__objclass__", "__name__"] ++
  properties ["__doc__", "__qualname__", "__text_signature__"]

def methodKind : Kind :=
  ⟨"method_descriptor", 56, 0, 678272, 0, 0, none, none, methodEntries⟩

def kindMethodEntries : List Entry :=
  slots ["__repr__", "__call__", "__getattribute__", "__get__"] ++
  fields ["__objclass__", "__name__"] ++
  properties ["__doc__", "__qualname__", "__text_signature__"]

def kindMethodKind : Kind :=
  ⟨"classmethod_descriptor", 56, 0, 545152, 0, 0, none, none, kindMethodEntries⟩

def propertyEntries : List Entry :=
  slots ["__repr__", "__getattribute__", "__get__", "__set__", "__delete__"] ++
  fields ["__objclass__", "__name__"] ++
  properties ["__doc__", "__qualname__"]

def propertyKind : Kind :=
  ⟨"getset_descriptor", 48, 0, 545152, 0, 0, none, none, propertyEntries⟩

def fieldEntries : List Entry :=
  slots ["__repr__", "__getattribute__", "__get__", "__set__", "__delete__"] ++
  [method "__reduce__" "" []] ++
  fields ["__objclass__", "__name__"] ++
  properties ["__doc__", "__qualname__"]

def fieldKind : Kind :=
  ⟨"member_descriptor", 48, 0, 545152, 0, 0, none, none, fieldEntries⟩

def holdingsEntries : List Entry :=
  [maker] ++
  slots ["__repr__", "__str__", "__getattribute__", "__lt__", "__le__", "__eq__", "__ne__", "__gt__",
       "__ge__", "__iter__", "__or__", "__ror__", "__ior__", "__len__", "__getitem__",
       "__contains__"] ++
  [method "get" "" ["D.get(k[,d]) -> D[k] if k in D, else d.  d defaults to None."],
   method "keys" "" ["D.keys() -> a set-like object providing a view on D's keys"],
   method "values" "" ["D.values() -> an object providing a view on D's values"],
   method "items" "" ["D.items() -> a set-like object providing a view on D's items"],
   method "copy" "" ["D.copy() -> a shallow copy of D"],
   kindMethod "__class_getitem__" "" ["See PEP 585"],
   method "__reversed__" "" ["D.__reversed__() -> reverse iterator"],
   saying "__doc__" none,
   saying "__hash__" none]

def holdingsKind : Kind :=
  ⟨"mappingproxy", 24, 0, 545088, 0, 0, none, none, holdingsEntries⟩

def freeDescription : Option String :=
  lines ["staticmethod(function) -> method", "", "Convert a function to be a static method.", "",
     "A static method does not receive an implicit first argument.",
     "To declare a static method, use this idiom:", "", "     class C:", "         @staticmethod",
     "         def f(arg1, arg2, argN):", "             ...", "",
     "It can be called either on the class (e.g. C.f()) or on an instance",
     "(e.g. C().f()). Both the class and the instance are ignored, and",
     "neither is passed implicitly as the first argument to the method.", "",
     "Static methods in Python are similar to those found in Java or C++.",
     "For a more advanced concept, see the classmethod builtin."]

def freeEntries : List Entry :=
  [maker] ++
  slots ["__repr__", "__call__", "__get__", "__init__"] ++
  fields ["__func__", "__wrapped__"] ++
  properties ["__isabstractmethod__", "__dict__"] ++
  [saying "__doc__" freeDescription]

def freeKind : Kind :=
  ⟨"staticmethod", 32, 0, 546048, 24, 0, freeDescription, none, freeEntries⟩

def kinds : List Kind :=
  [textKind, objectKind, kindKind, rowKind, nothingKind, numberKind, boundSlotKind,
    boundMethodKind, slotKind, methodKind, kindMethodKind, propertyKind, fieldKind, holdingsKind,
    freeKind]

def kind (name : String) : Kind := (kinds.find? fun k => k.name == name).getD objectKind

def held? (kindName name : String) : Option Entry := (kind kindName).entries.find? fun e => e.name == name

/-- The member of a name that parts of a kind have, with the name of the kind that holds it. What a kind does
not hold it may have for being an object. -/
def member? (kindName name : String) : Option (String × Entry) :=
  match held? kindName name with
  | some e => some (kindName, e)
  | none => (held? "object" name).map fun e => ("object", e)

end Catalog

end Boardwalk.Text
