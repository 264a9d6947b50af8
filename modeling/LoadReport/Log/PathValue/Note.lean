import LoadReport.Log.PathValue.Kind

/-!
# Notes on kinds

A kind may carry a note on what its values are and how they are made: what may
stand between the parentheses of a call, and some lines of explanation. Either
may be missing. The notes on members are not kept here.
-/

namespace LoadReport

structure Note where
  signature : Option String
  lines : List String
deriving DecidableEq, Repr

/-- The explanation of a note, if there is one. -/
def Note.text? (n : Note) : Option String :=
  if n.lines.isEmpty then none else some (String.intercalate "\n" n.lines)

namespace PathKind

/-- The note on a kind, if it has one. -/
def ownNote? : PathKind → Option Note
  | date => some
    ⟨none,
      ["datetime(year, month, day[, hour[, minute[, second[, microsecond[,tzinfo]]]]])",
       "",
       "The year, month and day arguments are required. tzinfo may be None, or an",
       "instance of a tzinfo subclass. The remaining arguments may be ints.",
       ""]⟩
  | day => some
    ⟨none, ["date(year, month, day) --> date object"]⟩
  | span => some
    ⟨none,
      ["Difference between two datetime values.",
       "",
       "timedelta(days=0, seconds=0, microseconds=0, milliseconds=0, minutes=0, " ++
         "hours=0, weeks=0)",
       "",
       "All arguments are optional and default to 0.",
       "Arguments may be integers or floats, and may be positive or negative."]⟩
  | zone => some
    ⟨none, ["Fixed offset from UTC implementation of tzinfo."]⟩
  | anyZone => some
    ⟨none, ["Abstract base class for time zone info objects."]⟩
  | whole => some
    ⟨none,
      ["int([x]) -> integer",
       "int(x, base=10) -> integer",
       "",
       "Convert a number or string to an integer, or return 0 if no arguments",
       "are given.  If x is a number, return x.__int__().  For floating point",
       "numbers, this truncates towards zero.",
       "",
       "If x is not a number or if base is given, then x must be a string,",
       "bytes, or bytearray instance representing an integer literal in the",
       "given base.  The literal can be preceded by '+' or '-' and be surrounded",
       "by whitespace.  The base defaults to 10.  Valid bases are 0 and 2-36.",
       "Base 0 means to interpret the base from the string as an integer literal.",
       ">>> int('0b100', base=0)",
       "4"]⟩
  | flag => some
    ⟨none,
      ["bool(x) -> bool",
       "",
       "Returns True when the argument x is true, False otherwise.",
       "The builtins True and False are the only two instances of the class bool.",
       "The class bool is a subclass of the class int, and cannot be subclassed."]⟩
  | text => some
    ⟨none,
      ["str(object='') -> str",
       "str(bytes_or_buffer[, encoding[, errors]]) -> str",
       "",
       "Create a new string object from the given object. If encoding or",
       "errors is specified, then the object must expose a data buffer",
       "that will be decoded using the given encoding and error handler.",
       "Otherwise, returns the result of object.__str__() (if defined)",
       "or repr(object).",
       "encoding defaults to sys.getdefaultencoding().",
       "errors defaults to 'strict'."]⟩
  | row => some
    ⟨some "(iterable=(), /)",
      ["Built-in immutable sequence.",
       "",
       "If no argument is given, the constructor returns an empty tuple.",
       "If iterable is specified the tuple is initialized from iterable's items.",
       "",
       "If the argument is a tuple, the return value is the same object."]⟩
  | record => some
    ⟨none,
      ["dict() -> new empty dictionary",
       "dict(mapping) -> new dictionary initialized from a mapping object's",
       "    (key, value) pairs",
       "dict(iterable) -> new dictionary initialized as if via:",
       "    d = \x7b\x7d",
       "    for k, v in iterable:",
       "        d[k] = v",
       "dict(**kwargs) -> new dictionary initialized with the name=value pairs",
       "    in the keyword argument list.  For example:  dict(one=1, two=2)"]⟩
  | kind => some
    ⟨none,
      ["type(object) -> the object's type",
       "type(name, bases, dict, **kwds) -> a new type"]⟩
  | anything => some
    ⟨some "()",
      ["The base class of the class hierarchy.",
       "",
       "When called, it accepts no arguments and returns a new featureless",
       "instance that has no instance attributes and cannot be given any.",
       ""]⟩
  | boundRoutine => some
    ⟨some "(function, instance, /)", ["Create a bound instance method object."]⟩
  | routine => some
    ⟨some "(code, globals, name=None, argdefs=None, closure=None)",
      ["Create a function object.",
       "",
       "  code",
       "    a code object",
       "  globals",
       "    the globals dictionary",
       "  name",
       "    a string that overrides the name from the code object",
       "  argdefs",
       "    a tuple that specifies the default argument values",
       "  closure",
       "    a tuple that supplies the bindings for free variables"]⟩
  | code => some
    ⟨some ("(argcount, posonlyargcount, kwonlyargcount, nlocals, stacksize,\n" ++
        "     flags, codestring, constants, names, varnames, filename, name,\n" ++
        "     qualname, firstlineno, linetable, exceptiontable, freevars=(),\n" ++
        "     cellvars=(), /)"), ["Create a code object.  Not for the faint of heart."]⟩
  | selection => some
    ⟨none,
      ["Represent a PEP 585 generic type",
       "",
       "E.g. for t = list[int], t.__origin__ is list and t.__args__ is (int,)."]⟩
  | _ => none

end PathKind
end LoadReport
