import LoadReport.Log.PathValue.Kind
import LoadReport.Text.Split

/-!
# Members of kinds

A kind has members, each under a name. The sort of a member says what becomes
of it when it is looked up behind a value: an operator or a method is tied to
the value, a reading or a field gives a part of the value, and a plain member
is what it is.

Members are listed kind by kind, in the order in which a kind itself lists
them. What is not found at a kind is looked for at its ancestors, the nearest
first.
-/

namespace LoadReport

/-- What is kept under the name of a member. -/
inductive MemberSort
  /-- What stands behind a sign or a keyword. -/
  | operator
  | method
  /-- A method of the kind itself rather than of its values. -/
  | kindMethod
  /-- What makes the values of a kind. -/
  | maker
  /-- A method that needs neither a value nor a kind. -/
  | helper
  /-- A part that is worked out. -/
  | reading
  /-- A part that is kept. -/
  | field
  /-- A method that is made of steps. -/
  | routine
  /-- A value that is the same for all values of a kind. -/
  | plain
deriving DecidableEq, Repr

namespace MemberSort

def isPart (sort : MemberSort) : Bool := sort == reading || sort == field

end MemberSort

namespace PathKind

def comparisons : String := "__lt__ __le__ __eq__ __ne__ __gt__ __ge__"

/-- The operators of everything that can be put in order and into tables. -/
def basicOperators : String := "__repr__ __hash__ __getattribute__ " ++ comparisons

/-- The operators of everything that can be called as well. -/
def callOperators : String := "__repr__ __hash__ __call__ __getattribute__ " ++ comparisons

/-- The operators of days and moments. -/
def dateOperators : String :=
  "__repr__ __hash__ __str__ __getattribute__ " ++ comparisons ++
    " __add__ __radd__ __sub__ __rsub__"

/-- The members of a kind in runs of one sort. -/
def memberRuns : PathKind → List (MemberSort × String)
  | opening => [
      (.plain, "__module__"),
      (.routine, "__init__ __format__"),
      (.reading, "__dict__ __weakref__"),
      (.plain, "__doc__")]
  | instant => [
      (.plain, "__module__"),
      (.routine, "__format__"),
      (.reading, "__dict__ __weakref__"),
      (.plain, "__doc__")]
  | date => [
      (.maker, "__new__"),
      (.operator, dateOperators),
      (.kindMethod, "now utcnow fromtimestamp utcfromtimestamp strptime combine fromisoformat"),
      (.method,
        "date time timetz ctime timetuple timestamp utctimetuple isoformat utcoffset tzname " ++
        "dst replace astimezone __reduce_ex__ __reduce__"),
      (.reading, "hour minute second microsecond tzinfo fold"),
      (.plain, "__doc__ min max resolution")]
  | day => [
      (.maker, "__new__"),
      (.operator, dateOperators),
      (.kindMethod, "fromtimestamp fromordinal fromisoformat fromisocalendar today"),
      (.method,
        "ctime strftime __format__ timetuple isocalendar isoformat isoweekday toordinal " ++
        "weekday replace __reduce__"),
      (.reading, "year month day"),
      (.plain, "__doc__ min max resolution")]
  | span => [
      (.maker, "__new__"),
      (.operator,
        dateOperators ++
        " __mul__ __rmul__ __mod__ __rmod__ __divmod__ __rdivmod__ __neg__ __pos__ __abs__ " ++
        "__bool__ __floordiv__ __rfloordiv__ __truediv__ __rtruediv__"),
      (.method, "total_seconds __reduce__"),
      (.field, "days seconds microseconds"),
      (.plain, "__doc__ resolution min max")]
  | zone => [
      (.maker, "__new__"),
      (.operator, "__repr__ __hash__ __str__ " ++ comparisons),
      (.method, "tzname utcoffset dst fromutc __getinitargs__"),
      (.plain, "__doc__ utc min max")]
  | anyZone => [
      (.maker, "__new__"),
      (.operator, "__getattribute__"),
      (.method, "tzname utcoffset dst fromutc __reduce__"),
      (.plain, "__doc__")]
  | whole => [
      (.maker, "__new__"),
      (.operator,
        basicOperators ++
        " __add__ __radd__ __sub__ __rsub__ __mul__ __rmul__ __mod__ __rmod__ __divmod__ " ++
        "__rdivmod__ __pow__ __rpow__ __neg__ __pos__ __abs__ __bool__ __invert__ __lshift__ " ++
        "__rlshift__ __rshift__ __rrshift__ __and__ __rand__ __xor__ __rxor__ __or__ __ror__ " ++
        "__int__ __float__ __floordiv__ __rfloordiv__ __truediv__ __rtruediv__ __index__"),
      (.method, "conjugate bit_length bit_count to_bytes"),
      (.kindMethod, "from_bytes"),
      (.method,
        "as_integer_ratio __trunc__ __floor__ __ceil__ __round__ __getnewargs__ __format__ " ++
        "__sizeof__"),
      (.reading, "real imag numerator denominator"),
      (.plain, "__doc__")]
  | flag => [
      (.maker, "__new__"),
      (.operator, "__repr__ __and__ __rand__ __xor__ __rxor__ __or__ __ror__"),
      (.plain, "__doc__")]
  | text => [
      (.maker, "__new__"),
      (.operator,
        "__repr__ __hash__ __str__ __getattribute__ " ++ comparisons ++
        " __iter__ __mod__ __rmod__ __len__ __getitem__ __add__ __mul__ __rmul__ __contains__"),
      (.method,
        "encode replace split rsplit join capitalize casefold title center count expandtabs " ++
        "find partition index ljust lower lstrip rfind rindex rjust rstrip rpartition " ++
        "splitlines strip swapcase translate upper startswith endswith removeprefix " ++
        "removesuffix isascii islower isupper istitle isspace isdecimal isdigit isnumeric " ++
        "isalpha isalnum isidentifier isprintable zfill format format_map __format__"),
      (.helper, "maketrans"),
      (.method, "__sizeof__ __getnewargs__"),
      (.plain, "__doc__")]
  | nothing => [
      (.maker, "__new__"),
      (.operator, "__repr__ __bool__"),
      (.plain, "__doc__")]
  | row => [
      (.maker, "__new__"),
      (.operator,
        basicOperators ++ " __iter__ __len__ __getitem__ __add__ __mul__ __rmul__ __contains__"),
      (.method, "__getnewargs__ index count"),
      (.kindMethod, "__class_getitem__"),
      (.plain, "__doc__")]
  | record => [
      (.maker, "__new__"),
      (.operator, "__repr__"),
      (.plain, "__hash__"),
      (.operator,
        "__getattribute__ " ++ comparisons ++ " __iter__ __init__ __or__ __ror__ __ior__ __len__"),
      (.method, "__getitem__"),
      (.operator, "__setitem__ __delitem__"),
      (.method, "__contains__ __sizeof__ get setdefault pop popitem keys items values update"),
      (.kindMethod, "fromkeys"),
      (.method, "clear copy __reversed__"),
      (.kindMethod, "__class_getitem__"),
      (.plain, "__doc__")]
  | view => [
      (.maker, "__new__"),
      (.operator,
        "__repr__ __str__ __getattribute__ " ++ comparisons ++
        " __iter__ __or__ __ror__ __ior__ __len__ __getitem__ __contains__"),
      (.method, "get keys values items copy"),
      (.kindMethod, "__class_getitem__"),
      (.method, "__reversed__"),
      (.plain, "__doc__ __hash__")]
  | kind => [
      (.maker, "__new__"),
      (.operator,
        "__repr__ __call__ __getattribute__ __setattr__ __delattr__ __init__ __or__ __ror__"),
      (.method, "mro __subclasses__"),
      (.kindMethod, "__prepare__"),
      (.method, "__instancecheck__ __subclasscheck__ __dir__ __sizeof__"),
      (.field,
        "__basicsize__ __itemsize__ __flags__ __weakrefoffset__ __base__ __dictoffset__ " ++
        "__mro__"),
      (.reading,
        "__name__ __qualname__ __bases__ __module__ __abstractmethods__ __dict__ __doc__ " ++
        "__text_signature__ __annotations__")]
  | anything => [
      (.maker, "__new__"),
      (.operator,
        "__repr__ __hash__ __str__ __getattribute__ __setattr__ __delattr__ " ++ comparisons ++
        " __init__"),
      (.method, "__reduce_ex__ __reduce__ __getstate__"),
      (.kindMethod, "__subclasshook__ __init_subclass__"),
      (.method, "__format__ __sizeof__ __dir__"),
      (.reading, "__class__"),
      (.plain, "__doc__")]
  | method => [
      (.operator, callOperators),
      (.method, "__reduce__"),
      (.field, "__module__"),
      (.reading, "__doc__ __name__ __qualname__ __self__ __text_signature__")]
  | boundRoutine => [
      (.maker, "__new__"),
      (.operator,
        "__repr__ __hash__ __call__ __getattribute__ __setattr__ __delattr__ " ++ comparisons),
      (.method, "__reduce__"),
      (.field, "__func__ __self__"),
      (.reading, "__doc__")]
  | routine => [
      (.maker, "__new__"),
      (.operator, "__repr__ __call__ __get__"),
      (.field, "__closure__ __doc__ __globals__ __module__ __builtins__"),
      (.reading,
        "__code__ __defaults__ __kwdefaults__ __annotations__ __dict__ __name__ __qualname__")]
  | code => [
      (.maker, "__new__"),
      (.operator, basicOperators),
      (.method, "__sizeof__ co_lines co_positions replace _varname_from_oparg"),
      (.field,
        "co_argcount co_posonlyargcount co_kwonlyargcount co_stacksize co_flags co_nlocals " ++
        "co_consts co_names co_filename co_name co_qualname co_firstlineno co_linetable " ++
        "co_exceptiontable"),
      (.reading, "co_lnotab _co_code_adaptive co_varnames co_cellvars co_freevars co_code"),
      (.plain, "__doc__")]
  | methodEntry | operatorEntry => [
      (.operator, "__repr__ __call__ __getattribute__ __get__"),
      (.method, "__reduce__"),
      (.field, "__objclass__ __name__"),
      (.reading, "__doc__ __qualname__ __text_signature__")]
  | makerEntry => [
      (.operator, "__repr__ __call__ __getattribute__ __get__"),
      (.field, "__objclass__ __name__"),
      (.reading, "__doc__ __qualname__ __text_signature__")]
  | operator => [
      (.operator, callOperators),
      (.method, "__reduce__"),
      (.field, "__self__"),
      (.reading, "__objclass__ __name__ __qualname__ __doc__ __text_signature__")]
  | readingEntry => [
      (.operator, "__repr__ __getattribute__ __get__ __set__ __delete__"),
      (.field, "__objclass__ __name__"),
      (.reading, "__doc__ __qualname__")]
  | fieldEntry => [
      (.operator, "__repr__ __getattribute__ __get__ __set__ __delete__"),
      (.method, "__reduce__"),
      (.field, "__objclass__ __name__"),
      (.reading, "__doc__ __qualname__")]
  | selection => [
      (.maker, "__new__"),
      (.operator, callOperators ++ " __iter__ __or__ __ror__ __getitem__"),
      (.method, "__mro_entries__ __instancecheck__ __subclasscheck__ __reduce__ __dir__"),
      (.field, "__origin__ __args__ __unpacked__"),
      (.reading, "__parameters__ __typing_unpacked_tuple_args__"),
      (.plain, "__doc__")]

def members (k : PathKind) : List (String × MemberSort) :=
  k.memberRuns.flatMap fun (sort, names) => (Text.words names).map fun name => (name, sort)

/-- The member with a name, and the kind that it comes from: the first of an
ancestry that has one. -/
def member? (k : PathKind) (name : String) : Option (PathKind × MemberSort) :=
  k.ancestry.findSome? fun owner => (owner.members.lookup name).map fun sort => (owner, sort)

/-- A member comes from an ancestor that has it. -/
theorem mem_ancestry_of_member? {k owner : PathKind} {name : String} {sort : MemberSort}
    (h : k.member? name = some (owner, sort)) :
    owner ∈ k.ancestry ∧ owner.members.lookup name = some sort := by
  obtain ⟨found, hfound, h⟩ := List.exists_of_findSome?_eq_some h
  obtain ⟨s, hs, h⟩ := Option.map_eq_some_iff.1 h
  obtain ⟨rfl, rfl⟩ := Prod.mk.inj h
  exact ⟨hfound, hs⟩

end PathKind
end LoadReport
