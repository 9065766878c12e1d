/-!
# `SmallLisp.Host`: what the host fails with

The language has faults of its own, and the host that runs it has others (`HostFault`). Those of the
host are no faults of the language: who handles the faults of a source text does not catch them.
-/

namespace SmallLisp

/-- The most digits of an integer that the host converts to a text, or from one. -/
def maxIntegerDigits : Nat := 4300

/-- What the host fails with. -/
inductive HostFault
  | tooDeep
  | integerTooLarge
  | integerTooLong
  | unhashableList
  | noToken
  | unwritable (why : String)
  deriving DecidableEq, Repr

/-- The fault in words. -/
def HostFault.message : HostFault → String
  | .tooDeep => "maximum recursion depth exceeded"
  | .integerTooLarge => "int too large to convert to float"
  | .integerTooLong =>
    s!"Exceeds the limit ({maxIntegerDigits} digits) for integer string conversion; " ++
      "use sys.set_int_max_str_digits() to increase the limit"
  | .unhashableList => "unhashable type: 'list'"
  | .noToken => "pop from an empty deque"
  | .unwritable why => why

/-- The kinds of fault that the host tells apart. -/
inductive HostFault.Kind
  | recursion
  | overflow
  | value
  | type
  | index
  | encoding
  deriving DecidableEq, Repr

/-- The kind of a fault. -/
def HostFault.kind : HostFault → HostFault.Kind
  | .tooDeep => .recursion
  | .integerTooLarge => .overflow
  | .integerTooLong => .value
  | .unhashableList => .type
  | .noToken => .index
  | .unwritable _ => .encoding

end SmallLisp
