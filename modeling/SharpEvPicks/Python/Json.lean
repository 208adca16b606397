import SharpEvPicks.Python.Str

/-! What `json.loads` returns, and the numbers that `int`, `float` and `Decimal` make of it. -/
namespace Python

/-- A `float` or a `Decimal`: the finite ones by their values. -/
inductive PyFloat where
  | finite (value : ℚ)
  | inf (negative : Bool)
  | nan
  deriving DecidableEq

inductive Json where
  | null
  | bool (b : Bool)
  | int (n : Int)
  | float (x : PyFloat)
  | str (s : Str)
  | arr (items : List Json)
  | obj (members : List (Str × Json))

/-- The members of an object in the order of the text; of equal names the last one counts. -/
abbrev Members := List (Str × Json)

/-- `d.get(name)`. -/
def Members.get (members : Members) (name : Str) : Json :=
  ((members.reverse.find? fun m => m.1 = name).map Prod.snd).getD .null

/-- The exceptions that the callers tell apart: `TypeError` and `ValueError`, or `OverflowError`. -/
inductive NumberFault where
  | unread | overflow
  deriving DecidableEq

inductive LoadFault where
  /-- `JSONDecodeError`. -/
  | notJson
  /-- Another `ValueError`: too long an integer. -/
  | unread
  /-- Another exception: too deep a nesting. -/
  | raised
  deriving DecidableEq

/-- A `datetime` by the microseconds that its fields count from 1970, and its offset if it has one.
-/
structure IsoTime where
  fields : Int
  offset : Option Int

/-- What the interpreter reads off a text and how it prints; `none` stands for a `ValueError`. -/
class Readers where
  loads : Str → Except LoadFault Json
  int : Str → Option Int
  float : Str → Option PyFloat
  decimal : Str → Option PyFloat
  /-- The shortest decimal that rounds to a finite `float`, the value of its `str`. -/
  shortest : ℚ → ℚ
  /-- The `float` nearest to an integer in range. -/
  nearest : Int → ℚ
  /-- `str(v)` of what is not a string. -/
  str : Json → Str
  fromisoformat : Str → Option IsoTime
  /-- `datetime.fromtimestamp(v / 1000.0, tz=UTC)` of a number. -/
  fromtimestamp : Json → Option Int

namespace Json

def truthy : Json → Bool
  | null => false
  | bool b => b
  | int n => n ≠ 0
  | float x => x ≠ .finite 0
  | str s => s ≠ []
  | arr items => !items.isEmpty
  | obj members => !members.isEmpty

/-- `v is True`. -/
def isTrue : Json → Bool
  | bool b => b
  | _ => false

/-- `v == s`. -/
def isStr (s : Str) : Json → Bool
  | str t => t = s
  | _ => false

def asStr : Json → Option Str
  | str s => some s
  | _ => none

/-- `isinstance(v, int)`, with the value as a key: `True` is the key `1`. -/
def asInt : Json → Option Int
  | int n => some n
  | bool b => some b.toNat
  | _ => none

def asArr : Json → Option (List Json)
  | arr items => some items
  | _ => none

def asObj : Json → Option Members
  | obj members => some members
  | _ => none

variable [Readers]

def toStr : Json → Str
  | str s => s
  | v => Readers.str v

/-- `int(v)`. -/
def toInt : Json → Except NumberFault Int
  | bool b => .ok b.toNat
  | int n => .ok n
  | float (.finite x) => .ok (x.num.tdiv x.den)
  | float (.inf _) => .error .overflow
  | str s => match Readers.int s with
    | some n => .ok n
    | none => .error .unread
  | _ => .error .unread

/-- Integers from here on are infinite as a `float`. -/
def floatLimit : Nat := 2 ^ 1024 - 2 ^ 970

/-- `float(v)`. -/
def toFloat : Json → Except NumberFault PyFloat
  | bool b => .ok (.finite b.toNat)
  | int n => if n.natAbs < floatLimit then .ok (.finite (Readers.nearest n)) else .error .overflow
  | float x => .ok x
  | str s => match Readers.float s with
    | some x => .ok x
    | none => .error .unread
  | _ => .error .unread

/-- `Decimal(str(v))`. -/
def decimalOf : Json → Option PyFloat
  | int n => some (.finite n)
  | float (.finite x) => some (.finite (Readers.shortest x))
  | float x => some x
  | str s => Readers.decimal s
  | _ => none

end Json
end Python
