import Mathlib.Algebra.Group.Int.Defs
import PolarBear.Lib.Dict

/-!
# Python values the modelled code handles

Two kinds of values cross the code this development is about. `Json` is what
`json.loads` builds and what a request body or a step's parameters consist
of; its dictionaries are association lists (`PolarBear.Dict`). `PyVal` is what
can stand in an exception's `message` or in a report's `out`: text, a byte
string, or some other object of which only `str()` matters.

The interpreter is CPython 2.7, and three of its habits decide claims below:

- `str(u)` encodes a unicode text as ASCII and raises `UnicodeEncodeError` on
  the first character outside it (`Json.str`, `PyVal.str`);
- `int(s)` accepts surrounding blanks, one sign and any Unicode decimal digit
  (`pyInt`), and gives a `long` beyond `sys.maxint`, which is not an instance
  of `int` (`isPyInt`);
- `raise "text"` is itself a `TypeError`.

A float is kept as its decimal text: no modelled function computes with one.
-/

namespace PolarBear.Py

/-- A value as `json.loads` builds it. -/
inductive Json where
  | null
  | bool (b : Bool)
  | int (n : Int)
  | float (repr : String)
  | str (s : String)
  | arr (xs : List Json)
  | obj (fields : List (String × Json))
  deriving Repr

/-- A Python object of which the code only takes `str()`: unicode text, a byte
string, or another object with the result of its `__str__` (`none`: it
raises). -/
inductive PyVal where
  | unicode (s : String)
  | bytes (s : String)
  | object (str : Option String)
  deriving DecidableEq, Repr

/-- The classes of the exceptions that Python itself raises in the modelled
code; `apiError` is `docker.errors.APIError`, and `external` any other
exception of a library or a tool. -/
inductive ExcClass where
  | keyError
  | typeError
  | valueError
  | indexError
  | attributeError
  | zeroDivisionError
  | overflowError
  | unboundLocalError
  | unicodeEncodeError
  | apiError
  | invalid
  | httpBadRequest
  | external
  deriving DecidableEq, Repr

/-- A raised exception: its class and its Python 2 `message` attribute. -/
structure PyError where
  cls : ExcClass
  message : PyVal
  deriving DecidableEq, Repr

/-- An exception built with one byte-string argument, which becomes its
`message`. -/
def PyError.of (cls : ExcClass) (msg : String) : PyError := ⟨cls, .bytes msg⟩

/-- `KeyError(key)`: the message is the key itself. -/
def PyError.key (k : String) : PyError := ⟨.keyError, .unicode k⟩

/-- `raise "text"`: a text is not an exception. -/
def PyError.raisedText : PyError :=
  .of .typeError "exceptions must be old-style classes or derived from BaseException, not str"

/-- `UnicodeEncodeError` takes five arguments, so its `message` is empty. -/
def PyError.encode : PyError := .of .unicodeEncodeError ""

/-! ## `str()` -/

/-- Only ASCII characters: what Python 2 can encode implicitly. -/
def isAscii (s : String) : Bool := s.toList.all (fun c => c.toNat < 128)

/-- `str(v)`. -/
def PyVal.str : PyVal → Except PyError String
  | .unicode s => if isAscii s then .ok s else .error .encode
  | .bytes s => .ok s
  | .object (some s) => .ok s
  | .object none => .error (.of .external "")

/-- `str(v)` gives a text. -/
def PyVal.strOk (v : PyVal) : Prop := ∃ s, v.str = .ok s

/-- `str(v)` for a JSON value: unicode text must be ASCII, every other value
has a byte-string form, which no modelled function looks at. -/
def Json.checkStr : Json → Except PyError Unit
  | .str s => if isAscii s then .ok () else .error .encode
  | _ => .ok ()

/-! ## Item access -/

/-- `j[k]` with a text key. -/
def Json.getItem (j : Json) (k : String) : Except PyError Json :=
  match j with
  | .obj fields =>
    match fields.lookup k with
    | some v => .ok v
    | none => .error (.key k)
  | .arr _ => .error (.of .typeError "list indices must be integers, not unicode")
  | .str _ => .error (.of .typeError "string indices must be integers")
  | .null => .error (.of .typeError "'NoneType' object has no attribute '__getitem__'")
  | .bool _ => .error (.of .typeError "'bool' object has no attribute '__getitem__'")
  | .int _ => .error (.of .typeError "'int' object has no attribute '__getitem__'")
  | .float _ => .error (.of .typeError "'float' object has no attribute '__getitem__'")

/-- `j[k] = v` with a text key: only a dictionary takes it. -/
def Json.setItem (j : Json) (k : String) (v : Json) : Except PyError Json :=
  match j with
  | .obj fields => .ok (.obj (Dict.set k v fields))
  | .arr _ => .error (.of .typeError "list indices must be integers, not unicode")
  | .str _ => .error (.of .typeError "'unicode' object does not support item assignment")
  | .null => .error (.of .typeError "'NoneType' object does not support item assignment")
  | .bool _ => .error (.of .typeError "'bool' object does not support item assignment")
  | .int _ => .error (.of .typeError "'int' object does not support item assignment")
  | .float _ => .error (.of .typeError "'float' object does not support item assignment")

/-- `isinstance(j, dict)`. -/
def Json.isDict : Json → Bool
  | .obj _ => true
  | _ => false

/-- `j.get(k, None)` on a dictionary of parameters. -/
def getParam (params : List (String × Json)) (k : String) : Json :=
  (params.lookup k).getD .null

/-- The entry `j[a][b]`, if there is one. -/
def Json.entry (j : Json) (a b : String) : Option Json :=
  match j with
  | .obj fields =>
    match fields.lookup a with
    | some (.obj inner) => inner.lookup b
    | _ => none
  | _ => none

theorem Json.getItem_ok {j v : Json} {k : String} (h : j.getItem k = .ok v) :
    ∃ fields, j = .obj fields ∧ fields.lookup k = some v := by
  cases j with
  | obj fields =>
    refine ⟨fields, rfl, ?_⟩
    unfold Json.getItem at h
    cases hl : fields.lookup k with
    | none => simp [hl] at h
    | some w => simp only [hl, Except.ok.injEq] at h; rw [h]
  | _ => simp [Json.getItem] at h

theorem Json.setItem_ok {j j' v : Json} {k : String} (h : j.setItem k v = .ok j') :
    ∃ fields, j = .obj fields ∧ j' = .obj (Dict.set k v fields) := by
  cases j with
  | obj fields => exact ⟨fields, rfl, by simpa [Json.setItem] using h.symm⟩
  | _ => simp [Json.setItem] at h

/-! ## `int()` -/

/-- `unicode.isspace` for one character. -/
def isPySpace (c : Char) : Bool :=
  let n := c.toNat
  (0x9 ≤ n && n ≤ 0xD) || (0x1C ≤ n && n ≤ 0x20) || n == 0x85 || n == 0xA0 || n == 0x1680
    || n == 0x180E || (0x2000 ≤ n && n ≤ 0x200A) || n == 0x2028 || n == 0x2029 || n == 0x202F
    || n == 0x205F || n == 0x3000

/-- The first code points of the runs of ten decimal digits (ASCII first). -/
def decimalZeros : List Nat :=
  [0x30, 0x660, 0x6F0, 0x7C0, 0x966, 0x9E6, 0xA66, 0xAE6, 0xB66, 0xBE6, 0xC66, 0xCE6, 0xD66,
   0xE50, 0xED0, 0xF20, 0x1040, 0x1090, 0x17E0, 0x1810, 0x1946, 0x19D0, 0x1A80, 0x1A90, 0x1B50,
   0x1BB0, 0x1C40, 0x1C50, 0xA620, 0xA8D0, 0xA900, 0xA9D0, 0xAA50, 0xABF0, 0xFF10, 0x104A0,
   0x1D7CE, 0x1D7D8, 0x1D7E2, 0x1D7EC, 0x1D7F6]

/-- The value of a decimal digit character. -/
def decimalValue (c : Char) : Option Nat :=
  (decimalZeros.find? (fun z => z ≤ c.toNat && c.toNat < z + 10)).map (fun z => c.toNat - z)

/-- The digits after those that gave `acc`. -/
def digitsFrom (acc : Nat) : List Char → Option Nat
  | [] => some acc
  | c :: cs =>
    match decimalValue c with
    | some d => digitsFrom (10 * acc + d) cs
    | none => none

/-- An unsigned decimal number: at least one digit and nothing else. -/
def unsigned : List Char → Option Nat
  | [] => none
  | cs => digitsFrom 0 cs

/-- `int(s)` on a unicode text; `none` stands for its `ValueError`. -/
def pyInt (s : String) : Option Int :=
  match ((s.toList.dropWhile isPySpace).reverse.dropWhile isPySpace).reverse with
  | '-' :: cs => (unsigned cs).map (fun n => -(n : Int))
  | '+' :: cs => (unsigned cs).map (fun n => (n : Int))
  | cs => (unsigned cs).map (fun n => (n : Int))

/-- `sys.maxint` of a 64-bit build. -/
def sysMaxint : Int := 2 ^ 63 - 1

/-- `isinstance(n, (int,))` for the result of `int()`: a number outside the
machine range is a `long`, not an `int`. -/
def isPyInt (n : Int) : Bool := decide (-sysMaxint - 1 ≤ n ∧ n ≤ sysMaxint)

/-- A non-empty string of ASCII digits. -/
def isDecimal (s : String) : Prop :=
  s.toList ≠ [] ∧ ∀ c ∈ s.toList, '0' ≤ c ∧ c ≤ '9'

end PolarBear.Py
