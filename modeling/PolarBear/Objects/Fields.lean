import PolarBear.Py.Builtins

/-!
# Fields of versioned objects

Assigning to a field coerces the value: `None` to what the field makes of it, any other value
to the type of the field. The values here are those that JSON text can hold.

`int` of a float and the text of what is no text are parameters.
-/

namespace PolarBear.Objects

open PolarBear.Py

variable {α : Type}

/-- `int(f)` of a float, and `unicode(v)` of a value that is no text. -/
structure Conversions where
  floatInt : String → Option Int
  strOther : Json → String

/-- `Field._null` of a field that is not nullable and has no default. -/
def cannotBeNone (attr : String) : PyError :=
  .of .valueError ("Field `" ++ attr ++ "' cannot be None")

/-- `Field.coerce` of a field that is not nullable. -/
def required (attr : String) (coerce : Json → Except PyError α) : Json → Except PyError α
  | .null => .error (cannotBeNone attr)
  | v => coerce v

/-- `Field.coerce` of a nullable field. -/
def nullable (coerce : Json → Except PyError α) : Json → Except PyError (Option α)
  | .null => .ok none
  | v => do
    let a ← coerce v
    .ok (some a)

variable (conv : Conversions)

/-- `Integer.coerce`, which is `int`. -/
def coerceInteger : Json → Except PyError Int
  | .int n => .ok n
  | .bool b => .ok (if b then 1 else 0)
  | .float r =>
    match conv.floatInt r with
    | some n => .ok n
    | none => .error (.of .overflowError ("cannot convert float " ++ r ++ " to integer"))
  | .str s =>
    match pyInt s with
    | some n => .ok n
    | none => .error (.of .valueError ("invalid literal for int() with base 10: " ++ s))
  | v => .error (.of .typeError
      ("int() argument must be a string or a number, not '" ++ v.typeName ++ "'"))

def isString : Json → Bool
  | .bool _ | .int _ | .float _ | .str _ => true
  | _ => false

/-- `String.coerce`: a bool is an integer, and numbers become texts. -/
def coerceString (attr : String) (v : Json) : Except PyError String :=
  match v with
  | .str s => .ok s
  | v =>
    if isString v then .ok (conv.strOther v)
    else .error (.of .valueError
      ("A string is required in field " ++ attr ++ ", not a " ++ v.typeName))

end PolarBear.Objects
