import PolarBear.Py.Value

/-!
# Built-in operations on JSON values and texts

What the modelled code does to a value whose type it never checked: take its
truth value, its length or its text, iterate over it, look for something in it,
split it. A value of the wrong type raises what CPython 2.7 raises.

`strOther j` is `str(j)` for a value that is not a text; the text of a list or
of a dictionary is the interpreter's business and a parameter here.
-/

namespace PolarBear.Py

/-- `j is None` (and `j == None`). -/
def Json.isNull : Json → Bool
  | .null => true
  | _ => false

/-- `bool(j)`. -/
def Json.truthy : Json → Bool
  | .null => false
  | .bool b => b
  | .int n => n != 0
  | .float r => r != "0.0" && r != "-0.0"
  | .str s => s != ""
  | .arr xs => !xs.isEmpty
  | .obj fields => !fields.isEmpty

/-- `j == "s"` for a text `s`. -/
def Json.isText (j : Json) (s : String) : Bool :=
  match j with
  | .str t => t == s
  | _ => false

/-- `j == 0`. -/
def Json.isZero : Json → Bool
  | .bool b => !b
  | .int n => n == 0
  | .float r => r == "0.0" || r == "-0.0"
  | _ => false

/-- `str(j)`, which is also what `'{}'.format(j)` puts in for `{}`. -/
def Json.pyStr (strOther : Json → String) : Json → Except PyError String
  | .str s => if isAscii s then .ok s else .error .encode
  | j => .ok (strOther j)

/-- The type name in an error message. -/
def Json.typeName : Json → String
  | .null => "NoneType"
  | .bool _ => "bool"
  | .int _ => "int"
  | .float _ => "float"
  | .str _ => "unicode"
  | .arr _ => "list"
  | .obj _ => "dict"

/-- An attribute that only texts have. -/
def Json.asText (attr : String) : Json → Except PyError String
  | .str s => .ok s
  | j => .error (.of .attributeError
      ("'" ++ j.typeName ++ "' object has no attribute '" ++ attr ++ "'"))

/-- `for x in j`: the items of a list, the characters of a text, the keys of a
dictionary. -/
def Json.iter : Json → Except PyError (List Json)
  | .arr xs => .ok xs
  | .str s => .ok (s.toList.map (fun c => .str (String.singleton c)))
  | .obj fields => .ok (fields.map (fun kv => .str kv.1))
  | j => .error (.of .typeError ("'" ++ j.typeName ++ "' object is not iterable"))

/-- `len(j)`. -/
def Json.len : Json → Except PyError Nat
  | .arr xs => .ok xs.length
  | .str s => .ok s.length
  | .obj fields => .ok fields.length
  | j => .error (.of .typeError ("object of type '" ++ j.typeName ++ "' has no len()"))

/-- `c in j` for a text of one character. -/
def Json.contains (c : Char) : Json → Except PyError Bool
  | .str s => .ok (s.toList.contains c)
  | .arr xs => .ok (xs.any (fun j => j.isText (String.singleton c)))
  | .obj fields => .ok (fields.any (fun kv => kv.1 == String.singleton c))
  | j => .error (.of .typeError ("argument of type '" ++ j.typeName ++ "' is not iterable"))

/-- `s.split(c)`. -/
def split (c : Char) (s : String) : List String :=
  (s.toList.splitOn c).map String.ofList

/-- `s.split(c, 1)` for an `s` that contains `c`: the text after the first `c`. -/
def afterFirst (c : Char) (s : String) : String :=
  String.ofList ((s.toList.dropWhile (fun d => d != c)).drop 1)

/-- `s.rsplit(c, 1)` for an `s` that contains `c`: what stands before and after
the last `c`. -/
def rsplit (c : Char) (s : String) : String × String :=
  let r := s.toList.reverse
  (String.ofList ((r.dropWhile (fun d => d != c)).drop 1).reverse,
    String.ofList (r.takeWhile (fun d => d != c)).reverse)

/-- `p in s`. -/
def isInText (p s : String) : Bool := s.toList.tails.any (fun t => p.toList.isPrefixOf t)

/-- `s.startswith(p)`. -/
def startsWith (p s : String) : Bool := p.toList.isPrefixOf s.toList

end PolarBear.Py
