import Mathlib.Data.Nat.Digits.Lemmas
import PolarBear.Py.Tree

/-!
# `json.dumps` and `json.loads`

The text forms of a JSON value, with the settings the modelled code uses: ASCII
output, `", "` and `": "` as separators. `loads` reads what CPython's decoder
reads: blanks between tokens, every escape, numbers with fraction and exponent,
and the later one of two entries with a key.

`Json.size` is the length of the text, as a sum over the value.

The text `float.__repr__` gives for a number that was read is a parameter. A
surrogate without its partner, which Python keeps and a text cannot hold here, is
read as U+FFFD.
-/

namespace PolarBear.Py

/-! ## Writing -/

/-- The digits of `hex`. -/
def hexDigit (d : Nat) : Char := if d < 10 then Char.ofNat (48 + d) else Char.ofNat (87 + d)

/-- `'{0:04x}'.format(n)`. -/
def hex4 (n : Nat) : List Char :=
  [hexDigit (n / 4096 % 16), hexDigit (n / 256 % 16), hexDigit (n / 16 % 16), hexDigit (n % 16)]

/-- `ESCAPE_DCT`: the characters with an escape of one letter. -/
def escapeLetters : List (Char × Char) :=
  [('"', '"'), ('\\', '\\'), (Char.ofNat 10, 'n'), (Char.ofNat 13, 'r'), (Char.ofNat 9, 't'),
    (Char.ofNat 12, 'f'), (Char.ofNat 8, 'b')]

/-- `\uXXXX`. -/
def escapeUnit (n : Nat) : List Char := '\\' :: 'u' :: hex4 n

/-- A character as `encode_basestring_ascii` writes it. -/
def escape (c : Char) : List Char :=
  match escapeLetters.lookup c with
  | some letter => ['\\', letter]
  | none =>
    if 32 ≤ c.toNat ∧ c.toNat ≤ 126 then [c]
    else if c.toNat < 0x10000 then escapeUnit c.toNat
    else escapeUnit (0xD800 + (c.toNat - 0x10000) / 1024) ++
      escapeUnit (0xDC00 + (c.toNat - 0x10000) % 1024)

/-- A text with its quotes. -/
def quoted (s : String) : List Char := '"' :: (s.toList.flatMap escape ++ ['"'])

/-- `str(n)` of a natural number. -/
def natText (n : Nat) : List Char :=
  if n = 0 then ['0'] else ((Nat.digits 10 n).map hexDigit).reverse

/-- `str(n)`. -/
def intText : Int → List Char
  | .ofNat n => natText n
  | .negSucc n => '-' :: natText (n + 1)

/-- `floatstr`: the words for what is not a number. -/
def floatChars (repr : String) : List Char :=
  if repr = "nan" then "NaN".toList
  else if repr = "inf" then "Infinity".toList
  else if repr = "-inf" then "-Infinity".toList
  else repr.toList

mutual

/-- `json.dumps`, as characters. -/
def dumpsChars : Json → List Char
  | .null => "null".toList
  | .bool true => "true".toList
  | .bool false => "false".toList
  | .int n => intText n
  | .float repr => floatChars repr
  | .str s => quoted s
  | .arr [] => ['[', ']']
  | .arr (x :: xs) => '[' :: (dumpsChars x ++ itemsChars xs)
  | .obj [] => ['{', '}']
  | .obj ((k, x) :: fields) =>
    '{' :: (quoted k ++ ':' :: ' ' :: (dumpsChars x ++ fieldsChars fields))

/-- The items after the first, and the bracket. -/
def itemsChars : List Json → List Char
  | [] => [']']
  | x :: xs => ',' :: ' ' :: (dumpsChars x ++ itemsChars xs)

/-- The entries after the first, and the brace. -/
def fieldsChars : List (String × Json) → List Char
  | [] => ['}']
  | (k, x) :: fields =>
    ',' :: ' ' :: (quoted k ++ ':' :: ' ' :: (dumpsChars x ++ fieldsChars fields))

end

/-- `json.dumps`. -/
def dumps (j : Json) : String := String.ofList (dumpsChars j)

/-! ## The length of the text -/

/-- The characters a character takes. -/
def escapedLength (c : Char) : Nat :=
  if (escapeLetters.lookup c).isSome then 2
  else if 32 ≤ c.toNat ∧ c.toNat ≤ 126 then 1
  else if c.toNat < 0x10000 then 6
  else 12

/-- A text with its quotes. -/
def quotedLength (s : String) : Nat := 2 + (s.toList.map escapedLength).sum

def natLength (n : Nat) : Nat := if n = 0 then 1 else (Nat.digits 10 n).length

def intLength : Int → Nat
  | .ofNat n => natLength n
  | .negSucc n => natLength (n + 1) + 1

mutual

/-- The length of `json.dumps`: every item takes its separator with it, the
first one the brackets. -/
def Json.size : Json → Nat
  | .null => 4
  | .bool true => 4
  | .bool false => 5
  | .int n => intLength n
  | .float repr => (floatChars repr).length
  | .str s => quotedLength s
  | .arr xs => if xs.isEmpty then 2 else itemsSize xs
  | .obj fields => if fields.isEmpty then 2 else fieldsSize fields

def itemsSize : List Json → Nat
  | [] => 0
  | x :: xs => x.size + 2 + itemsSize xs

def fieldsSize : List (String × Json) → Nat
  | [] => 0
  | (k, x) :: fields => quotedLength k + x.size + 4 + fieldsSize fields

end

/-! ## Reading -/

/-- The blanks between tokens. -/
def skipBlanks (cs : List Char) : List Char :=
  cs.dropWhile (fun c => c == ' ' || c == Char.ofNat 9 || c == Char.ofNat 10 || c == Char.ofNat 13)

/-- The value of a hexadecimal digit. -/
def hexValue (c : Char) : Option Nat :=
  if 48 ≤ c.toNat ∧ c.toNat ≤ 57 then some (c.toNat - 48)
  else if 97 ≤ c.toNat ∧ c.toNat ≤ 102 then some (c.toNat - 87)
  else if 65 ≤ c.toNat ∧ c.toNat ≤ 70 then some (c.toNat - 55)
  else none

/-- The four digits of `\uXXXX`. -/
def readHex4 : List Char → Option (Nat × List Char)
  | a :: b :: c :: d :: rest => do
    let a ← hexValue a
    let b ← hexValue b
    let c ← hexValue c
    let d ← hexValue d
    some (a * 4096 + b * 256 + c * 16 + d, rest)
  | _ => none

/-- A character from its code point; half a surrogate pair is none. -/
def codePoint (n : Nat) : Char :=
  if 0xD800 ≤ n ∧ n ≤ 0xDFFF then Char.ofNat 0xFFFD else Char.ofNat n

/-- After `\u`: one unit, or the two of a surrogate pair. -/
def readUnit (cs : List Char) : Option (Char × List Char) := do
  let (n, rest) ← readHex4 cs
  if 0xD800 ≤ n ∧ n ≤ 0xDBFF then
    match rest with
    | '\\' :: 'u' :: rest' =>
      let (m, rest'') ← readHex4 rest'
      if 0xDC00 ≤ m ∧ m ≤ 0xDFFF then
        some (Char.ofNat (0x10000 + (n - 0xD800) * 1024 + (m - 0xDC00)), rest'')
      else some (codePoint n, rest)
    | _ => some (codePoint n, rest)
  else some (codePoint n, rest)

/-- `BACKSLASH`: what a letter after a backslash stands for. -/
def backslash : List (Char × Char) :=
  [('"', '"'), ('\\', '\\'), ('/', '/'), ('n', Char.ofNat 10), ('r', Char.ofNat 13),
    ('t', Char.ofNat 9), ('f', Char.ofNat 12), ('b', Char.ofNat 8)]

/-- One character of a text, before its closing quote; a control character is
refused. -/
def scanChar : List Char → Option (Char × List Char)
  | [] => none
  | c :: rest =>
    if c = '\\' then
      match rest with
      | [] => none
      | letter :: rest =>
        if letter = 'u' then readUnit rest
        else (backslash.lookup letter).map (fun c => (c, rest))
    else if c.toNat < 32 then none
    else some (c, rest)

/-- `scanstring`, after the opening quote. A character takes at least one of the
text, so its length is enough fuel. -/
def scanString : Nat → List Char → Option (List Char × List Char)
  | 0, _ => none
  | fuel + 1, cs =>
    match cs with
    | '"' :: rest => some ([], rest)
    | _ => do
      let (c, rest) ← scanChar cs
      let (s, rest) ← scanString fuel rest
      some (c :: s, rest)

def isDigit (c : Char) : Bool := decide (48 ≤ c.toNat ∧ c.toNat ≤ 57)

/-- `int(digits)`. -/
def decimal (ds : List Char) : Nat := ds.foldl (fun n c => 10 * n + (c.toNat - 48)) 0

/-- `(0|[1-9]\d*)`. -/
def scanDigits : List Char → List Char × List Char
  | '0' :: rest => (['0'], rest)
  | cs => cs.span isDigit

/-- `(\.\d+)?`. -/
def scanFraction : List Char → List Char × List Char
  | '.' :: rest => if (rest.span isDigit).1 = [] then ([], '.' :: rest)
      else ('.' :: (rest.span isDigit).1, (rest.span isDigit).2)
  | cs => ([], cs)

/-- The sign of an exponent. -/
def scanSign : List Char → List Char × List Char
  | '+' :: rest => (['+'], rest)
  | '-' :: rest => (['-'], rest)
  | cs => ([], cs)

/-- `([eE][-+]?\d+)?`. -/
def scanExponent : List Char → List Char × List Char
  | [] => ([], [])
  | c :: rest =>
    if c = 'e' ∨ c = 'E' then
      let (sign, rest') := scanSign rest
      if (rest'.span isDigit).1 = [] then ([], c :: rest)
      else (c :: (sign ++ (rest'.span isDigit).1), (rest'.span isDigit).2)
    else ([], c :: rest)

/-- The sign of a number. -/
def scanMinus : List Char → Bool × List Char
  | '-' :: rest => (true, rest)
  | cs => (false, cs)

variable (floatRepr : String → String)

/-- `_match_number`. -/
def scanNumber (cs : List Char) : Option (Json × List Char) :=
  let (minus, cs) := scanMinus cs
  let (digits, cs) := scanDigits cs
  if digits = [] then none
  else
    let (fraction, cs) := scanFraction cs
    let (exponent, cs) := scanExponent cs
    if fraction = [] ∧ exponent = [] then
      some (.int (if minus then -(decimal digits : Int) else decimal digits), cs)
    else
      let text := (if minus then ['-'] else []) ++ digits ++ fraction ++ exponent
      some (.float (floatRepr (String.ofList text)), cs)

/-- The words of the decoder. -/
def words : List (List Char × Json) :=
  [("null".toList, .null), ("true".toList, .bool true), ("false".toList, .bool false),
    ("NaN".toList, .float "nan"), ("Infinity".toList, .float "inf"),
    ("-Infinity".toList, .float "-inf")]

/-- A word, or a number. -/
def scanWord (cs : List Char) : Option (Json × List Char) :=
  match words.find? (fun w => w.1.isPrefixOf cs) with
  | some (w, j) => some (j, cs.drop w.length)
  | none => scanNumber floatRepr cs

/-- A token that must come next. -/
def expect (c : Char) : List Char → Option (List Char)
  | [] => none
  | d :: rest => if d = c then some rest else none

mutual

/-- `scan_once`. -/
def scanOnce : Nat → List Char → Option (Json × List Char)
  | 0, _ => none
  | _ + 1, [] => none
  | fuel + 1, c :: rest =>
    if c = '"' then (scanString (rest.length + 1) rest).map
      (fun s => (.str (String.ofList s.1), s.2))
    else if c = '[' then
      match expect ']' (skipBlanks rest) with
      | some rest' => some (.arr [], rest')
      | none => scanItems fuel [] (skipBlanks rest)
    else if c = '{' then
      match expect '}' (skipBlanks rest) with
      | some rest' => some (.obj [], rest')
      | none => scanFields fuel [] (skipBlanks rest)
    else scanWord floatRepr (c :: rest)

/-- `JSONArray`, at an item. -/
def scanItems : Nat → List Json → List Char → Option (Json × List Char)
  | 0, _, _ => none
  | fuel + 1, xs, cs => do
    let (x, rest) ← scanOnce fuel cs
    match expect ']' (skipBlanks rest) with
    | some rest => some (.arr (xs ++ [x]), rest)
    | none => do
      let rest ← expect ',' (skipBlanks rest)
      scanItems fuel (xs ++ [x]) (skipBlanks rest)

/-- `JSONObject`, at a key. -/
def scanFields : Nat → List (String × Json) → List Char → Option (Json × List Char)
  | 0, _, _ => none
  | fuel + 1, fields, cs => do
    let rest ← expect '"' cs
    let (k, rest) ← scanString (rest.length + 1) rest
    let rest ← expect ':' (skipBlanks rest)
    let (x, rest) ← scanOnce fuel (skipBlanks rest)
    match expect '}' (skipBlanks rest) with
    | some rest => some (.obj (Dict.set (String.ofList k) x fields), rest)
    | none => do
      let rest ← expect ',' (skipBlanks rest)
      scanFields fuel (Dict.set (String.ofList k) x fields) (skipBlanks rest)

end

/-- `json.loads`; `none` is its `ValueError`. -/
def loads (s : String) : Option Json := do
  let (j, rest) ← scanOnce floatRepr (s.toList.length + 1) (skipBlanks s.toList)
  if skipBlanks rest = [] then some j else none

end PolarBear.Py
