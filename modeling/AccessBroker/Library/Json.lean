import Mathlib.Data.List.Lex
import AccessBroker.Library.Unquote

/-! # `json.loads` and `json.dumps`

The decoder and the encoder of Python's `json` with `sort_keys=True`. A decoded
object keeps its members sorted by key, the last of equal keys winning, so two
objects are equal as dicts when they are equal as lists and the encoder prints
them as they stand. Floats are kept as the text `float.__repr__` gives; the
conversion itself is a parameter.
-/

namespace Json
open Py
set_option autoImplicit false

/-- A `str` by its code points. An escape can put a lone surrogate in one. -/
abbrev Str := List Nat

def codes (text : Text) : Str := text.map Char.toNat

inductive Value where
  | null
  | bool (b : Bool)
  | int (n : Int)
  | float (repr : Text)
  | str (s : Str)
  | arr (items : List Value)
  | obj (members : List (Str × Value))

abbrev Dict := List (Str × Value)

def Value.ofText (text : Text) : Value := .str (codes text)

/-! ## Dictionaries -/

/-- `d[key] = value` on members sorted by key. -/
def Dict.set (key : Str) (value : Value) : Dict → Dict
  | [] => [(key, value)]
  | (key', value') :: rest =>
    if key < key' then (key, value) :: (key', value') :: rest
    else if key = key' then (key, value) :: rest
    else (key', value') :: Dict.set key value rest

def Dict.ofPairs (pairs : List (Str × Value)) : Dict :=
  pairs.foldl (fun dict pair => dict.set pair.1 pair.2) []

def Dict.get? (dict : Dict) (key : Text) : Option Value := dict.lookup (codes key)

def Dict.restrict (keys : List Text) (dict : Dict) : Dict :=
  dict.filter fun member => decide (member.1 ∈ keys.map codes)

/-! ## Encoding -/

def escapeUnit (u : Nat) : Text :=
  ['\\', 'u', (u / 4096).digitChar, (u / 256 % 16).digitChar, (u / 16 % 16).digitChar,
    (u % 16).digitChar]

def highUnit (code : Nat) : Nat := 0xD800 + (code - 0x10000) / 0x400

def lowUnit (code : Nat) : Nat := 0xDC00 + (code - 0x10000) % 0x400

/-- The letters after a backslash that stand for one character each. -/
def simpleEscapes : List (Char × Nat) :=
  [('"', 34), ('\\', 92), ('/', 47), ('b', 8), ('f', 12), ('n', 10), ('r', 13), ('t', 9)]

def escapeCode (code : Nat) : Text :=
  if code = 34 then ['\\', '"']
  else if code = 92 then ['\\', '\\']
  else if 0x20 ≤ code ∧ code ≤ 0x7E then [Char.ofNat code]
  else if code = 8 then ['\\', 'b']
  else if code = 12 then ['\\', 'f']
  else if code = 10 then ['\\', 'n']
  else if code = 13 then ['\\', 'r']
  else if code = 9 then ['\\', 't']
  else if code < 0x10000 then escapeUnit code
  else escapeUnit (highUnit code) ++ escapeUnit (lowUnit code)

def quote (s : Str) : Text := '"' :: (s.flatMap escapeCode ++ ['"'])

def dumpInt (n : Int) : Text :=
  if n < 0 then '-' :: Nat.toDigits 10 n.natAbs else Nat.toDigits 10 n.natAbs

mutual

def dumps : Value → Text
  | .null => "null".toList
  | .bool true => "true".toList
  | .bool false => "false".toList
  | .int n => dumpInt n
  | .float repr => repr
  | .str s => quote s
  | .arr [] => ['[', ']']
  | .arr (item :: items) => '[' :: (dumps item ++ dumpItems items)
  | .obj [] => ['{', '}']
  | .obj ((key, value) :: members) =>
    '{' :: (quote key ++ ':' :: ' ' :: (dumps value ++ dumpMembers members))

def dumpItems : List Value → Text
  | [] => [']']
  | item :: items => ',' :: ' ' :: (dumps item ++ dumpItems items)

def dumpMembers : List (Str × Value) → Text
  | [] => ['}']
  | (key, value) :: members =>
    ',' :: ' ' :: (quote key ++ ':' :: ' ' :: (dumps value ++ dumpMembers members))

end

/-! ## Decoding -/

def isWs (c : Char) : Bool := c = ' ' || c = '\t' || c = '\n' || c = '\r'

def skipWs (text : Text) : Text := text.dropWhile isWs

def hex4 (a b c d : Char) : Option Nat := do
  let w ← hexValue a
  let x ← hexValue b
  let y ← hexValue c
  let z ← hexValue d
  return ((w * 16 + x) * 16 + y) * 16 + z

/-- The text after the opening quote: the code units before the closing one. -/
def scanString : Text → Option (Str × Text)
  | [] => none
  | c :: rest =>
    if c = '"' then some ([], rest)
    else if c = '\\' then
      match rest with
      | [] => none
      | e :: rest =>
        if e = 'u' then
          match rest with
          | w :: x :: y :: z :: rest =>
            match hex4 w x y z with
            | none => none
            | some unit => (scanString rest).map fun scanned => (unit :: scanned.1, scanned.2)
          | _ => none
        else
          match simpleEscapes.lookup e with
          | none => none
          | some unit => (scanString rest).map fun scanned => (unit :: scanned.1, scanned.2)
    -- strict mode: a raw control character ends the attempt
    else if c.toNat < 0x20 then none
    else (scanString rest).map fun scanned => (c.toNat :: scanned.1, scanned.2)

def isHigh (u : Nat) : Bool := 0xD800 ≤ u && u < 0xDC00

def isLow (u : Nat) : Bool := 0xDC00 ≤ u && u < 0xE000

def joinPair (high low : Nat) : Nat := 0x10000 + (high - 0xD800) * 0x400 + (low - 0xDC00)

/-- Surrogate pairs come from escapes alone: a raw character is never a surrogate. -/
def joinSurrogates : Str → Str
  | [] => []
  | [u] => [u]
  | u :: v :: rest =>
    if isHigh u && isLow v then joinPair u v :: joinSurrogates rest
    else u :: joinSurrogates (v :: rest)

def scanSign : Text → Text × Text
  | [] => ([], [])
  | c :: rest => if c = '-' then (['-'], rest) else ([], c :: rest)

def scanWhole : Text → Option (Text × Text)
  | [] => none
  | c :: rest =>
    if c = '0' then some (['0'], rest)
    else if c.isDigit then some (c :: rest.takeWhile Char.isDigit, rest.dropWhile Char.isDigit)
    else none

def scanFraction : Text → Text × Text
  | [] => ([], [])
  | c :: rest =>
    if c = '.' ∧ rest.takeWhile Char.isDigit ≠ [] then
      ('.' :: rest.takeWhile Char.isDigit, rest.dropWhile Char.isDigit)
    else ([], c :: rest)

def scanExponentSign : Text → Text × Text
  | [] => ([], [])
  | c :: rest => if c = '-' ∨ c = '+' then ([c], rest) else ([], c :: rest)

def scanExponent : Text → Text × Text
  | [] => ([], [])
  | c :: rest =>
    let sign := scanExponentSign rest
    if (c = 'e' ∨ c = 'E') ∧ sign.2.takeWhile Char.isDigit ≠ [] then
      (c :: (sign.1 ++ sign.2.takeWhile Char.isDigit), sign.2.dropWhile Char.isDigit)
    else ([], c :: rest)

structure Number where
  sign : Text
  whole : Text
  tail : Text
  deriving DecidableEq

def Number.text (n : Number) : Text := n.sign ++ n.whole ++ n.tail

def scanNumber (text : Text) : Option (Number × Text) :=
  let sign := scanSign text
  match scanWhole sign.2 with
  | none => none
  | some (whole, rest) =>
    let fraction := scanFraction rest
    let exponent := scanExponent fraction.2
    some (⟨sign.1, whole, fraction.1 ++ exponent.1⟩, exponent.2)

def floatConstants : List Text := ["NaN".toList, "Infinity".toList, "-Infinity".toList]

/-- A complete number literal with a fraction or an exponent. -/
def IsFloat (literal : Text) : Prop :=
  ∃ n, scanNumber literal = some (n, []) ∧ n.tail ≠ [] ∧ n.text = literal

/-- `sys.get_int_max_str_digits()`. -/
def maxIntDigits : Nat := 4300

/-- Conversion of a literal to the shortest text of its double, and the integer that
double equals, if it equals one. Doubles are below `2 ^ 1024`. -/
structure FloatFormat where
  repr : Text → Text
  asInt : Text → Option Int
  small : ∀ {literal n}, asInt literal = some n → (Nat.toDigits 10 n.natAbs).length ≤ maxIntDigits
  stable : ∀ literal, repr literal ∈ floatConstants ∨
    (IsFloat (repr literal) ∧ repr (repr literal) = repr literal)

/-- Every literal kept as it stands. -/
def FloatFormat.verbatim : FloatFormat where
  repr literal :=
    match scanNumber literal with
    | some (n, []) => if n.tail ≠ [] ∧ n.text = literal then literal else "NaN".toList
    | _ => "NaN".toList
  asInt _ := none
  small h := by cases h
  stable literal := by
    split
    · rename_i n hScan
      split
      · rename_i hFloat
        refine Or.inr ⟨⟨n, hScan, hFloat.1, hFloat.2⟩, ?_⟩
        rw [hScan]
        exact if_pos hFloat
      · exact Or.inl (by decide)
    · exact Or.inl (by decide)

variable (format : FloatFormat)

def Number.value (n : Number) : Option Value :=
  if n.tail ≠ [] then some (.float (format.repr n.text))
  else if maxIntDigits < n.whole.length then none
  else if n.sign = [] then some (.int (Nat.ofDigitChars 10 n.whole 0))
  else some (.int (-(Nat.ofDigitChars 10 n.whole 0 : Int)))

def scanWord (word : Text) (value : Value) (text : Text) : Option (Value × Text) :=
  if word.isPrefixOf text then some (value, text.drop word.length) else none

def parseNumber (text : Text) : Option (Value × Text) :=
  match scanNumber text with
  | none => none
  | some (n, rest) => (n.value format).map fun value => (value, rest)

/-- A value that starts with `c` and is neither a text, a list nor an object. -/
def parseScalar (c : Char) (text : Text) : Option (Value × Text) :=
  if c = 'n' then scanWord "null".toList .null text
  else if c = 't' then scanWord "true".toList (.bool true) text
  else if c = 'f' then scanWord "false".toList (.bool false) text
  else if c = 'N' then scanWord "NaN".toList (.float "NaN".toList) text
  else if c = 'I' then scanWord "Infinity".toList (.float "Infinity".toList) text
  else (scanWord "-Infinity".toList (.float "-Infinity".toList) text).or (parseNumber format text)

mutual

def parseValue : Nat → Text → Option (Value × Text)
  | 0, _ => none
  | _ + 1, [] => none
  | fuel + 1, c :: rest =>
    if c = '"' then (scanString rest).map fun scanned => (.str (joinSurrogates scanned.1), scanned.2)
    else if c = '[' then
      match skipWs rest with
      | [] => none
      | d :: rest =>
        if d = ']' then some (.arr [], rest)
        else (parseItems fuel (d :: rest)).map fun parsed => (.arr parsed.1, parsed.2)
    else if c = '{' then
      match skipWs rest with
      | [] => none
      | d :: rest =>
        if d = '}' then some (.obj [], rest)
        else (parseMembers fuel (d :: rest)).map fun parsed => (.obj (Dict.ofPairs parsed.1), parsed.2)
    else parseScalar format c (c :: rest)

/-- The items of a list, from the first one to the closing bracket. -/
def parseItems : Nat → Text → Option (List Value × Text)
  | 0, _ => none
  | fuel + 1, text =>
    match parseValue fuel text with
    | none => none
    | some (value, rest) =>
      match skipWs rest with
      | [] => none
      | c :: rest =>
        if c = ']' then some ([value], rest)
        else if c = ',' then
          (parseItems fuel (skipWs rest)).map fun parsed => (value :: parsed.1, parsed.2)
        else none

/-- The members of an object, from the first one to the closing brace. -/
def parseMembers : Nat → Text → Option (List (Str × Value) × Text)
  | 0, _ => none
  | _ + 1, [] => none
  | fuel + 1, c :: rest =>
    if c ≠ '"' then none
    else
      match scanString rest with
      | none => none
      | some (key, rest) =>
        match skipWs rest with
        | [] => none
        | c :: rest =>
          if c ≠ ':' then none
          else
            match parseValue fuel (skipWs rest) with
            | none => none
            | some (value, rest) =>
              match skipWs rest with
              | [] => none
              | c :: rest =>
                if c = '}' then some ([(joinSurrogates key, value)], rest)
                else if c = ',' then
                  (parseMembers fuel (skipWs rest)).map fun parsed =>
                    ((joinSurrogates key, value) :: parsed.1, parsed.2)
                else none

end

/-- `none` where Python raises `ValueError`. -/
def loads (text : Text) : Option Value :=
  if text.head? = some '\uFEFF' then none
  else
    match parseValue format (2 * text.length + 2) (skipWs text) with
    | none => none
    | some (value, rest) => if skipWs rest = [] then some value else none

end Json
