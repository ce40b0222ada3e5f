import AccessBroker.Library.Text

/-! # `urllib.parse.unquote`

One pass of percent-decoding: every maximal ASCII run of the text becomes
bytes, `%XX` escapes included, and those bytes are decoded as UTF-8 with
malformed sequences replaced. Characters outside ASCII are kept.
-/

namespace Py
set_option autoImplicit false

def hexValue (c : Char) : Option Nat :=
  let n := c.toNat
  if 0x30 ≤ n ∧ n ≤ 0x39 then some (n - 0x30)
  else if 0x41 ≤ n ∧ n ≤ 0x46 then some (n - 0x37)
  else if 0x61 ≤ n ∧ n ≤ 0x66 then some (n - 0x57)
  else none

def replacement : Char := '\uFFFD'

def isContinuation (b : Nat) : Bool := 0x80 ≤ b && b < 0xC0

/-- The range of the second byte after the lead byte `b`: overlong forms,
surrogates and code points past the last plane are cut off here. -/
def isSecond (b second : Nat) : Bool :=
  if b = 0xE0 then 0xA0 ≤ second && second < 0xC0
  else if b = 0xED then 0x80 ≤ second && second < 0xA0
  else if b = 0xF0 then 0x90 ≤ second && second < 0xC0
  else if b = 0xF4 then 0x80 ≤ second && second < 0x90
  else isContinuation second

/-- `bytes.decode('utf-8', errors='replace')`. A sequence cut short by a wrong byte
is replaced as far as it was well formed, one cut short by the end as a whole. -/
def utf8Decode : List Nat → Text
  | [] => []
  | b :: rest =>
    if b < 0x80 then Char.ofNat b :: utf8Decode rest
    else if b < 0xC2 then replacement :: utf8Decode rest
    else if b < 0xE0 then
      match rest with
      | [] => [replacement]
      | b₁ :: rest₁ =>
        if isContinuation b₁ then
          Char.ofNat ((b - 0xC0) * 64 + (b₁ - 0x80)) :: utf8Decode rest₁
        else replacement :: utf8Decode (b₁ :: rest₁)
    else if b < 0xF0 then
      match rest with
      | [] => [replacement]
      | b₁ :: rest₁ =>
        if isSecond b b₁ then
          match rest₁ with
          | [] => [replacement]
          | b₂ :: rest₂ =>
            if isContinuation b₂ then
              Char.ofNat (((b - 0xE0) * 64 + (b₁ - 0x80)) * 64 + (b₂ - 0x80)) :: utf8Decode rest₂
            else replacement :: utf8Decode (b₂ :: rest₂)
        else replacement :: utf8Decode (b₁ :: rest₁)
    else if b < 0xF5 then
      match rest with
      | [] => [replacement]
      | b₁ :: rest₁ =>
        if isSecond b b₁ then
          match rest₁ with
          | [] => [replacement]
          | b₂ :: rest₂ =>
            if isContinuation b₂ then
              match rest₂ with
              | [] => [replacement]
              | b₃ :: rest₃ =>
                if isContinuation b₃ then
                  Char.ofNat ((((b - 0xF0) * 64 + (b₁ - 0x80)) * 64 + (b₂ - 0x80)) * 64 +
                    (b₃ - 0x80)) :: utf8Decode rest₃
                else replacement :: utf8Decode (b₃ :: rest₃)
            else replacement :: utf8Decode (b₂ :: rest₂)
        else replacement :: utf8Decode (b₁ :: rest₁)
    else replacement :: utf8Decode rest

/-- `pending` holds the bytes of the ASCII run being read, last byte first. -/
def unquoteFrom : List Nat → Text → Text
  | pending, [] => utf8Decode pending.reverse
  | pending, c :: rest =>
    if c = '%' then
      match rest with
      | high :: low :: rest' =>
        match hexValue high, hexValue low with
        | some h, some l => unquoteFrom ((16 * h + l) :: pending) rest'
        | _, _ => unquoteFrom (0x25 :: pending) (high :: low :: rest')
      | short => unquoteFrom (0x25 :: pending) short
    else if c.toNat < 0x80 then unquoteFrom (c.toNat :: pending) rest
    else utf8Decode pending.reverse ++ c :: unquoteFrom [] rest

def unquote (text : Text) : Text := unquoteFrom [] text

example : unquote "%2541%C3%A9%C3%".toList = "%41é\uFFFD%".toList := by decide +kernel

end Py
