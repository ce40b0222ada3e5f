import AccessBroker.Library.Json
import AccessBroker.Library.Regex

/-! # Typed replies

`parse_reply`: what the approver can type into the room. The pattern ignores
case the way `re` does, which lets four letters outside ASCII stand for `i`,
`k` and `s`.
-/

namespace AccessBroker.MatrixBot
open Py
set_option autoImplicit false

/-- A parsed reply; a decision keeps the action word as it was typed, lowered. -/
inductive Parsed where
  | status
  | revokeAll
  | revokeInstance (name : Text)
  | undo (rid : Nat)
  | decision (action : Text) (rid : Nat) (itemNumbers : Option (List Nat)) (expiry : Option Text)
  deriving DecidableEq

inductive NumberError where
  | invalidLiteral (text : Text)
  | tooManyDigits (count : Nat)
  deriving DecidableEq

/-- The ASCII letter a character matches when case is ignored. -/
def foldLetter (c : Char) : Char :=
  if 'A' ≤ c ∧ c ≤ 'Z' then Char.ofNat (c.toNat + 32)
  else if c.toNat = 0x130 ∨ c.toNat = 0x131 then 'i'
  else if c.toNat = 0x17F then 's'
  else if c.toNat = 0x212A then 'k'
  else c

def sameLetter (letter c : Char) : Bool := foldLetter c == letter

def isLetter (c : Char) : Bool := 'a' ≤ foldLetter c && foldLetter c ≤ 'z'

def isDigit (c : Char) : Bool := '0' ≤ c && c ≤ '9'

def isTargetChar (c : Char) : Bool := isLetter c || isDigit c || c == '_' || c == '-'

/-- `str.lower` on the characters the pattern can match. -/
def lowerMatched (text : Text) : Text :=
  text.flatMap fun c =>
    if c.toNat = 0x130 then ['i', Char.ofNat 0x307]
    else if 'A' ≤ c ∧ c ≤ 'Z' ∨ c.toNat = 0x212A then [foldLetter c]
    else [c]

def commandWord (letters : String) : Regex := .word sameLetter letters.toList

def replyRe : Regex := .sequence [
  .group 1 (.choice (commandWord "approve") [commandWord "reject", commandWord "revoke",
    commandWord "undo", commandWord "status"]),
  .run isSpace 0 none,
  .opt (.group 2 (.alt (.run isDecimal 1 none)
    (.seq (.char fun c => isLetter c || c == '_') (.run isTargetChar 0 none)))),
  .opt (.seq (.run isSpace 1 none) (.group 3 (.run (fun c => isDecimal c || c == ',') 1 none))),
  .opt (.seq (.run isSpace 1 none) (.group 4 (.seq (.run isDecimal 1 (some 3))
    (.char fun c => sameLetter 'h' c || sameLetter 'm' c || sameLetter 'd' c))))]

def revokeTargetRe : Regex := .sequence [
  commandWord "revoke",
  .run isSpace 1 none,
  .group 1 (.alt (commandWord "all")
    (.group 2 (.seq (.char fun c => isLetter c || isDigit c) (.run isTargetChar 0 none))))]

def readInt (digits : Text) : Except NumberError Nat :=
  if digits = [] then .error (.invalidLiteral digits)
  else if Json.maxIntDigits < digits.length then .error (.tooManyDigits digits.length)
  else .ok (decimalNumber digits)

def readItemNumbers (items : Option Text) : Except NumberError (Option (List Nat)) :=
  match items with
  | none => .ok none
  | some items => do return some (← (items.splitOn ',').mapM readInt)

def parseRevokeTarget (text : Text) : Option Parsed :=
  (revokeTargetRe.matchLine text).map fun groups =>
    let target := lowerMatched ((groups.lookup 1).getD [])
    if target = "all".toList then .revokeAll else .revokeInstance target

def parseReply (text : Text) : Except NumberError (Option Parsed) :=
  match replyRe.matchLine (strip text) with
  | none => .ok none
  | some groups =>
    let action := lowerMatched ((groups.lookup 1).getD [])
    if action = "status".toList then .ok (some .status)
    else
      match groups.lookup 2 with
      | none => .ok none
      | some number =>
        -- the second group is either a run of decimals or starts with a letter or `_`
        if !number.all isDecimal then
          if action = "revoke".toList then .ok (parseRevokeTarget (strip text)) else .ok none
        else do
          let rid ← readInt number
          if rid = 0 then return none
          else if action = "undo".toList then return some (.undo rid)
          else
            let itemNumbers ← readItemNumbers (groups.lookup 3)
            if itemNumbers.any (·.any (· = 0)) then return none
            else return some (.decision action rid itemNumbers (groups.lookup 4))

example : parseReply "Approve 3  1,2 8h".toList =
    .ok (some (.decision "approve".toList 3 (some [1, 2]) (some "8h".toList))) := by decide +kernel

end AccessBroker.MatrixBot
