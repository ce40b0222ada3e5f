import AccessBroker.Library.Text

/-! # Backtracking regular expressions

The fragment of `re` whose repetitions run over single characters: greedy,
tried longest first, with numbered groups. Matching passes the rest of the
text to a continuation, so a later failure backtracks into earlier choices.
-/

namespace Py
set_option autoImplicit false

inductive Regex where
  | eps
  | char (p : Char → Bool)
  | run (p : Char → Bool) (least : Nat) (most : Option Nat)
  | seq (first second : Regex)
  | alt (first second : Regex)
  | opt (body : Regex)
  | group (number : Nat) (body : Regex)

namespace Regex

/-- The groups set so far; the latest setting of a number stands first. -/
abbrev Groups := List (Nat × Text)

variable {β : Type}

/-- How many leading characters a greedy run can take at most. -/
def runLength (p : Char → Bool) : Option Nat → Text → Nat
  | some 0, _ => 0
  | _, [] => 0
  | some (most + 1), c :: rest => if p c then runLength p (some most) rest + 1 else 0
  | none, c :: rest => if p c then runLength p none rest + 1 else 0

/-- Give back one character at a time, down to `least`. -/
def tryRun (least : Nat) (text : Text) (k : Text → Option β) : Nat → Option β
  | 0 => if least = 0 then k text else none
  | taken + 1 =>
    if least ≤ taken + 1 then (k (text.drop (taken + 1))).or (tryRun least text k taken) else none

def matchThen : Regex → Groups → Text → (Groups → Text → Option β) → Option β
  | eps, groups, text, k => k groups text
  | char _, _, [], _ => none
  | char p, groups, c :: rest, k => if p c then k groups rest else none
  | run p least most, groups, text, k => tryRun least text (k groups) (runLength p most text)
  | seq first second, groups, text, k =>
    first.matchThen groups text fun groups' rest => second.matchThen groups' rest k
  | alt first second, groups, text, k =>
    (first.matchThen groups text k).or (second.matchThen groups text k)
  | opt body, groups, text, k => (body.matchThen groups text k).or (k groups text)
  | group number body, groups, text, k =>
    body.matchThen groups text fun groups' rest =>
      k ((number, text.take (text.length - rest.length)) :: groups') rest

/-- `re.match` of a pattern that ends in `$`, which also accepts a final line feed. -/
def matchLine (r : Regex) (text : Text) : Option Groups :=
  r.matchThen [] text fun groups rest => if rest = [] ∨ rest = ['\n'] then some groups else none

/-- `re.sub` of a pattern that matches no empty text; `skip` characters of a match are still
to be passed over. -/
def substituteFrom (r : Regex) (mark : Text) : Nat → Text → Text
  | _, [] => []
  | skip + 1, _ :: rest => substituteFrom r mark skip rest
  | 0, c :: rest =>
    match r.matchThen [] (c :: rest) fun _ after => some after.length with
    | some left => mark ++ substituteFrom r mark (rest.length - left) rest
    | none => c :: substituteFrom r mark 0 rest

def substitute (r : Regex) (mark text : Text) : Text := substituteFrom r mark 0 text

def sequence : List Regex → Regex
  | [] => eps
  | r :: rest => seq r (sequence rest)

def choice (first : Regex) (others : List Regex) : Regex := others.foldl alt first

def word (same : Char → Char → Bool) (letters : Text) : Regex :=
  sequence (letters.map fun letter => char (same letter))

end Regex

end Py
