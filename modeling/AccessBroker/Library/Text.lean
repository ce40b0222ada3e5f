import Mathlib.Data.List.TakeWhile

/-! # Python text

A `str` is the list of its code points. The character classes are those of
`str.isspace`, `str.splitlines` and the decimal digits that `\d` matches and
`int` reads.
-/

namespace Py
set_option autoImplicit false

abbrev Text := List Char

instance (text : Text) (texts : List Text) : Decidable (text ∈ texts) :=
  List.instDecidableMemOfLawfulBEq text texts

def isSpace (c : Char) : Bool :=
  let n := c.toNat
  (9 ≤ n && n ≤ 13) || (28 ≤ n && n ≤ 32) || n == 0x85 || n == 0xA0 || n == 0x1680 ||
    (0x2000 ≤ n && n ≤ 0x200A) || n == 0x2028 || n == 0x2029 || n == 0x202F || n == 0x205F ||
    n == 0x3000

def isLineBreak (c : Char) : Bool :=
  let n := c.toNat
  (10 ≤ n && n ≤ 13) || (28 ≤ n && n ≤ 30) || n == 0x85 || n == 0x2028 || n == 0x2029

/-- The zeros of the Unicode decimal digit runs; each run holds ten digits. -/
def decimalZeros : List Nat :=
  [0x30, 0x660, 0x6F0, 0x7C0, 0x966, 0x9E6, 0xA66, 0xAE6, 0xB66, 0xBE6, 0xC66, 0xCE6, 0xD66,
    0xDE6, 0xE50, 0xED0, 0xF20, 0x1040, 0x1090, 0x17E0, 0x1810, 0x1946, 0x19D0, 0x1A80, 0x1A90,
    0x1B50, 0x1BB0, 0x1C40, 0x1C50, 0xA620, 0xA8D0, 0xA900, 0xA9D0, 0xA9F0, 0xAA50, 0xABF0,
    0xFF10, 0x104A0, 0x10D30, 0x11066, 0x110F0, 0x11136, 0x111D0, 0x112F0, 0x11450, 0x114D0,
    0x11650, 0x116C0, 0x11730, 0x118E0, 0x11950, 0x11C50, 0x11D50, 0x11DA0, 0x16A60, 0x16AC0,
    0x16B50, 0x1D7CE, 0x1D7D8, 0x1D7E2, 0x1D7EC, 0x1D7F6, 0x1E140, 0x1E2F0, 0x1E950, 0x1FBF0]

def decimalValue (c : Char) : Option Nat :=
  (decimalZeros.find? fun z => z ≤ c.toNat && c.toNat < z + 10).map (c.toNat - ·)

def isDecimal (c : Char) : Bool := (decimalValue c).isSome

/-- The value `int` reads from a run of decimal digits. -/
def decimalNumber (digits : Text) : Nat :=
  digits.foldl (fun value c => 10 * value + (decimalValue c).getD 0) 0

def decimal (n : Int) : Text := (toString n).toList

theorem decimal_natCast (n : Nat) : decimal n = Nat.toDigits 10 n := by
  change (Nat.repr n).toList = _
  rw [Nat.repr_eq_ofList_toDigits, String.toList_ofList]

theorem decimal_digits (n : Nat) : decimal n ≠ [] ∧ ∀ c ∈ decimal n, c.isDigit = true := by
  rw [decimal_natCast]
  exact ⟨Nat.toDigits_ne_nil, fun c hc => Nat.isDigit_of_mem_toDigits (by decide) (by decide) hc⟩

theorem decimal_injective {m n : Nat} (h : decimal m = decimal n) : m = n := by
  rw [decimal_natCast, decimal_natCast] at h
  have hRead := congrArg (Nat.ofDigitChars 10 · 0) h
  simpa only [Nat.ofDigitChars_ten_toDigits] using hRead

/-- True of the empty text too, like `not text.strip()`. -/
def isBlank (text : Text) : Bool := text.all isSpace

def strip (text : Text) : Text :=
  ((text.dropWhile isSpace).reverse.dropWhile isSpace).reverse

def startsWith (text : Text) (head : Text) : Bool := head.isPrefixOf text

def contains (needle : Text) : Text → Bool
  | [] => needle.isEmpty
  | c :: rest => needle.isPrefixOf (c :: rest) || contains needle rest

/-- `str.replace`, scanning left to right; `skip` counts the characters of the
last match still to be passed over. An empty `old` is never asked for. -/
def replaceFrom (old new : Text) : Nat → Text → Text
  | _, [] => []
  | skip + 1, _ :: rest => replaceFrom old new skip rest
  | 0, c :: rest =>
    if old.isPrefixOf (c :: rest) then new ++ replaceFrom old new (old.length - 1) rest
    else c :: replaceFrom old new 0 rest

def replace (old new text : Text) : Text := replaceFrom old new 0 text

/-- The idiom `[ln for ln in text.splitlines() if ln.strip()]`. A `\r\n` pair counts
as two breaks here; the empty line between them is dropped with the blank ones. -/
def nonblankLines (text : Text) : List Text :=
  (text.splitOnP isLineBreak).filter fun line => !isBlank line

theorem nonblankLines_append_break (text rest : Text) {c : Char} (hBreak : isLineBreak c = true) :
    nonblankLines (text ++ c :: rest) = nonblankLines text ++ nonblankLines rest := by
  simp only [nonblankLines, List.splitOnP_append_cons text rest hBreak, List.filter_append]

theorem nonblankLines_of_unbroken {line : Text} (h : ∀ c ∈ line, isLineBreak c = false) :
    nonblankLines line = if isBlank line then [] else [line] := by
  rw [nonblankLines, List.splitOnP_eq_singleton h]
  cases hBlank : isBlank line <;> simp [hBlank]

@[simp] theorem nonblankLines_nil : nonblankLines [] = [] := rfl

def lastLine (text : Text) : Text := (text.reverse.takeWhile fun c => !isLineBreak c).reverse

/-- The text up to and with its last line break. -/
def closedLines (text : Text) : Text := (text.reverse.dropWhile fun c => !isLineBreak c).reverse

theorem closedLines_append_lastLine (text : Text) : closedLines text ++ lastLine text = text := by
  rw [closedLines, lastLine, ← List.reverse_append, List.takeWhile_append_dropWhile,
    List.reverse_reverse]

theorem lastLine_unbroken (text : Text) : ∀ c ∈ lastLine text, isLineBreak c = false := by
  intro c hc
  have hTake := List.mem_takeWhile_imp (List.mem_reverse.mp hc)
  simpa using hTake

theorem nonblankLines_closedLines_append (text rest : Text) :
    nonblankLines (closedLines text ++ rest) =
      nonblankLines (closedLines text) ++ nonblankLines rest := by
  rw [closedLines]
  cases hBody : text.reverse.dropWhile fun c => !isLineBreak c with
  | nil => rfl
  | cons c body =>
    have hBreak : isLineBreak c = true := by
      have hHead := List.head?_dropWhile_not (fun c => !isLineBreak c) text.reverse
      rw [hBody] at hHead
      simpa using hHead
    rw [List.reverse_cons, List.append_assoc, List.singleton_append,
      nonblankLines_append_break _ _ hBreak, nonblankLines_append_break _ [] hBreak]
    simp

theorem nonblankLines_eq (text : Text) :
    nonblankLines text = nonblankLines (closedLines text) ++
      if isBlank (lastLine text) then [] else [lastLine text] := by
  calc nonblankLines text = nonblankLines (closedLines text ++ lastLine text) := by
        rw [closedLines_append_lastLine]
    _ = _ := by
        rw [nonblankLines_closedLines_append, nonblankLines_of_unbroken (lastLine_unbroken text)]

/-- A line written after an unterminated one becomes one line with it. -/
theorem nonblankLines_append_line {text line : Text} (hLine : ∀ c ∈ line, isLineBreak c = false)
    (hNonblank : isBlank (lastLine text ++ line) = false) {c : Char} (hBreak : isLineBreak c = true)
    (rest : Text) :
    nonblankLines (text ++ (line ++ c :: rest)) =
      nonblankLines (closedLines text) ++ (lastLine text ++ line) :: nonblankLines rest := by
  have hUnbroken : ∀ d ∈ lastLine text ++ line, isLineBreak d = false :=
    List.forall_mem_append.mpr ⟨lastLine_unbroken text, hLine⟩
  calc nonblankLines (text ++ (line ++ c :: rest))
      = nonblankLines (closedLines text ++ ((lastLine text ++ line) ++ c :: rest)) := by
        rw [← List.append_assoc, ← List.append_assoc, ← List.append_assoc,
          closedLines_append_lastLine]
    _ = _ := by
        rw [nonblankLines_closedLines_append, nonblankLines_append_break _ _ hBreak,
          nonblankLines_of_unbroken hUnbroken, hNonblank]
        rfl

/-- A text is one line, or a first line, its break and the rest. -/
theorem unbroken_or_firstLine (text : Text) :
    (∀ c ∈ text, isLineBreak c = false) ∨
      ∃ line c rest, text = line ++ c :: rest ∧ (∀ d ∈ line, isLineBreak d = false) ∧
        isLineBreak c = true := by
  induction text with
  | nil => exact Or.inl (by simp)
  | cons c text ih =>
    cases hBreak : isLineBreak c with
    | true => exact Or.inr ⟨[], c, text, rfl, by simp, hBreak⟩
    | false =>
      rcases ih with hText | ⟨line, d, rest, rfl, hLine, hNext⟩
      · exact Or.inl (List.forall_mem_cons.mpr ⟨hBreak, hText⟩)
      · exact Or.inr ⟨c :: line, d, rest, rfl, List.forall_mem_cons.mpr ⟨hBreak, hLine⟩, hNext⟩

/-- Text that holds something stays the start of a line, whatever follows it. -/
theorem nonblankLines_unbroken_append {line : Text} (hLine : ∀ c ∈ line, isLineBreak c = false)
    (hNonblank : isBlank line = false) (rest : Text) :
    ∃ tail more, nonblankLines (line ++ rest) = (line ++ tail) :: more := by
  have hWhole : ∀ tail, isBlank (line ++ tail) = false := by
    intro tail
    rw [isBlank] at hNonblank
    rw [isBlank, List.all_append, hNonblank, Bool.false_and]
  rcases unbroken_or_firstLine rest with hRest | ⟨tail, c, more, rfl, hTail, hBreak⟩
  · refine ⟨rest, [], ?_⟩
    rw [nonblankLines_of_unbroken (List.forall_mem_append.mpr ⟨hLine, hRest⟩), hWhole]
    rfl
  · refine ⟨tail, nonblankLines more, ?_⟩
    rw [← List.append_assoc, nonblankLines_append_break _ _ hBreak,
      nonblankLines_of_unbroken (List.forall_mem_append.mpr ⟨hLine, hTail⟩), hWhole]
    rfl

theorem lastLine_append_break (text : Text) {c : Char} (hBreak : isLineBreak c = true) :
    lastLine (text ++ [c]) = [] := by
  simp [lastLine, hBreak]

theorem strip_of_ends {c d : Char} {middle after : Text} (hFirst : isSpace c = false)
    (hLast : isSpace d = false) (hAfter : ∀ x ∈ after, isSpace x = true) :
    strip (c :: middle ++ [d] ++ after) = c :: middle ++ [d] := by
  have hReverse : ((c :: middle ++ [d] ++ after).reverse).dropWhile isSpace =
      (c :: middle ++ [d]).reverse := by
    rw [List.reverse_append, List.dropWhile_append_of_pos fun x hx =>
      hAfter x (List.mem_reverse.mp hx), List.reverse_append, List.reverse_singleton,
      List.singleton_append, List.dropWhile_cons_of_neg (by simp [hLast])]
  rw [strip, List.cons_append, List.cons_append, List.dropWhile_cons_of_neg (by simp [hFirst]),
    ← List.cons_append, ← List.cons_append, hReverse, List.reverse_reverse]

end Py
