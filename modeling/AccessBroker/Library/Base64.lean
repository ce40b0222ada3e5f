import Mathlib.Data.List.Basic

/-! # Base64

The standard alphabet, encoding with padding, and the strict decoding, which takes nothing but digits
and after them the padding that the last group lacks. Behind full groups any padding is let pass.
-/

namespace Base64
set_option autoImplicit false

def alphabet : List Char :=
  "ABCDEFGHIJKLMNOPQRSTUVWXYZabcdefghijklmnopqrstuvwxyz0123456789+/".toList

def digit (value : Nat) : Char := alphabet.getD value 'A'

def isDigit (c : Char) : Bool := alphabet.contains c

def value (c : Char) : Nat := alphabet.idxOf c

/-- The six-bit groups of the data, the last one filled up with zeros. -/
def digits : List UInt8 → List Nat
  | [] => []
  | [a] => [a.toNat / 4, a.toNat % 4 * 16]
  | [a, b] => [a.toNat / 4, a.toNat % 4 * 16 + b.toNat / 16, b.toNat % 16 * 4]
  | a :: b :: c :: rest =>
    a.toNat / 4 :: (a.toNat % 4 * 16 + b.toNat / 16) :: (b.toNat % 16 * 4 + c.toNat / 64) ::
      c.toNat % 64 :: digits rest

def pads : List UInt8 → Nat
  | [] => 0
  | [_] => 2
  | [_, _] => 1
  | _ :: _ :: _ :: rest => pads rest

def encode (data : List UInt8) : List Char :=
  (digits data).map digit ++ List.replicate (pads data) '='

/-- Excess bits of the last digit are dropped. -/
def join : List Nat → Nat → Option (List UInt8)
  | [], _ => some []
  | [_], _ => none
  | [u, v], padding => if padding = 2 then some [.ofNat (u * 4 + v / 16)] else none
  | [u, v, w], padding =>
    if padding = 1 then some [.ofNat (u * 4 + v / 16), .ofNat (v % 16 * 16 + w / 4)] else none
  | u :: v :: w :: x :: rest, padding =>
    (join rest padding).map fun data =>
      .ofNat (u * 4 + v / 16) :: .ofNat (v % 16 * 16 + w / 4) :: .ofNat (w % 4 * 64 + x) :: data

def decode (text : List Char) : Option (List UInt8) :=
  let padding := text.dropWhile isDigit
  if padding.all (· == '=') ∧ text.head? ≠ some '=' then
    join ((text.takeWhile isDigit).map value) padding.length
  else none

example : decode "aGk=".toList = some [104, 105] ∧ decode "aGk==".toList = none ∧
    decode "=".toList = none ∧ decode "aGkh=".toList = some [104, 105, 33] := by decide

/-! ## Round trip -/

theorem digits_lt : ∀ (data : List UInt8), ∀ v ∈ digits data, v < 64
  | [], v, h => nomatch h
  | [a], v, h => by
    have ha := a.toNat_lt
    simp only [digits, List.mem_cons, List.not_mem_nil, or_false] at h
    omega
  | [a, b], v, h => by
    have ha := a.toNat_lt
    have hb := b.toNat_lt
    simp only [digits, List.mem_cons, List.not_mem_nil, or_false] at h
    omega
  | a :: b :: c :: rest, v, h => by
    have ha := a.toNat_lt
    have hb := b.toNat_lt
    have hc := c.toNat_lt
    simp only [digits, List.mem_cons] at h
    rcases h with h | h | h | h | h
    · omega
    · omega
    · omega
    · omega
    · exact digits_lt rest v h

theorem byte_of {n : Nat} {a : UInt8} (h : n = a.toNat) : UInt8.ofNat n = a := by
  rw [h]
  exact UInt8.ofNat_toNat

theorem join_digits : ∀ (data : List UInt8), join (digits data) (pads data) = some data
  | [] => rfl
  | [a] => by
    have hFirst : UInt8.ofNat (a.toNat / 4 * 4 + a.toNat % 4 * 16 / 16) = a := byte_of (by omega)
    rw [digits, pads, join, if_pos rfl, hFirst]
  | [a, b] => by
    have hb := b.toNat_lt
    have hFirst : UInt8.ofNat (a.toNat / 4 * 4 + (a.toNat % 4 * 16 + b.toNat / 16) / 16) = a :=
      byte_of (by omega)
    have hSecond : UInt8.ofNat ((a.toNat % 4 * 16 + b.toNat / 16) % 16 * 16 +
        b.toNat % 16 * 4 / 4) = b := byte_of (by omega)
    rw [digits, pads, join, if_pos rfl, hFirst, hSecond]
  | a :: b :: c :: rest => by
    have hb := b.toNat_lt
    have hc := c.toNat_lt
    have hFirst : UInt8.ofNat (a.toNat / 4 * 4 + (a.toNat % 4 * 16 + b.toNat / 16) / 16) = a :=
      byte_of (by omega)
    have hSecond : UInt8.ofNat ((a.toNat % 4 * 16 + b.toNat / 16) % 16 * 16 +
        (b.toNat % 16 * 4 + c.toNat / 64) / 4) = b := byte_of (by omega)
    have hThird : UInt8.ofNat ((b.toNat % 16 * 4 + c.toNat / 64) % 4 * 64 + c.toNat % 64) = c :=
      byte_of (by omega)
    rw [digits, pads, join, join_digits rest, Option.map_some, hFirst, hSecond, hThird]

theorem isDigit_digit {v : Nat} (h : v < 64) : isDigit (digit v) = true := by
  have hAll : ∀ v : Fin 64, isDigit (digit v) = true := by decide +kernel
  exact hAll ⟨v, h⟩

theorem value_digit {v : Nat} (h : v < 64) : value (digit v) = v := by
  have hAll : ∀ v : Fin 64, value (digit v) = v := by decide +kernel
  exact hAll ⟨v, h⟩

theorem takeWhile_encode (data : List UInt8) :
    (encode data).takeWhile isDigit = (digits data).map digit := by
  have hDigits : ∀ c ∈ (digits data).map digit, isDigit c = true := by
    intro c hMem
    obtain ⟨v, hv, rfl⟩ := List.mem_map.mp hMem
    exact isDigit_digit (digits_lt data v hv)
  rw [encode, List.takeWhile_append_of_pos hDigits]
  cases pads data with
  | zero => exact List.append_nil _
  | succ n => exact List.append_nil _

theorem dropWhile_encode (data : List UInt8) :
    (encode data).dropWhile isDigit = List.replicate (pads data) '=' := by
  have hSplit := List.takeWhile_append_dropWhile (p := isDigit) (l := encode data)
  rw [takeWhile_encode] at hSplit
  exact List.append_cancel_left hSplit

theorem head_encode (data : List UInt8) : (encode data).head? ≠ some '=' := by
  intro hHead
  have hTake := takeWhile_encode data
  obtain ⟨rest, hRest⟩ := List.head?_eq_some_iff.mp hHead
  rw [hRest, List.takeWhile_cons_of_neg (by decide)] at hTake
  have hNone : digits data = [] := List.map_eq_nil_iff.mp hTake.symm
  have hEmpty : data = [] := by
    unfold digits at hNone
    split at hNone
    · rfl
    all_goals cases hNone
  rw [hEmpty] at hRest
  cases hRest

theorem decode_encode (data : List UInt8) : decode (encode data) = some data := by
  have hValues : ((digits data).map digit).map value = digits data := by
    rw [List.map_map]
    refine (List.map_congr_left fun v hMem => ?_).trans (List.map_id _)
    exact value_digit (digits_lt data v hMem)
  rw [decode, takeWhile_encode, dropWhile_encode, hValues, List.length_replicate, join_digits]
  refine if_pos ⟨?_, head_encode data⟩
  simp [List.all_replicate]

end Base64
