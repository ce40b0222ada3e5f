import Mathlib.Data.List.Chain
import Mathlib.Data.List.TakeWhile
import AccessBroker.Library.Json

/-! # Texts and numbers of JSON

What the scanners of the decoder do with what the encoder prints, and that a
scan that succeeded is not changed by text that comes after.
-/

namespace Json
open Py
set_option autoImplicit false

/-! ## Texts -/

def units (code : Nat) : Str := if code < 0x10000 then [code] else [highUnit code, lowUnit code]

/-- The code points a `str` can hold once its surrogate pairs are joined. -/
structure WellFormed (s : Str) : Prop where
  bounded : ∀ code ∈ s, code < 0x110000
  unpaired : s.IsChain fun u v => ¬ (isHigh u = true ∧ isLow v = true)

theorem hexValue_digitChar : ∀ d < 16, hexValue d.digitChar = some d := by decide

theorem scanString_close (rest : Text) : scanString ('"' :: rest) = some ([], rest) := by
  rw [scanString.eq_def]
  exact if_pos rfl

theorem scanString_unit {w x y z : Char} {u : Nat} (hHex : hex4 w x y z = some u) (rest : Text) :
    scanString ('\\' :: 'u' :: w :: x :: y :: z :: rest) =
      (scanString rest).map fun scanned => (u :: scanned.1, scanned.2) := by
  rw [scanString, if_neg (by decide), if_pos rfl]
  simp only [if_true, hHex]

theorem scanString_simpleEscape {e : Char} {u : Nat} (hNotU : e ≠ 'u')
    (he : simpleEscapes.lookup e = some u) (rest : Text) :
    scanString ('\\' :: e :: rest) =
      (scanString rest).map fun scanned => (u :: scanned.1, scanned.2) := by
  rw [scanString.eq_def]
  dsimp only
  rw [if_neg (by decide), if_pos rfl, if_neg hNotU]
  simp only [he]

theorem scanString_char {c : Char} (hQuote : c ≠ '"') (hSlash : c ≠ '\\')
    (hControl : ¬ c.toNat < 0x20) (rest : Text) :
    scanString (c :: rest) = (scanString rest).map fun scanned => (c.toNat :: scanned.1, scanned.2) := by
  rw [scanString.eq_def]
  dsimp only
  rw [if_neg hQuote, if_neg hSlash, if_neg hControl]

theorem scanString_escapeUnit {u : Nat} (hu : u < 0x10000) (rest : Text) :
    scanString (escapeUnit u ++ rest) =
      (scanString rest).map fun scanned => (u :: scanned.1, scanned.2) := by
  refine scanString_unit ?_ rest
  rw [hex4, hexValue_digitChar _ (by omega), hexValue_digitChar _ (by omega),
    hexValue_digitChar _ (by omega), hexValue_digitChar _ (by omega)]
  simp only [Option.bind_eq_bind, Option.bind_some, Option.pure_def, Option.some.injEq]
  omega

theorem toNat_ofNat {n : Nat} (hn : n < 0xD800) : (Char.ofNat n).toNat = n := by
  rw [Char.ofNat, dif_pos (Or.inl hn)]
  rfl

theorem scanString_escapeCode {code : Nat} (hCode : code < 0x110000) (rest : Text) :
    scanString (escapeCode code ++ rest) =
      (scanString rest).map fun scanned => (units code ++ scanned.1, scanned.2) := by
  rw [escapeCode]
  split
  · rename_i h
    rw [h]
    exact scanString_simpleEscape (by decide) (by decide) rest
  split
  · rename_i h
    rw [h]
    exact scanString_simpleEscape (by decide) (by decide) rest
  split
  · rename_i hQuote hSlash hPrintable
    have hNat := toNat_ofNat (n := code) (by omega)
    have hNe : ∀ c : Char, c.toNat ≠ code → Char.ofNat code ≠ c := by
      intro c hc hEq
      exact hc (by rw [← hEq, hNat])
    rw [List.singleton_append, scanString_char (hNe '"' (Ne.symm hQuote))
      (hNe '\\' (Ne.symm hSlash)) (by omega), hNat, units, if_pos (by omega)]
    rfl
  split
  · rename_i h
    rw [h]
    exact scanString_simpleEscape (by decide) (by decide) rest
  split
  · rename_i h
    rw [h]
    exact scanString_simpleEscape (by decide) (by decide) rest
  split
  · rename_i h
    rw [h]
    exact scanString_simpleEscape (by decide) (by decide) rest
  split
  · rename_i h
    rw [h]
    exact scanString_simpleEscape (by decide) (by decide) rest
  split
  · rename_i h
    rw [h]
    exact scanString_simpleEscape (by decide) (by decide) rest
  split
  · rename_i h
    rw [scanString_escapeUnit h, units, if_pos h]
    rfl
  · rename_i h
    rw [List.append_assoc, scanString_escapeUnit (by unfold highUnit; omega),
      scanString_escapeUnit (by unfold lowUnit; omega), units, if_neg h, Option.map_map]
    rfl

theorem scanString_body {s : Str} (hs : ∀ code ∈ s, code < 0x110000) (rest : Text) :
    scanString (s.flatMap escapeCode ++ '"' :: rest) = some (s.flatMap units, rest) := by
  induction s with
  | nil =>
    rw [List.flatMap_nil, List.flatMap_nil, List.nil_append]
    exact scanString_close rest
  | cons code s ih =>
    have hTail := ih fun c hc => hs c (List.mem_cons_of_mem _ hc)
    rw [List.flatMap_cons, List.flatMap_cons, List.append_assoc,
      scanString_escapeCode (hs code List.mem_cons_self), hTail]
    rfl

theorem joinPair_units {code : Nat} (hLow : 0x10000 ≤ code) :
    joinPair (highUnit code) (lowUnit code) = code := by
  unfold joinPair highUnit lowUnit
  omega

theorem isHigh_highUnit {code : Nat} (hLow : 0x10000 ≤ code) (hHigh : code < 0x110000) :
    isHigh (highUnit code) = true := by
  simp only [isHigh, Bool.and_eq_true, decide_eq_true_eq]
  unfold highUnit
  omega

theorem isLow_lowUnit (code : Nat) : isLow (lowUnit code) = true := by
  simp only [isLow, Bool.and_eq_true, decide_eq_true_eq]
  unfold lowUnit
  omega

theorem not_isLow_highUnit (code : Nat) (hHigh : code < 0x110000) :
    isLow (highUnit code) = false := by
  simp only [isLow, Bool.and_eq_false_iff, decide_eq_false_iff_not]
  unfold highUnit
  omega

/-- Joining gives back the code points whose units were printed. -/
theorem joinSurrogates_units {s : Str} (h : WellFormed s) :
    joinSurrogates (s.flatMap units) = s := by
  obtain ⟨hBounded, hUnpaired⟩ := h
  induction s with
  | nil => rfl
  | cons code s ih =>
    have hCode := hBounded code List.mem_cons_self
    have hTail := ih (fun c hc => hBounded c (List.mem_cons_of_mem _ hc)) (List.IsChain.tail hUnpaired)
    rw [List.flatMap_cons]
    by_cases hPlane : code < 0x10000
    · rw [units, if_pos hPlane, List.singleton_append]
      cases s with
      | nil => rfl
      | cons next s =>
        have hNext := hBounded next (by simp)
        have hPair := (List.isChain_cons_cons.mp hUnpaired).1
        obtain ⟨u, us, hUnits, hLowEq⟩ : ∃ u us, (next :: s).flatMap units = u :: us ∧
            (isLow u = true → u = next) := by
          rw [List.flatMap_cons, units]
          split
          · exact ⟨next, _, rfl, fun _ => rfl⟩
          · refine ⟨highUnit next, _, rfl, fun hLow => ?_⟩
            rw [not_isLow_highUnit next hNext] at hLow
            cases hLow
        rw [hUnits] at hTail ⊢
        rw [joinSurrogates, if_neg, hTail]
        intro hBoth
        obtain ⟨hHigh, hLow⟩ := Bool.and_eq_true_iff.mp hBoth
        rw [hLowEq hLow] at hLow
        exact hPair ⟨hHigh, hLow⟩
    · rw [units, if_neg hPlane]
      simp only [List.cons_append, List.nil_append]
      rw [joinSurrogates, if_pos, joinPair_units (by omega), hTail]
      rw [isHigh_highUnit (by omega) hCode, isLow_lowUnit]
      rfl

theorem wellFormed_codes (text : Text) : WellFormed (codes text) where
  bounded code hCode := by
    obtain ⟨c, _, rfl⟩ := List.mem_map.mp hCode
    have hValid := c.valid
    simp only [UInt32.isValidChar, Nat.isValidChar] at hValid
    unfold Char.toNat
    omega
  unpaired := by
    rw [codes, List.isChain_map]
    refine List.Pairwise.isChain (List.pairwise_of_forall fun c _ hPair => ?_)
    have hValid := c.valid
    have hHigh := hPair.1
    simp only [UInt32.isValidChar, Nat.isValidChar] at hValid
    simp only [isHigh, Char.toNat, Bool.and_eq_true, decide_eq_true_eq] at hHigh
    omega

theorem codes_injective {a b : Text} (h : codes a = codes b) : a = b :=
  List.map_injective_iff.mpr (fun _ _ hChar => Char.toNat_inj.mp hChar) h

theorem map_eq_some_append {α β : Type} {scan : Option (α × Text)} {scan' : Option (α × Text)}
    {f : α → β} {b : β} {rest w : Text}
    (h : scan.map (fun r => (f r.1, r.2)) = some (b, rest))
    (hScan : ∀ a r, scan = some (a, r) → scan' = some (a, r ++ w)) :
    scan'.map (fun r => (f r.1, r.2)) = some (b, rest ++ w) := by
  obtain ⟨⟨a, r⟩, hSome, hEq⟩ := Option.map_eq_some_iff.mp h
  cases hEq
  rw [hScan a r hSome]
  rfl

/-- A text that ended is not changed by what comes after it. -/
theorem scanString_append (w : Text) (text : Text) {s : Str} {rest : Text}
    (h : scanString text = some (s, rest)) : scanString (text ++ w) = some (s, rest ++ w) := by
  fun_induction scanString text generalizing s rest with
  | case1 | case3 | case4 | case6 | case7 | case9 => cases h
  | case2 =>
    cases h
    exact scanString_close _
  | case5 w' x y z rest' unit hHex _ ih =>
    rw [List.cons_append, List.cons_append, List.cons_append, List.cons_append, List.cons_append,
      List.cons_append, scanString_unit hHex]
    exact map_eq_some_append h fun a r hScan => ih hScan
  | case8 e rest' hNotU unit hEscape _ ih =>
    rw [List.cons_append, List.cons_append, scanString_simpleEscape hNotU hEscape]
    exact map_eq_some_append h fun a r hScan => ih hScan
  | case10 c rest' hQuote hSlash hControl ih =>
    rw [List.cons_append, scanString_char hQuote hSlash hControl]
    exact map_eq_some_append h fun a r hScan => ih hScan

/-! ## Numbers -/

/-- The text cannot continue a number. -/
def Stops (text : Text) : Prop :=
  ∀ c, text.head? = some c → c.isDigit = false ∧ c ∉ ['.', 'e', 'E', '+', '-']

theorem stops_nil : Stops [] := by
  intro c h
  cases h

theorem stops_cons {c : Char} {text : Text} (hDigit : c.isDigit = false)
    (hMark : c ∉ ['.', 'e', 'E', '+', '-']) : Stops (c :: text) := by
  intro d h
  cases h
  exact ⟨hDigit, hMark⟩

theorem Stops.head_ne {w rest : Text} {c d : Char} (h : Stops w) (hw : w = d :: rest)
    (hMark : c ∈ ['.', 'e', 'E', '+', '-']) : d ≠ c := by
  rintro rfl
  exact (h d (by rw [hw]; rfl)).2 hMark

theorem span_append {w : Text} (hw : Stops w) (text : Text) :
    (text ++ w).takeWhile Char.isDigit = text.takeWhile Char.isDigit ∧
      (text ++ w).dropWhile Char.isDigit = text.dropWhile Char.isDigit ++ w := by
  induction text with
  | nil =>
    cases w with
    | nil => exact ⟨rfl, rfl⟩
    | cons c w =>
      have hDigit := (hw c rfl).1
      rw [List.nil_append, List.takeWhile_cons_of_neg (by simp [hDigit]),
        List.dropWhile_cons_of_neg (by simp [hDigit])]
      exact ⟨rfl, rfl⟩
  | cons c text ih =>
    rw [List.cons_append]
    cases hDigit : c.isDigit with
    | false =>
      rw [List.takeWhile_cons_of_neg (by simp [hDigit]), List.dropWhile_cons_of_neg (by simp [hDigit]),
        List.takeWhile_cons_of_neg (by simp [hDigit]), List.dropWhile_cons_of_neg (by simp [hDigit])]
      exact ⟨rfl, rfl⟩
    | true =>
      rw [List.takeWhile_cons_of_pos hDigit, List.dropWhile_cons_of_pos hDigit,
        List.takeWhile_cons_of_pos hDigit, List.dropWhile_cons_of_pos hDigit, ih.1, ih.2]
      exact ⟨rfl, rfl⟩

theorem scanSign_stops {w : Text} (hw : Stops w) : scanSign w = ([], w) := by
  cases w with
  | nil => rfl
  | cons c w => exact if_neg (hw.head_ne (c := '-') rfl (by decide))

theorem scanFraction_stops {w : Text} (hw : Stops w) : scanFraction w = ([], w) := by
  cases w with
  | nil => rfl
  | cons c w => exact if_neg fun h => hw.head_ne (c := '.') rfl (by decide) h.1

theorem scanExponentSign_stops {w : Text} (hw : Stops w) : scanExponentSign w = ([], w) := by
  cases w with
  | nil => rfl
  | cons c w =>
    refine if_neg ?_
    rintro (h | h)
    · exact hw.head_ne (c := '-') rfl (by decide) h
    · exact hw.head_ne (c := '+') rfl (by decide) h

theorem scanExponent_stops {w : Text} (hw : Stops w) : scanExponent w = ([], w) := by
  cases w with
  | nil => rfl
  | cons c w =>
    refine if_neg ?_
    rintro ⟨h | h, _⟩
    · exact hw.head_ne (c := 'e') rfl (by decide) h
    · exact hw.head_ne (c := 'E') rfl (by decide) h

theorem scanSign_append {w : Text} (hw : Stops w) (text : Text) :
    scanSign (text ++ w) = ((scanSign text).1, (scanSign text).2 ++ w) := by
  cases text with
  | nil => exact scanSign_stops hw
  | cons c text =>
    rw [List.cons_append, scanSign, scanSign]
    split <;> rfl

theorem scanWhole_append {w : Text} (hw : Stops w) {text whole rest : Text}
    (h : scanWhole text = some (whole, rest)) : scanWhole (text ++ w) = some (whole, rest ++ w) := by
  cases text with
  | nil => cases h
  | cons c text =>
    rw [List.cons_append]
    rw [scanWhole] at h ⊢
    split at h
    · rename_i hZero
      cases h
      rw [if_pos hZero]
    · rename_i hZero
      rw [if_neg hZero]
      split at h
      · rename_i hDigit
        cases h
        rw [if_pos hDigit, (span_append hw text).1, (span_append hw text).2]
      · cases h

theorem scanFraction_append {w : Text} (hw : Stops w) (text : Text) :
    scanFraction (text ++ w) = ((scanFraction text).1, (scanFraction text).2 ++ w) := by
  cases text with
  | nil => exact scanFraction_stops hw
  | cons c text =>
    rw [List.cons_append, scanFraction, scanFraction, (span_append hw text).1,
      (span_append hw text).2]
    split <;> rfl

theorem scanExponentSign_append {w : Text} (hw : Stops w) (text : Text) :
    scanExponentSign (text ++ w) = ((scanExponentSign text).1, (scanExponentSign text).2 ++ w) := by
  cases text with
  | nil => exact scanExponentSign_stops hw
  | cons c text =>
    rw [List.cons_append, scanExponentSign, scanExponentSign]
    split <;> rfl

theorem scanExponent_append {w : Text} (hw : Stops w) (text : Text) :
    scanExponent (text ++ w) = ((scanExponent text).1, (scanExponent text).2 ++ w) := by
  cases text with
  | nil => exact scanExponent_stops hw
  | cons c text =>
    rw [List.cons_append, scanExponent, scanExponent, scanExponentSign_append hw]
    dsimp only
    rw [(span_append hw _).1, (span_append hw _).2]
    split <;> rfl

theorem scanNumber_append {w : Text} (hw : Stops w) {text rest : Text} {n : Number}
    (h : scanNumber text = some (n, rest)) : scanNumber (text ++ w) = some (n, rest ++ w) := by
  rw [scanNumber, scanSign_append hw]
  rw [scanNumber] at h
  dsimp only at h ⊢
  split at h
  · cases h
  · rename_i whole after hWhole
    cases h
    rw [scanWhole_append hw hWhole]
    dsimp only
    rw [scanFraction_append hw]
    dsimp only
    rw [scanExponent_append hw]

/-- A number starts with a digit, after its sign. -/
theorem scanNumber_not_word {text rest w : Text} {n : Number} {c : Char} {word : Text}
    (h : scanNumber text = some (n, rest)) (hDigit : c.isDigit = false) :
    ¬ ('-' :: c :: word) <+: text ++ w := by
  rintro ⟨after, hText⟩
  cases text with
  | nil => cases h
  | cons d text =>
    injection hText with hMinus hText
    subst hMinus
    rw [scanNumber, scanSign, if_pos rfl] at h
    cases text with
    | nil => cases h
    | cons d text =>
      injection hText with hHead _
      subst hHead
      have hZero : c ≠ '0' := by
        rintro rfl
        cases hDigit
      simp [scanWhole, hDigit, hZero] at h

theorem toDigits_head (n : Nat) (hn : 0 < n) :
    ∃ c rest, Nat.toDigits 10 n = c :: rest ∧ c ≠ '0' ∧ c.isDigit = true := by
  induction n using Nat.strong_induction_on with
  | _ n ih =>
    by_cases hSmall : n < 10
    · refine ⟨n.digitChar, [], Nat.toDigits_of_lt_base hSmall, ?_⟩
      have hTable : ∀ d < 10, 0 < d → d.digitChar ≠ '0' ∧ d.digitChar.isDigit = true := by decide
      exact hTable n hSmall hn
    · obtain ⟨c, rest, hDigits, hHead⟩ := ih (n / 10) (by omega) (by omega)
      rw [Nat.toDigits_of_base_le (by decide) (by omega), hDigits]
      exact ⟨c, _, rfl, hHead⟩

theorem scanWhole_toDigits (n : Nat) : scanWhole (Nat.toDigits 10 n) = some (Nat.toDigits 10 n, []) := by
  rcases Nat.eq_zero_or_pos n with rfl | hn
  · rfl
  · obtain ⟨c, rest, hDigits, hZero, hDigit⟩ := toDigits_head n hn
    have hAll : ∀ d ∈ rest, d.isDigit = true := fun d hd =>
      Nat.isDigit_of_mem_toDigits (b := 10) (n := n) (by decide) (by decide) (by
        rw [hDigits]
        exact List.mem_cons_of_mem _ hd)
    rw [hDigits, scanWhole, if_neg hZero, if_pos hDigit, List.takeWhile_eq_self_iff.mpr hAll,
      List.dropWhile_eq_nil_iff.mpr hAll]

theorem scanNumber_dumpInt (n : Int) :
    scanNumber (dumpInt n) =
      some (⟨if n < 0 then ['-'] else [], Nat.toDigits 10 n.natAbs, []⟩, []) := by
  have hSign : scanSign (dumpInt n) = (if n < 0 then ['-'] else [], Nat.toDigits 10 n.natAbs) := by
    rw [dumpInt]
    split
    · rfl
    · obtain ⟨c, rest, hDigits⟩ := List.exists_cons_of_ne_nil (Nat.toDigits_ne_nil (b := 10) (n := n.natAbs))
      rw [hDigits, scanSign, if_neg]
      rintro rfl
      have hMinus := Nat.isDigit_of_mem_toDigits (b := 10) (n := n.natAbs) (c := '-')
        (by decide) (by decide) (by rw [hDigits]; exact List.mem_cons_self)
      cases hMinus
  rw [scanNumber, hSign]
  dsimp only
  rw [scanWhole_toDigits]
  rfl

theorem value_dumpInt (format : FloatFormat) {n : Int}
    (hLength : (Nat.toDigits 10 n.natAbs).length ≤ maxIntDigits) :
    Number.value format ⟨if n < 0 then ['-'] else [], Nat.toDigits 10 n.natAbs, []⟩ =
      some (.int n) := by
  rw [Number.value, if_neg (by simp), if_neg (by simpa using hLength)]
  dsimp only
  rw [Nat.ofDigitChars_ten_toDigits]
  by_cases hNegative : n < 0
  · rw [if_pos hNegative, if_neg (by simp)]
    congr 2
    omega
  · rw [if_neg hNegative, if_pos rfl]
    congr 2
    omega

end Json
