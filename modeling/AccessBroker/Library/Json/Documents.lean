import Mathlib.Algebra.Group.Nat.Defs
import AccessBroker.Library.Json.RoundTrip

/-! # Whole documents

What `loads` accepts is canonical and read back from its print, the print
determines the value, and a document that is followed or preceded by anything
but whitespace is refused.
-/

namespace Json
open Py
set_option autoImplicit false

variable {format : FloatFormat}

/-! ## What is read is canonical -/

theorem joinPair_not_surrogate (u v : Nat) :
    isHigh (joinPair u v) = false ∧ isLow (joinPair u v) = false := by
  simp only [isHigh, isLow, Bool.and_eq_false_iff, decide_eq_false_iff_not]
  unfold joinPair
  omega

theorem joinSurrogates_head (u : Nat) (s : Str) :
    ∃ v rest, joinSurrogates (u :: s) = v :: rest ∧ (isLow v = true → v = u) := by
  cases s with
  | nil => exact ⟨u, [], rfl, fun _ => rfl⟩
  | cons next s =>
    by_cases hPair : (isHigh u && isLow next) = true
    · refine ⟨joinPair u next, joinSurrogates s, if_pos hPair, fun hLow => ?_⟩
      rw [(joinPair_not_surrogate u next).2] at hLow
      cases hLow
    · exact ⟨u, joinSurrogates (next :: s), if_neg hPair, fun _ => rfl⟩

theorem wellFormed_cons {u : Nat} {s : Str} (hu : u < 0x110000) (hs : WellFormed s)
    (hPair : ∀ v, s.head? = some v → ¬ (isHigh u = true ∧ isLow v = true)) : WellFormed (u :: s) where
  bounded := List.forall_mem_cons.mpr ⟨hu, hs.bounded⟩
  unpaired := List.isChain_cons.mpr ⟨hPair, hs.unpaired⟩

theorem wellFormed_joinSurrogates {s : Str} (hs : ∀ u ∈ s, u < 0x110000) :
    WellFormed (joinSurrogates s) := by
  fun_induction joinSurrogates s with
  | case1 => exact ⟨by simp, List.isChain_nil⟩
  | case2 u => exact ⟨hs, List.isChain_singleton u⟩
  | case3 u v rest hPair ih =>
    have hBound : joinPair u v < 0x110000 := by
      simp only [isHigh, isLow, Bool.and_eq_true, decide_eq_true_eq] at hPair
      unfold joinPair
      omega
    refine wellFormed_cons hBound (ih fun x hx => hs x (by simp [hx])) fun w _ hBoth => ?_
    rw [(joinPair_not_surrogate u v).1] at hBoth
    cases hBoth.1
  | case4 u v rest hPair ih =>
    refine wellFormed_cons (hs u (by simp)) (ih fun x hx => hs x (by simp [hx])) fun w hw hBoth => ?_
    obtain ⟨head, tail, hJoin, hLow⟩ := joinSurrogates_head v rest
    rw [hJoin] at hw
    cases hw
    rw [hLow hBoth.2] at hBoth
    exact hPair (by rw [hBoth.1, hBoth.2]; rfl)

theorem char_bounded (c : Char) : c.toNat < 0x110000 := by
  have hValid := c.valid
  simp only [UInt32.isValidChar, Nat.isValidChar] at hValid
  unfold Char.toNat
  omega

theorem hexValue_lt {c : Char} {d : Nat} (h : hexValue c = some d) : d < 16 := by
  unfold hexValue at h
  dsimp only at h
  split at h
  · cases h
    omega
  split at h
  · cases h
    omega
  split at h
  · cases h
    omega
  · cases h

theorem hex4_lt {w x y z : Char} {u : Nat} (h : hex4 w x y z = some u) : u < 0x10000 := by
  simp only [hex4, Option.bind_eq_bind, Option.pure_def, Option.bind_eq_some_iff,
    Option.some.injEq] at h
  obtain ⟨a, ha, b, hb, c, hc, d, hd, rfl⟩ := h
  have hA := hexValue_lt ha
  have hB := hexValue_lt hb
  have hC := hexValue_lt hc
  have hD := hexValue_lt hd
  omega

theorem scanString_bounded {text rest : Text} {s : Str} (h : scanString text = some (s, rest)) :
    ∀ u ∈ s, u < 0x110000 := by
  have hMap : ∀ {unit : Nat} {scan : Option (Str × Text)} {s : Str} {rest : Text},
      unit < 0x110000 → (∀ s rest, scan = some (s, rest) → ∀ u ∈ s, u < 0x110000) →
      scan.map (fun r => (unit :: r.1, r.2)) = some (s, rest) → ∀ u ∈ s, u < 0x110000 := by
    intro unit scan s rest hUnit hScan h
    obtain ⟨⟨s', r⟩, hSome, hEq⟩ := Option.map_eq_some_iff.mp h
    cases hEq
    exact List.forall_mem_cons.mpr ⟨hUnit, hScan s' r hSome⟩
  fun_induction scanString text generalizing s rest with
  | case1 | case3 | case4 | case6 | case7 | case9 => cases h
  | case2 =>
    cases h
    simp
  | case5 w x y z rest' unit hHex _ ih =>
    exact hMap (by have := hex4_lt hHex; omega) (fun _ _ => ih) h
  | case8 e rest' hNotU unit hEscape _ ih =>
    have hTable : ∀ entry ∈ simpleEscapes, entry.2 < 0x110000 := by decide
    have hMem : ∃ entry ∈ simpleEscapes, entry.2 = unit := by
      rw [List.lookup_eq_some_iff] at hEscape
      obtain ⟨l₁, l₂, hSplit, _⟩ := hEscape
      exact ⟨(e, unit), by rw [hSplit]; simp, rfl⟩
    obtain ⟨entry, hEntry, rfl⟩ := hMem
    exact hMap (hTable entry hEntry) (fun _ _ => ih) h
  | case10 c rest' hQuote hSlash hControl ih =>
    exact hMap (char_bounded c) (fun _ _ => ih) h

theorem scanWhole_digits {text whole rest : Text} (h : scanWhole text = some (whole, rest)) :
    whole ≠ [] ∧ ∀ c ∈ whole, c.isDigit = true := by
  cases text with
  | nil => cases h
  | cons c text =>
    rw [scanWhole] at h
    split at h
    · cases h
      exact ⟨List.cons_ne_nil _ _, by simp⟩
    split at h
    · rename_i hDigit
      cases h
      exact ⟨List.cons_ne_nil _ _,
        List.forall_mem_cons.mpr ⟨hDigit, fun d hd => List.mem_takeWhile_imp hd⟩⟩
    · cases h

theorem ofDigitChars_lt {digits : Text} (h : ∀ c ∈ digits, c.isDigit = true) :
    Nat.ofDigitChars 10 digits 0 < 10 ^ digits.length := by
  induction digits using List.reverseRecOn with
  | nil => decide
  | append_singleton digits c ih =>
    have hInit := ih fun d hd => h d (List.mem_append_left _ hd)
    have hDigit := h c (by simp)
    have hValue : c.toNat - 48 < 10 := by
      rw [Char.isDigit, Bool.and_eq_true, decide_eq_true_eq, decide_eq_true_eq] at hDigit
      have hHigh : c.toNat ≤ 57 := hDigit.2
      omega
    rw [Nat.ofDigitChars_append, Nat.ofDigitChars_cons, Nat.ofDigitChars_nil,
      List.length_append, List.length_singleton, Nat.pow_succ]
    have hZero : '0'.toNat = 48 := rfl
    rw [hZero]
    omega

theorem canonical_number {n : Number} {v : Value} (hWhole : n.whole ≠ [])
    (hDigits : ∀ c ∈ n.whole, c.isDigit = true) (h : n.value format = some v) :
    Canonical format v := by
  have hLength : ¬ maxIntDigits < n.whole.length →
      (Nat.toDigits 10 (Nat.ofDigitChars 10 n.whole 0)).length ≤ maxIntDigits := by
    intro hShort
    refine Nat.le_trans ?_ (Nat.not_lt.mp hShort)
    exact (Nat.length_toDigits_le_iff (by decide) (List.length_pos_iff.mpr hWhole)).mpr
      (ofDigitChars_lt hDigits)
  rw [Number.value] at h
  split at h
  · cases h
    exact format.stable _
  split at h
  · cases h
  rename_i hShort
  split at h
  · cases h
    rw [Canonical, Int.natAbs_natCast]
    exact hLength hShort
  · cases h
    rw [Canonical, Int.natAbs_neg, Int.natAbs_natCast]
    exact hLength hShort

theorem canonical_word {word text rest : Text} {value v : Value} (hValue : Canonical format value)
    (h : scanWord word value text = some (v, rest)) : Canonical format v := by
  rw [scanWord] at h
  split at h
  · cases h
    exact hValue
  · cases h

theorem ite_elim {α : Type} {p : Prop} [Decidable p] {a b x : α} {P : Prop} (ha : a = x → P)
    (hb : b = x → P) (h : ite p a b = x) : P := by
  by_cases hp : p
  · rw [if_pos hp] at h
    exact ha h
  · rw [if_neg hp] at h
    exact hb h

theorem canonical_scalar {c : Char} {text rest : Text} {v : Value}
    (h : parseScalar format c text = some (v, rest)) : Canonical format v := by
  have hConstant : ∀ repr ∈ floatConstants, Canonical format (.float repr) := fun _ h => Or.inl h
  have hNull : Canonical format .null := trivial
  have hBool : ∀ b, Canonical format (.bool b) := fun _ => trivial
  unfold parseScalar at h
  refine ite_elim (canonical_word hNull) (ite_elim (canonical_word (hBool true))
    (ite_elim (canonical_word (hBool false)) (ite_elim (canonical_word (hConstant _ (by decide)))
      (ite_elim (canonical_word (hConstant _ (by decide))) fun h => ?_)))) h
  rcases Option.or_eq_some_iff.mp h with hInfinity | ⟨_, hNumber⟩
  · exact canonical_word (hConstant _ (by decide)) hInfinity
  · rw [parseNumber] at hNumber
    split at hNumber
    · cases hNumber
    · rename_i n after hScan
      obtain ⟨value, hValue, hEq⟩ := Option.map_eq_some_iff.mp hNumber
      cases hEq
      rw [scanNumber] at hScan
      dsimp only at hScan
      split at hScan
      · cases hScan
      · rename_i hWhole
        cases hScan
        exact canonical_number (scanWhole_digits hWhole).1 (scanWhole_digits hWhole).2 hValue

/-- What a parse gives is canonical. -/
structure Normalizes (format : FloatFormat) (fuel : Nat) : Prop where
  value : ∀ {text v rest}, parseValue format fuel text = some (v, rest) → Canonical format v
  items : ∀ {text vs rest}, parseItems format fuel text = some (vs, rest) → CanonicalItems format vs
  members : ∀ {text ms rest}, parseMembers format fuel text = some (ms, rest) →
    CanonicalMembers format ms

theorem normalizes_value {fuel : Nat} (ih : Normalizes format fuel) {text rest : Text} {v : Value}
    (h : parseValue format (fuel + 1) text = some (v, rest)) : Canonical format v := by
  cases text with
  | nil => cases h
  | cons c text =>
    rw [parseValue] at h
    split at h
    · obtain ⟨⟨s, r⟩, hScan, hEq⟩ := Option.map_eq_some_iff.mp h
      cases hEq
      exact wellFormed_joinSurrogates (scanString_bounded hScan)
    split at h
    · split at h
      · cases h
      split at h
      · cases h
        exact trivial
      · obtain ⟨⟨vs, r⟩, hItems, hEq⟩ := Option.map_eq_some_iff.mp h
        cases hEq
        exact ih.items hItems
    split at h
    · split at h
      · cases h
      split at h
      · cases h
        exact ⟨trivial, List.Pairwise.nil⟩
      · obtain ⟨⟨ms, r⟩, hMembers, hEq⟩ := Option.map_eq_some_iff.mp h
        cases hEq
        exact canonical_ofPairs (ih.members hMembers)
    · exact canonical_scalar h

theorem normalizes_items {fuel : Nat} (ih : Normalizes format fuel) {text rest : Text}
    {vs : List Value} (h : parseItems format (fuel + 1) text = some (vs, rest)) :
    CanonicalItems format vs := by
  rw [parseItems] at h
  split at h
  · cases h
  rename_i hValue
  split at h
  · cases h
  split at h
  · cases h
    exact ⟨ih.value hValue, trivial⟩
  split at h
  · obtain ⟨⟨vs', r⟩, hItems, hEq⟩ := Option.map_eq_some_iff.mp h
    cases hEq
    exact ⟨ih.value hValue, ih.items hItems⟩
  · cases h

theorem normalizes_members {fuel : Nat} (ih : Normalizes format fuel) {text rest : Text}
    {ms : List (Str × Value)} (h : parseMembers format (fuel + 1) text = some (ms, rest)) :
    CanonicalMembers format ms := by
  cases text with
  | nil => cases h
  | cons c text =>
    rw [parseMembers] at h
    split at h
    · cases h
    split at h
    · cases h
    rename_i hKey
    split at h
    · cases h
    split at h
    · cases h
    split at h
    · cases h
    rename_i hValue
    have hMember := And.intro (wellFormed_joinSurrogates (scanString_bounded hKey)) (ih.value hValue)
    split at h
    · cases h
    split at h
    · cases h
      exact ⟨hMember, trivial⟩
    split at h
    · obtain ⟨⟨ms', r⟩, hMembers, hEq⟩ := Option.map_eq_some_iff.mp h
      cases hEq
      exact ⟨hMember, ih.members hMembers⟩
    · cases h

theorem parse_normalizes (format : FloatFormat) (fuel : Nat) : Normalizes format fuel := by
  induction fuel with
  | zero => exact ⟨fun h => (by cases h), fun h => (by cases h), fun h => (by cases h)⟩
  | succ fuel ih => exact ⟨normalizes_value ih, normalizes_items ih, normalizes_members ih⟩

/-! ## Documents -/

theorem loads_eq_some {text : Text} {v : Value} :
    loads format text = some v ↔ text.head? ≠ some '\uFEFF' ∧
      ∃ rest, parseValue format (2 * text.length + 2) (skipWs text) = some (v, rest) ∧
        skipWs rest = [] := by
  rw [loads]
  split
  · rename_i hMark
    exact ⟨fun h => (by cases h), fun h => absurd hMark h.1⟩
  · rename_i hMark
    split
    · rename_i hNone
      exact ⟨fun h => (by cases h), fun ⟨_, rest, h, _⟩ => (by rw [hNone] at h; cases h)⟩
    · rename_i value rest hSome
      rw [hSome]
      split
      · rename_i hEnd
        refine ⟨fun h => ⟨hMark, rest, by rw [Option.some.inj h], hEnd⟩, ?_⟩
        rintro ⟨_, rest', h, _⟩
        cases h
        rfl
      · rename_i hEnd
        refine ⟨fun h => (by cases h), ?_⟩
        rintro ⟨_, rest', h, hEnd'⟩
        cases h
        exact absurd hEnd' hEnd

theorem canonical_of_loads {text : Text} {v : Value} (h : loads format text = some v) :
    Canonical format v := by
  obtain ⟨_, _, hParse, _⟩ := loads_eq_some.mp h
  exact (parse_normalizes format _).value hParse

theorem skipWs_append_blank {blank : Text} (hBlank : ∀ c ∈ blank, isWs c = true) (text : Text) :
    skipWs (blank ++ text) = skipWs text := by
  induction blank with
  | nil => rfl
  | cons c blank ih =>
    obtain ⟨hHead, hTail⟩ := List.forall_mem_cons.mp hBlank
    rw [List.cons_append, skipWs, List.dropWhile_cons_of_pos hHead]
    exact ih hTail

theorem starts_ne_mark {c : Char} (h : Starts c) : c ≠ '\uFEFF' := by
  rintro rfl
  exact absurd h (by unfold Starts; decide)

/-- A printed value is read back in order, also after JSON whitespace. -/
theorem loads_blank_printed {v : Value} (hDumpable : Dumpable format v) {blank : Text}
    (hBlank : ∀ c ∈ blank, isWs c = true) : loads format (blank ++ dumps v) = some v.ordered := by
  have hFuel : 2 * (dumps v).length ≤ 2 * (blank ++ dumps v).length + 2 := by
    rw [List.length_append]
    omega
  have hParse := readsOrdered v hDumpable _ [] hFuel stops_nil
  rw [List.append_nil] at hParse
  obtain ⟨c, rest, hText⟩ := List.exists_cons_of_ne_nil (parseValue_ne_nil hParse)
  refine loads_eq_some.mpr ⟨?_, [], ?_, rfl⟩
  · cases blank with
    | nil =>
      rw [List.nil_append, hText]
      rw [hText] at hParse
      intro hMark
      cases hMark
      exact starts_ne_mark (parseValue_head hParse) rfl
    | cons d blank =>
      intro hMark
      cases hMark
      exact absurd (hBlank _ List.mem_cons_self) (by decide)
  · rw [skipWs_append_blank hBlank, skipWs_parseValue hParse]
    exact hParse

theorem loads_blank_dumps {v : Value} (hCanonical : Canonical format v) {blank : Text}
    (hBlank : ∀ c ∈ blank, isWs c = true) : loads format (blank ++ dumps v) = some v := by
  rw [loads_blank_printed (Canonical.dumpable v hCanonical) hBlank, Canonical.ordered v hCanonical]

theorem loads_printed {v : Value} (hDumpable : Dumpable format v) :
    loads format (dumps v) = some v.ordered :=
  loads_blank_printed hDumpable (List.forall_mem_nil _)

theorem loads_dumps {v : Value} (hCanonical : Canonical format v) :
    loads format (dumps v) = some v :=
  loads_blank_dumps hCanonical (List.forall_mem_nil _)

theorem dumps_injective {v v' : Value} (hv : Canonical format v) (hv' : Canonical format v')
    (h : dumps v = dumps v') : v = v' := by
  have hRead := loads_dumps hv
  rw [h, loads_dumps hv'] at hRead
  exact (Option.some.inj hRead).symm

/-- A document is known by what its value is printed as. -/
theorem loads_of_dumps {v : Value} (hv : Canonical format v) {text : Text}
    (h : (loads format text).map dumps = some (dumps v)) : loads format text = some v := by
  obtain ⟨v', hLoads, hDumps⟩ := Option.map_eq_some_iff.mp h
  rw [hLoads, dumps_injective (canonical_of_loads hLoads) hv hDumps]

/-- A complete document followed by the start of another one is no document. -/
theorem loads_extra_data {text : Text} {v : Value} (h : loads format text = some v) (more : Text) :
    loads format (text ++ '{' :: more) = none := by
  obtain ⟨hMark, rest, hParse, hEnd⟩ := loads_eq_some.mp h
  have hLonger := (parse_extends format _).value hParse (2 * (more.length + 1)) ('{' :: more)
    (stops_cons (by decide) (by decide))
  rw [← skipWs_append_of_ne_nil (parseValue_ne_nil hParse)] at hLonger
  have hFuel : 2 * text.length + 2 + 2 * (more.length + 1) =
      2 * (text ++ '{' :: more).length + 2 := by
    rw [List.length_append, List.length_cons]
    omega
  rw [hFuel] at hLonger
  rw [loads, hLonger]
  split
  · rfl
  · have hRest : ∀ c ∈ rest, isWs c = true := List.dropWhile_eq_nil_iff.mp hEnd
    dsimp only
    rw [skipWs_append_blank hRest, skipWs_of_not_isWs (by decide), if_neg (List.cons_ne_nil _ _)]

/-- No document begins, after JSON whitespace, with a character no value starts with. -/
theorem loads_bad_start {blank : Text} (hBlank : ∀ c ∈ blank, isWs c = true) {c : Char}
    (hWs : isWs c = false) (hStart : ¬ Starts c) (more : Text) :
    loads format (blank ++ c :: more) = none := by
  cases hLoads : loads format (blank ++ c :: more) with
  | none => rfl
  | some v =>
    obtain ⟨_, rest, hParse, _⟩ := loads_eq_some.mp hLoads
    rw [skipWs_append_blank hBlank, skipWs_of_not_isWs hWs] at hParse
    exact absurd (parseValue_head hParse) hStart

end Json
