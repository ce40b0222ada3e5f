import AccessBroker.Library.Json.Documents

/-! # Where the quotes of a document fall

A document is read as plain characters and strings. Between two strings stands a comma or a
colon, and a line break of another kind than a newline stands in a string. So a text that starts
within a string of a document and is read as a document itself takes what stands between the
strings for its own strings.
-/

namespace Json
open Py
set_option autoImplicit false

/-- Newlines do not count: they may stand between the values of a document. -/
def isRawBreak (c : Char) : Bool := isLineBreak c && c ≠ '\n' && c ≠ '\r'

/-- A character that may stand outside the strings. -/
def isPlain (c : Char) : Bool := c ≠ '"' && c ≠ '\\' && !isRawBreak c

def isSep (c : Char) : Bool := c = ',' || c = ':'

/-- The text is read up to a rest of it. `sep` tells whether a comma or a colon has been read
since the last string, and `read` lists the strings that were read. -/
inductive Lexes : Bool → Text → List Str → Bool → Text → Prop where
  | refl {sep : Bool} {text : Text} : Lexes sep text [] sep text
  | plain {sep sep' : Bool} {c : Char} {text rest : Text} {read : List Str}
      (hPlain : isPlain c = true) (more : Lexes (sep || isSep c) text read sep' rest) :
      Lexes sep (c :: text) read sep' rest
  | string {sep' : Bool} {text after rest : Text} {s : Str} {read : List Str}
      (scanned : scanString text = some (s, after)) (more : Lexes false after read sep' rest) :
      Lexes true ('"' :: text) (joinSurrogates s :: read) sep' rest

theorem Lexes.trans {sep sep' sep'' : Bool} {text mid rest : Text} {read others : List Str}
    (h : Lexes sep text read sep' mid) (h' : Lexes sep' mid others sep'' rest) :
    Lexes sep text (read ++ others) sep'' rest := by
  induction h with
  | refl => exact h'
  | plain hPlain _ ih => exact .plain hPlain (ih h')
  | string scanned _ ih => exact .string scanned (ih h')

/-- Plain characters only are read. -/
def ReadsPlain (text rest : Text) : Prop :=
  ∃ used, text = used ++ rest ∧ ∀ c ∈ used, isPlain c = true

theorem ReadsPlain.refl (text : Text) : ReadsPlain text text := ⟨[], rfl, by simp⟩

theorem ReadsPlain.trans {text mid rest : Text} (h : ReadsPlain text mid)
    (h' : ReadsPlain mid rest) : ReadsPlain text rest := by
  obtain ⟨used, rfl, hUsed⟩ := h
  obtain ⟨more, rfl, hMore⟩ := h'
  exact ⟨used ++ more, (List.append_assoc _ _ _).symm, List.forall_mem_append.mpr ⟨hUsed, hMore⟩⟩

theorem ReadsPlain.cons {c : Char} (hPlain : isPlain c = true) (text : Text) :
    ReadsPlain (c :: text) text := ⟨[c], rfl, by simpa using hPlain⟩

theorem ReadsPlain.lexes {text rest : Text} (h : ReadsPlain text rest) (sep : Bool) :
    ∃ sep', Lexes sep text [] sep' rest ∧ (sep = true → sep' = true) := by
  obtain ⟨used, rfl, hUsed⟩ := h
  induction used generalizing sep with
  | nil => exact ⟨sep, .refl, id⟩
  | cons c used ih =>
    obtain ⟨hPlain, hRest⟩ := List.forall_mem_cons.mp hUsed
    obtain ⟨sep', hLexes, hSep⟩ := ih (sep || isSep c) hRest
    exact ⟨sep', .plain hPlain hLexes, fun h => hSep (by rw [h, Bool.true_or])⟩

theorem isPlain_of_isWs {c : Char} (h : isWs c = true) : isPlain c = true := by
  simp only [isWs, Bool.or_eq_true, decide_eq_true_eq] at h
  rcases h with ((rfl | rfl) | rfl) | rfl <;> decide

theorem isPlain_of_isDigit {c : Char} (h : c.isDigit = true) : isPlain c = true := by
  simp only [Char.isDigit, Bool.and_eq_true, decide_eq_true_eq] at h
  have hLow : 48 ≤ c.toNat := h.1
  have hHigh : c.toNat ≤ 57 := h.2
  have hNe {d : Char} (hd : ¬ (48 ≤ d.toNat ∧ d.toNat ≤ 57)) : c ≠ d := by
    rintro rfl
    exact hd ⟨hLow, hHigh⟩
  have hBreak : isLineBreak c = false := by
    simp only [isLineBreak]
    simp only [Bool.or_eq_false_iff, Bool.and_eq_false_iff, decide_eq_false_iff_not, beq_eq_false_iff_ne]
    omega
  simp [isPlain, isRawBreak, hBreak, hNe (d := '"') (by decide), hNe (d := '\\') (by decide)]

theorem readsPlain_dropWhile {p : Char → Bool} (h : ∀ c, p c = true → isPlain c = true)
    (text : Text) : ReadsPlain text (text.dropWhile p) :=
  ⟨text.takeWhile p, List.takeWhile_append_dropWhile.symm,
    fun c hc => h c (List.mem_takeWhile_imp hc)⟩

theorem readsPlain_skipWs (text : Text) : ReadsPlain text (skipWs text) :=
  readsPlain_dropWhile (fun _ => isPlain_of_isWs) text

/-! ## Numbers and words -/

theorem readsPlain_scanSign (text : Text) : ReadsPlain text (scanSign text).2 := by
  cases text with
  | nil => exact .refl []
  | cons c text =>
    rw [scanSign]
    split
    · rename_i hMinus
      exact .cons (by rw [hMinus]; decide) text
    · exact .refl _

theorem readsPlain_scanWhole {text whole rest : Text} (h : scanWhole text = some (whole, rest)) :
    ReadsPlain text rest := by
  cases text with
  | nil => cases h
  | cons c text =>
    rw [scanWhole] at h
    split at h
    · rename_i hZero
      cases h
      exact .cons (by rw [hZero]; decide) _
    split at h
    · rename_i hDigit
      cases h
      exact (ReadsPlain.cons (isPlain_of_isDigit hDigit) text).trans
        (readsPlain_dropWhile (fun _ => isPlain_of_isDigit) text)
    · cases h

theorem readsPlain_scanFraction (text : Text) : ReadsPlain text (scanFraction text).2 := by
  cases text with
  | nil => exact .refl []
  | cons c text =>
    rw [scanFraction]
    split
    · rename_i hPoint
      exact (ReadsPlain.cons (by rw [hPoint.1]; decide) text).trans
        (readsPlain_dropWhile (fun _ => isPlain_of_isDigit) text)
    · exact .refl _

theorem readsPlain_scanExponentSign (text : Text) : ReadsPlain text (scanExponentSign text).2 := by
  cases text with
  | nil => exact .refl []
  | cons c text =>
    rw [scanExponentSign]
    split
    · rename_i hSign
      exact .cons (by rcases hSign with rfl | rfl <;> decide) text
    · exact .refl _

theorem readsPlain_scanExponent (text : Text) : ReadsPlain text (scanExponent text).2 := by
  cases text with
  | nil => exact .refl []
  | cons c text =>
    rw [scanExponent]
    split
    · rename_i hExponent
      refine (ReadsPlain.cons ?_ text).trans ((readsPlain_scanExponentSign text).trans
        (readsPlain_dropWhile (fun _ => isPlain_of_isDigit) _))
      rcases hExponent.1 with rfl | rfl <;> decide
    · exact .refl _

theorem readsPlain_scanNumber {text rest : Text} {n : Number}
    (h : scanNumber text = some (n, rest)) : ReadsPlain text rest := by
  rw [scanNumber] at h
  dsimp only at h
  split at h
  · cases h
  · rename_i whole after hWhole
    cases h
    exact (readsPlain_scanSign text).trans ((readsPlain_scanWhole hWhole).trans
      ((readsPlain_scanFraction after).trans (readsPlain_scanExponent _)))

/-- The keys of an object; nothing else has any. -/
def Value.keys : Value → List Str
  | .obj members => members.map Prod.fst
  | _ => []

theorem readsPlain_scanWord {word text rest : Text} {value v : Value}
    (hWord : (word.all isPlain) = true) (hKeys : value.keys = [])
    (h : scanWord word value text = some (v, rest)) : ReadsPlain text rest ∧ v.keys = [] := by
  rw [scanWord] at h
  split at h
  · rename_i hPrefix
    cases h
    refine ⟨⟨word, ?_, List.all_eq_true.mp hWord⟩, hKeys⟩
    exact (List.prefix_iff_eq_append.mp (List.isPrefixOf_iff_prefix.mp hPrefix)).symm
  · cases h

variable {format : FloatFormat}

theorem Number.value_keys {n : Number} {v : Value} (h : n.value format = some v) : v.keys = [] := by
  rw [Number.value] at h
  split at h
  · cases h
    rfl
  split at h
  · cases h
  split at h
  · cases h
    rfl
  · cases h
    rfl

theorem readsPlain_scalar {c : Char} {text rest : Text} {v : Value}
    (h : parseScalar format c text = some (v, rest)) : ReadsPlain text rest ∧ v.keys = [] := by
  unfold parseScalar at h
  refine ite_elim (readsPlain_scanWord (by decide) rfl)
    (ite_elim (readsPlain_scanWord (by decide) rfl)
      (ite_elim (readsPlain_scanWord (by decide) rfl)
        (ite_elim (readsPlain_scanWord (by decide) rfl)
          (ite_elim (readsPlain_scanWord (by decide) rfl) fun h => ?_)))) h
  rcases Option.or_eq_some_iff.mp h with hInfinity | ⟨_, hNumber⟩
  · exact readsPlain_scanWord (by decide) rfl hInfinity
  · rw [parseNumber] at hNumber
    split at hNumber
    · cases hNumber
    · rename_i n after hScan
      obtain ⟨value, hValue, hEq⟩ := Option.map_eq_some_iff.mp hNumber
      cases hEq
      exact ⟨readsPlain_scanNumber hScan, n.value_keys hValue⟩

theorem ofPairs_keys {pairs : List (Str × Value)} :
    ∀ key ∈ (Value.obj (Dict.ofPairs pairs)).keys, key ∈ pairs.map Prod.fst := by
  refine Dict.ofPairs_induction (P := fun dict =>
    ∀ key ∈ (Value.obj dict).keys, key ∈ pairs.map Prod.fst) (by simp [Value.keys]) ?_
  intro pair hPair dict ih key hKey
  obtain ⟨member, hMember, rfl⟩ := List.mem_map.mp hKey
  rcases Dict.mem_set hMember with rfl | hMember
  · exact List.mem_map_of_mem hPair
  · exact ih _ (List.mem_map_of_mem hMember)

/-! ## Documents -/

/-- What the parser reads, it reads as plain characters and strings; the keys of an object are
among the strings. -/
structure Reading (format : FloatFormat) (fuel : Nat) : Prop where
  value : ∀ {text v rest}, parseValue format fuel text = some (v, rest) →
    ∃ read sep, Lexes true text read sep rest ∧ ∀ key ∈ v.keys, key ∈ read
  items : ∀ {text vs rest}, parseItems format fuel text = some (vs, rest) →
    ∃ read sep, Lexes true text read sep rest
  members : ∀ {text ms rest}, parseMembers format fuel text = some (ms, rest) →
    ∃ read sep, Lexes true text read sep rest ∧ ∀ member ∈ ms, member.1 ∈ read

theorem Lexes.plainly {text mid rest : Text} {read : List Str} {sep : Bool}
    (h : ReadsPlain text mid) (hMore : Lexes true mid read sep rest) :
    Lexes true text read sep rest := by
  obtain ⟨sep', hPlain, hSep⟩ := h.lexes true
  rw [hSep rfl] at hPlain
  exact hPlain.trans hMore

/-- Blanks and a separator bring a reading back to where a string may start. -/
theorem Lexes.separated {sep : Bool} {text rest : Text} {c : Char} (hText : skipWs text = c :: rest)
    (hPlain : isPlain c = true) (hSep : isSep c = true) : Lexes sep text [] true rest := by
  obtain ⟨between, hBlank, _⟩ := (readsPlain_skipWs text).lexes sep
  rw [hText] at hBlank
  refine hBlank.trans (.plain hPlain ?_)
  rw [hSep, Bool.or_true]
  exact .refl

theorem Lexes.closed (sep : Bool) {text rest : Text} {c : Char} (hText : skipWs text = c :: rest)
    (hPlain : isPlain c = true) : ∃ sep', Lexes sep text [] sep' rest := by
  obtain ⟨sep', hBlank, _⟩ := (readsPlain_skipWs text).lexes sep
  rw [hText] at hBlank
  exact ⟨_, hBlank.trans (.plain hPlain .refl)⟩

theorem reading_value {fuel : Nat} (ih : Reading format fuel) {text rest : Text} {v : Value}
    (h : parseValue format (fuel + 1) text = some (v, rest)) :
    ∃ read sep, Lexes true text read sep rest ∧ ∀ key ∈ v.keys, key ∈ read := by
  cases text with
  | nil => cases h
  | cons c text =>
    rw [parseValue] at h
    split at h
    · rename_i hQuote
      obtain ⟨⟨s, after⟩, hScan, hEq⟩ := Option.map_eq_some_iff.mp h
      cases hEq
      rw [hQuote]
      exact ⟨_, _, .string hScan .refl, by simp [Value.keys]⟩
    split at h
    · rename_i hBracket
      have hOpen : Lexes true (c :: text) [] true text := .plain (by rw [hBracket]; decide) .refl
      split at h
      · cases h
      rename_i d after hSkip
      split at h
      · rename_i hClose
        cases h
        obtain ⟨sep, hEnd⟩ := Lexes.closed true hSkip (by rw [hClose]; decide)
        exact ⟨_, sep, hOpen.trans hEnd, by simp [Value.keys]⟩
      · obtain ⟨⟨vs, r⟩, hItems, hEq⟩ := Option.map_eq_some_iff.mp h
        cases hEq
        obtain ⟨read, sep, hRead⟩ := ih.items hItems
        rw [← hSkip] at hRead
        exact ⟨_, sep, hOpen.trans (.plainly (readsPlain_skipWs text) hRead), by simp [Value.keys]⟩
    split at h
    · rename_i hBrace
      have hOpen : Lexes true (c :: text) [] true text := .plain (by rw [hBrace]; decide) .refl
      split at h
      · cases h
      rename_i d after hSkip
      split at h
      · rename_i hClose
        cases h
        obtain ⟨sep, hEnd⟩ := Lexes.closed true hSkip (by rw [hClose]; decide)
        exact ⟨_, sep, hOpen.trans hEnd, by simp [Value.keys]⟩
      · obtain ⟨⟨ms, r⟩, hMembers, hEq⟩ := Option.map_eq_some_iff.mp h
        cases hEq
        obtain ⟨read, sep, hRead, hKeys⟩ := ih.members hMembers
        rw [← hSkip] at hRead
        refine ⟨_, sep, hOpen.trans (.plainly (readsPlain_skipWs text) hRead), fun key hKey => ?_⟩
        obtain ⟨member, hMember, rfl⟩ := List.mem_map.mp (ofPairs_keys key hKey)
        exact hKeys member hMember
    · obtain ⟨hPlain, hKeys⟩ := readsPlain_scalar h
      obtain ⟨sep, hRead, _⟩ := hPlain.lexes true
      exact ⟨_, sep, hRead, by simp [hKeys]⟩

theorem reading_items {fuel : Nat} (ih : Reading format fuel) {text rest : Text} {vs : List Value}
    (h : parseItems format (fuel + 1) text = some (vs, rest)) :
    ∃ read sep, Lexes true text read sep rest := by
  rw [parseItems] at h
  split at h
  · cases h
  rename_i v after hValue
  obtain ⟨read, sep, hRead, _⟩ := ih.value hValue
  split at h
  · cases h
  rename_i c after' hSkip
  split at h
  · rename_i hClose
    cases h
    obtain ⟨sep', hEnd⟩ := Lexes.closed sep hSkip (by rw [hClose]; decide)
    exact ⟨_, sep', hRead.trans hEnd⟩
  split at h
  · rename_i hComma
    obtain ⟨⟨vs', r⟩, hItems, hEq⟩ := Option.map_eq_some_iff.mp h
    cases hEq
    obtain ⟨more, sep', hMore⟩ := ih.items hItems
    have hNext : Lexes sep after [] true after' :=
      .separated hSkip (by rw [hComma]; decide) (by rw [hComma]; decide)
    exact ⟨_, sep', hRead.trans (hNext.trans (.plainly (readsPlain_skipWs after') hMore))⟩
  · cases h

theorem reading_members {fuel : Nat} (ih : Reading format fuel) {text rest : Text}
    {ms : List (Str × Value)} (h : parseMembers format (fuel + 1) text = some (ms, rest)) :
    ∃ read sep, Lexes true text read sep rest ∧ ∀ member ∈ ms, member.1 ∈ read := by
  cases text with
  | nil => cases h
  | cons c text =>
    rw [parseMembers] at h
    split at h
    · cases h
    rename_i hQuote
    split at h
    · cases h
    rename_i key afterKey hKey
    split at h
    · cases h
    rename_i d afterColon hSkip
    split at h
    · cases h
    rename_i hColon
    rw [not_not] at hQuote hColon
    split at h
    · cases h
    rename_i v afterValue hValue
    obtain ⟨read, sep, hRead, _⟩ := ih.value hValue
    have hMember : Lexes true (c :: text) (joinSurrogates key :: read) sep afterValue := by
      rw [hQuote]
      refine .string hKey ?_
      have hNext : Lexes false afterKey [] true afterColon :=
        .separated hSkip (by rw [hColon]; decide) (by rw [hColon]; decide)
      exact hNext.trans (.plainly (readsPlain_skipWs afterColon) hRead)
    split at h
    · cases h
    rename_i e afterMember hSkip'
    split at h
    · rename_i hClose
      cases h
      obtain ⟨sep', hEnd⟩ := Lexes.closed sep hSkip' (by rw [hClose]; decide)
      exact ⟨_, sep', hMember.trans hEnd, by simp⟩
    split at h
    · rename_i hComma
      obtain ⟨⟨ms', r⟩, hMembers, hEq⟩ := Option.map_eq_some_iff.mp h
      cases hEq
      obtain ⟨more, sep', hMore, hKeys⟩ := ih.members hMembers
      have hNext : Lexes sep afterValue [] true afterMember :=
        .separated hSkip' (by rw [hComma]; decide) (by rw [hComma]; decide)
      refine ⟨_, sep', hMember.trans (hNext.trans (.plainly (readsPlain_skipWs afterMember) hMore)),
        ?_⟩
      refine List.forall_mem_cons.mpr ⟨by simp, fun member hMem => ?_⟩
      simpa using Or.inr (Or.inr (hKeys member hMem))
    · cases h

theorem parse_reading (format : FloatFormat) (fuel : Nat) : Reading format fuel := by
  induction fuel with
  | zero => exact ⟨fun h => (by cases h), fun h => (by cases h), fun h => (by cases h)⟩
  | succ fuel ih => exact ⟨reading_value ih, reading_items ih, reading_members ih⟩

/-- A document is read to its end. -/
theorem loads_reading {text : Text} {v : Value} (h : loads format text = some v) :
    ∃ read sep, Lexes true text read sep [] ∧ ∀ key ∈ v.keys, key ∈ read := by
  obtain ⟨_, rest, hParse, hEnd⟩ := loads_eq_some.mp h
  obtain ⟨read, sep, hRead, hKeys⟩ := (parse_reading format _).value hParse
  obtain ⟨sep', hRest, _⟩ := (readsPlain_skipWs rest).lexes sep
  rw [hEnd] at hRest
  have hWhole := Lexes.plainly (readsPlain_skipWs text) (hRead.trans hRest)
  exact ⟨_, sep', hWhole, fun key hKey => List.mem_append_left _ (hKeys key hKey)⟩

end Json
