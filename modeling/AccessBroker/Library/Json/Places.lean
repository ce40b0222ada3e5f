import AccessBroker.Library.Json.Quotes

/-! # Documents cut within a string

What stands before a line break of another kind than a newline ends within a string and is no
document. What stands after it is read the other way round: the strings of this reading are what
stood between the strings, and none of them is without a comma or a colon.
-/

namespace Json
open Py
set_option autoImplicit false

/-- A string, read to its end. -/
inductive Scans : Text → Str → Text → Prop where
  | close (rest : Text) : Scans ('"' :: rest) [] rest
  | char {c : Char} {text rest : Text} {s : Str} (hQuote : c ≠ '"') (hSlash : c ≠ '\\')
      (more : Scans text s rest) : Scans (c :: text) (c.toNat :: s) rest
  | unit {w x y z : Char} {u : Nat} {text rest : Text} {s : Str}
      (hHex : hex4 w x y z = some u) (more : Scans text s rest) :
      Scans ('\\' :: 'u' :: w :: x :: y :: z :: text) (u :: s) rest
  | simple {e : Char} {u : Nat} {text rest : Text} {s : Str} (hEscape : (e, u) ∈ simpleEscapes)
      (more : Scans text s rest) : Scans ('\\' :: e :: text) (u :: s) rest

theorem scans_of_scanString {text rest : Text} {s : Str} (h : scanString text = some (s, rest)) :
    Scans text s rest := by
  fun_induction scanString text generalizing s rest with
  | case1 | case3 | case4 | case6 | case7 | case9 => cases h
  | case2 =>
    cases h
    exact .close _
  | case5 w x y z text unit hHex _ ih =>
    obtain ⟨⟨s', after⟩, hScan, hEq⟩ := Option.map_eq_some_iff.mp h
    cases hEq
    exact .unit hHex (ih hScan)
  | case8 e text _ unit hEscape _ ih =>
    obtain ⟨⟨s', after⟩, hScan, hEq⟩ := Option.map_eq_some_iff.mp h
    cases hEq
    obtain ⟨before, others, hSplit, _⟩ := List.lookup_eq_some_iff.mp hEscape
    refine .simple ?_ (ih hScan)
    rw [hSplit]
    exact List.mem_append_right _ List.mem_cons_self
  | case10 c text hQuote hSlash _ ih =>
    obtain ⟨⟨s', after⟩, hScan, hEq⟩ := Option.map_eq_some_iff.mp h
    cases hEq
    exact .char hQuote hSlash (ih hScan)

theorem Scans.of_char {c : Char} {text rest : Text} {s : Str} (hQuote : c ≠ '"') (hSlash : c ≠ '\\')
    (h : Scans (c :: text) s rest) : ∃ s', s = c.toNat :: s' ∧ Scans text s' rest := by
  cases h with
  | close => exact absurd rfl hQuote
  | char _ _ more => exact ⟨_, rfl, more⟩
  | unit => exact absurd rfl hSlash
  | simple => exact absurd rfl hSlash

theorem Scans.of_quote {text rest : Text} {s : Str} (h : Scans ('"' :: text) s rest) :
    s = [] ∧ rest = text := by
  cases h with
  | close => exact ⟨rfl, rfl⟩
  | char hQuote => exact absurd rfl hQuote

/-! ## Places -/

/-- Where the next character stands. -/
inductive Place where
  | outside
  | inside
  | escape
  deriving DecidableEq

def Place.step : Place → Char → Place
  | .outside, c => if c = '"' then .inside else .outside
  | .inside, c => if c = '"' then .outside else if c = '\\' then .escape else .inside
  | .escape, _ => .inside

def Place.after (place : Place) (text : Text) : Place := text.foldl Place.step place

theorem Place.after_cons (place : Place) (c : Char) (text : Text) :
    place.after (c :: text) = (place.step c).after text := rfl

theorem Place.after_append (place : Place) (text more : Text) :
    place.after (text ++ more) = (place.after text).after more := List.foldl_append

theorem Place.step_outside {c : Char} (hQuote : c ≠ '"') : Place.outside.step c = .outside :=
  if_neg hQuote

theorem Place.step_inside {c : Char} (hQuote : c ≠ '"') (hSlash : c ≠ '\\') :
    Place.inside.step c = .inside := by
  rw [Place.step, if_neg hQuote, if_neg hSlash]

theorem Place.after_outside {text : Text} (h : ∀ c ∈ text, c ≠ '"') :
    Place.outside.after text = .outside := by
  induction text with
  | nil => rfl
  | cons c text ih =>
    obtain ⟨hQuote, hRest⟩ := List.forall_mem_cons.mp h
    rw [Place.after_cons, Place.step_outside hQuote]
    exact ih hRest

theorem isPlain_iff {c : Char} :
    isPlain c = true ↔ c ≠ '"' ∧ c ≠ '\\' ∧ isRawBreak c = false := by
  simp [isPlain, and_assoc]

theorem ne_of_isRawBreak {c d : Char} (h : isRawBreak c = true) (hd : isRawBreak d = false) :
    c ≠ d := by
  rintro rfl
  rw [h] at hd
  cases hd

theorem isPlain_of_hexValue {c : Char} {d : Nat} (h : hexValue c = some d) : isPlain c = true := by
  have hRange : 0x30 ≤ c.toNat ∧ c.toNat ≤ 0x39 ∨ 0x41 ≤ c.toNat ∧ c.toNat ≤ 0x46 ∨
      0x61 ≤ c.toNat ∧ c.toNat ≤ 0x66 := by
    unfold hexValue at h
    dsimp only at h
    split at h
    · exact Or.inl ‹_›
    split at h
    · exact Or.inr (Or.inl ‹_›)
    split at h
    · exact Or.inr (Or.inr ‹_›)
    · cases h
  have hBreak : isLineBreak c = false := by
    simp only [isLineBreak, Bool.or_eq_false_iff, Bool.and_eq_false_iff,
      decide_eq_false_iff_not, beq_eq_false_iff_ne]
    omega
  refine isPlain_iff.mpr ⟨?_, ?_, by rw [isRawBreak, hBreak]; rfl⟩
  · rintro rfl
    cases h
  · rintro rfl
    cases h

/-- The escape of a code unit holds a backslash and plain characters. -/
theorem unit_plain {w x y z : Char} {u : Nat} (h : hex4 w x y z = some u) :
    ∀ c ∈ ['u', w, x, y, z], isPlain c = true := by
  simp only [hex4, Option.bind_eq_bind, Option.pure_def, Option.bind_eq_some_iff] at h
  obtain ⟨_, hw, _, hx, _, hy, _, hz, _⟩ := h
  simp [isPlain_of_hexValue hw, isPlain_of_hexValue hx, isPlain_of_hexValue hy,
    isPlain_of_hexValue hz]
  decide

theorem Place.after_inside {text : Text} (h : ∀ c ∈ text, isPlain c = true) :
    Place.inside.after text = .inside := by
  induction text with
  | nil => rfl
  | cons c text ih =>
    obtain ⟨hPlain, hRest⟩ := List.forall_mem_cons.mp h
    obtain ⟨hQuote, hSlash, _⟩ := isPlain_iff.mp hPlain
    rw [Place.after_cons, Place.step_inside hQuote hSlash]
    exact ih hRest

theorem Place.after_unit {w x y z : Char} {u : Nat} (h : hex4 w x y z = some u) :
    Place.inside.after ['\\', 'u', w, x, y, z] = .inside := by
  change Place.inside.after [w, x, y, z] = .inside
  exact Place.after_inside fun c hc => unit_plain h c (List.mem_cons_of_mem _ hc)

theorem Place.after_escape (e : Char) : Place.inside.after ['\\', e] = .inside := rfl

theorem Scans.after {text rest : Text} {s : Str} (h : Scans text s rest) :
    Place.inside.after text = Place.outside.after rest := by
  induction h with
  | close rest => rfl
  | char hQuote hSlash _ ih => rw [Place.after_cons, Place.step_inside hQuote hSlash, ih]
  | @unit w x y z _ text _ _ hHex _ ih =>
    have hAfter := Place.after_append .inside ['\\', 'u', w, x, y, z] text
    rw [Place.after_unit hHex] at hAfter
    exact hAfter.trans ih
  | @simple e _ text _ _ _ _ ih =>
    have hAfter := Place.after_append .inside ['\\', e] text
    rw [Place.after_escape] at hAfter
    exact hAfter.trans ih

theorem Lexes.after {sep sep' : Bool} {text rest : Text} {read : List Str}
    (h : Lexes sep text read sep' rest) : Place.outside.after text = Place.outside.after rest := by
  induction h with
  | refl => rfl
  | plain hPlain _ ih => rw [Place.after_cons, Place.step_outside (isPlain_iff.mp hPlain).1, ih]
  | string scanned _ ih => exact (scans_of_scanString scanned).after.trans ih

/-! ## Cuts -/

theorem past_chunk {chunk text pre post : Text} {c : Char} (hChunk : c ∉ chunk)
    (h : pre ++ c :: post = chunk ++ text) :
    ∃ pre', pre = chunk ++ pre' ∧ text = pre' ++ c :: post := by
  rcases List.append_eq_append_iff.mp h with ⟨more, hMore, hPost⟩ | ⟨pre', hPre, hText⟩
  · cases more with
    | nil => exact ⟨[], by simpa using hMore.symm, by simpa using hPost.symm⟩
    | cons d more =>
      cases hPost
      exact absurd (by rw [hMore]; simp) hChunk
  · exact ⟨pre', hPre, hText⟩

/-- A break that a string is read past stands in it or after it. -/
theorem Scans.cut {pre post rest : Text} {c : Char} {s : Str} (hBreak : isRawBreak c = true)
    (h : Scans (pre ++ c :: post) s rest) :
    (Place.inside.after pre = .inside ∧ ∃ s', Scans post s' rest) ∨
      ∃ pre', rest = pre' ++ c :: post ∧ Place.inside.after pre = Place.outside.after pre' := by
  generalize hText : pre ++ c :: post = text at h
  induction h generalizing pre with
  | close rest =>
    have hChunk : c ∉ ['"'] := by simpa using ne_of_isRawBreak hBreak (by decide)
    obtain ⟨pre', rfl, rfl⟩ := past_chunk hChunk hText
    exact Or.inr ⟨pre', rfl, rfl⟩
  | @char d text _ _ hQuote hSlash more ih =>
    cases pre with
    | nil =>
      cases hText
      exact Or.inl ⟨rfl, _, more⟩
    | cons e pre =>
      cases hText
      rw [Place.after_cons, Place.step_inside hQuote hSlash]
      exact ih rfl
  | @unit w x y z _ text _ _ hHex _ ih =>
    have hPlain := unit_plain hHex
    have hChunk : c ∉ ['\\', 'u', w, x, y, z] := by
      intro hMem
      rcases List.mem_cons.mp hMem with rfl | hMem
      · cases hBreak
      · have hNot := (isPlain_iff.mp (hPlain c hMem)).2.2
        rw [hBreak] at hNot
        cases hNot
    obtain ⟨pre', rfl, rfl⟩ := past_chunk hChunk hText
    rw [Place.after_append, Place.after_unit hHex]
    exact ih rfl
  | @simple e _ text _ _ hEscape _ ih =>
    have hTable : ∀ entry ∈ simpleEscapes, isRawBreak entry.1 = false := by decide
    have hChunk : c ∉ ['\\', e] := by
      simp [ne_of_isRawBreak hBreak (hTable _ hEscape),
        ne_of_isRawBreak hBreak (d := '\\') (by decide)]
    obtain ⟨pre', rfl, rfl⟩ := past_chunk hChunk hText
    rw [Place.after_append, Place.after_escape]
    exact ih rfl

/-- The text starts within a string of a document. -/
def InString (text : Text) : Prop :=
  ∃ s rest read sep, Scans text s rest ∧ Lexes false rest read sep []

theorem Lexes.cut {sep sep' : Bool} {pre post : Text} {c : Char} {read : List Str}
    (hBreak : isRawBreak c = true) (h : Lexes sep (pre ++ c :: post) read sep' []) :
    Place.outside.after pre = .inside ∧ InString post := by
  generalize hText : pre ++ c :: post = text at h
  generalize hRest : ([] : Text) = rest at h
  induction h generalizing pre with
  | refl =>
    rw [← hRest] at hText
    simp at hText
  | @plain _ _ d text _ _ hPlain more ih =>
    cases pre with
    | nil =>
      cases hText
      rw [isPlain, hBreak] at hPlain
      simp at hPlain
    | cons e pre =>
      cases hText
      rw [Place.after_cons, Place.step_outside (isPlain_iff.mp hPlain).1]
      exact ih rfl hRest
  | @string _ text after _ s _ scanned more ih =>
    have hChunk : c ∉ ['"'] := by simpa using ne_of_isRawBreak hBreak (by decide)
    obtain ⟨pre', rfl, rfl⟩ := past_chunk hChunk hText
    have hPlace : Place.outside.after (['"'] ++ pre') = Place.inside.after pre' := rfl
    rw [hPlace]
    rcases (scans_of_scanString scanned).cut hBreak with ⟨hInside, s', hPost⟩ | ⟨pre'', rfl, hPre⟩
    · subst hRest
      exact ⟨hInside, s', after, _, _, hPost, more⟩
    · rw [hPre]
      exact ih rfl hRest

theorem InString.cut {pre post : Text} {c : Char} (hBreak : isRawBreak c = true)
    (h : InString (pre ++ c :: post)) : InString post := by
  obtain ⟨s, rest, read, sep, hScan, hLexes⟩ := h
  rcases hScan.cut hBreak with ⟨_, s', hPost⟩ | ⟨pre', rfl, _⟩
  · exact ⟨s', rest, read, sep, hPost, hLexes⟩
  · exact (hLexes.cut hBreak).2

theorem InString.drop {head text : Text} (hHead : ∀ c ∈ head, c ≠ '"' ∧ c ≠ '\\')
    (h : InString (head ++ text)) : InString text := by
  induction head with
  | nil => exact h
  | cons c head ih =>
    obtain ⟨⟨hQuote, hSlash⟩, hMore⟩ := List.forall_mem_cons.mp hHead
    obtain ⟨s, rest, read, sep, hScan, hLexes⟩ := h
    obtain ⟨s', _, hScan'⟩ := hScan.of_char hQuote hSlash
    exact ih hMore ⟨s', rest, read, sep, hScan', hLexes⟩

/-! ## Reading the other way round -/

/-- What the strings of such a reading have in them. -/
def HasSep (s : Str) : Prop := ∃ c : Char, isSep c = true ∧ c.toNat ∈ s

theorem HasSep.cons {s : Str} (h : HasSep s) (u : Nat) : HasSep (u :: s) := by
  obtain ⟨c, hSep, hMem⟩ := h
  exact ⟨c, hSep, List.mem_cons_of_mem _ hMem⟩

/-- A string that starts outside the strings ends where one of them starts. -/
theorem Lexes.scans {sep sep' : Bool} {text after : Text} {read : List Str} {s : Str}
    (h : Lexes sep text read sep' []) (hScan : Scans text s after) :
    (sep = true ∨ HasSep s) ∧ InString after := by
  generalize hRest : ([] : Text) = rest at h
  induction h generalizing s with
  | refl =>
    rw [← hRest] at hScan
    cases hScan
  | @plain sep _ c text _ _ hPlain more ih =>
    obtain ⟨hQuote, hSlash, _⟩ := isPlain_iff.mp hPlain
    obtain ⟨s', rfl, hMore⟩ := hScan.of_char hQuote hSlash
    obtain ⟨hSep, hAfter⟩ := ih hMore hRest
    refine ⟨?_, hAfter⟩
    rcases hSep with hSep | hSep
    · rcases Bool.or_eq_true_iff.mp hSep with hSep | hSep
      · exact Or.inl hSep
      · exact Or.inr ⟨c, hSep, List.mem_cons_self⟩
    · exact Or.inr (hSep.cons _)
  | string scanned more _ =>
    obtain ⟨rfl, rfl⟩ := hScan.of_quote
    subst hRest
    exact ⟨Or.inl rfl, _, _, _, _, scans_of_scanString scanned, more⟩

/-- Whatever is read from within a string, each string read holds a comma or a colon. -/
theorem Lexes.inString {sep sep' : Bool} {text rest : Text} {read : List Str}
    (h : Lexes sep text read sep' rest) {more : Text} (hText : InString (text ++ more)) :
    ∀ t ∈ read, ∃ s, t = joinSurrogates s ∧ HasSep s := by
  induction h with
  | refl => simp
  | plain hPlain _ ih =>
    obtain ⟨s, rest', read', sep', hScan, hLexes⟩ := hText
    obtain ⟨hQuote, hSlash, _⟩ := isPlain_iff.mp hPlain
    obtain ⟨s', _, hScan'⟩ := hScan.of_char hQuote hSlash
    exact ih ⟨s', rest', read', sep', hScan', hLexes⟩
  | @string _ text after _ s read scanned _ ih =>
    obtain ⟨s', rest', read', sep', hScan, hLexes⟩ := hText
    obtain ⟨_, rfl⟩ := hScan.of_quote
    have hString := scans_of_scanString (scanString_append more _ scanned)
    obtain ⟨hSep, hAfter⟩ := hLexes.scans hString
    refine List.forall_mem_cons.mpr ⟨⟨s, rfl, hSep.resolve_left (by decide)⟩, ih hAfter⟩

theorem mem_joinSurrogates {u : Nat} {s : Str} (hHigh : isHigh u = false) (hLow : isLow u = false)
    (h : u ∈ s) : u ∈ joinSurrogates s := by
  fun_induction joinSurrogates s with
  | case1 => exact h
  | case2 => exact h
  | case3 high low rest hPair ih =>
    rw [Bool.and_eq_true] at hPair
    rcases List.mem_cons.mp h with rfl | h
    · rw [hPair.1] at hHigh
      cases hHigh
    rcases List.mem_cons.mp h with rfl | h
    · rw [hPair.2] at hLow
      cases hLow
    · exact List.mem_cons_of_mem _ (ih h)
  | case4 first next rest _ ih =>
    rcases List.mem_cons.mp h with rfl | h
    · exact List.mem_cons_self
    · exact List.mem_cons_of_mem _ (ih h)

theorem HasSep.ne_codes {s : Str} (h : HasSep s) {name : Text} (hName : ∀ c ∈ name, isSep c = false) :
    joinSurrogates s ≠ codes name := by
  obtain ⟨c, hSep, hMem⟩ := h
  intro hEq
  have hUnit : isHigh c.toNat = false ∧ isLow c.toNat = false := by
    simp only [isSep, Bool.or_eq_true, decide_eq_true_eq] at hSep
    rcases hSep with rfl | rfl <;> decide
  have hMem' : c.toNat ∈ codes name := by
    rw [← hEq]
    exact mem_joinSurrogates hUnit.1 hUnit.2 hMem
  obtain ⟨d, hd, hCode⟩ := List.mem_map.mp hMem'
  have hChar : d = c := Char.toNat_inj.mp hCode
  rw [hChar] at hd
  rw [hName c hd] at hSep
  cases hSep

/-! ## Documents -/

variable {format : FloatFormat} {text : Text} {v : Value}

theorem loads_after (h : loads format text = some v) : Place.outside.after text = .outside := by
  obtain ⟨_, _, hRead, _⟩ := loads_reading h
  exact hRead.after

theorem loads_cut {pre post : Text} {c : Char} (hBreak : isRawBreak c = true)
    (h : loads format (pre ++ c :: post) = some v) :
    Place.outside.after pre = .inside ∧ InString post := by
  obtain ⟨_, _, hRead, _⟩ := loads_reading h
  exact hRead.cut hBreak

/-- What is read from within a string of a document has no ordinary key. -/
theorem loads_inString (h : loads format text = some v) {more : Text}
    (hText : InString (text ++ more)) {name : Text} (hName : ∀ c ∈ name, isSep c = false) :
    codes name ∉ v.keys := by
  obtain ⟨read, sep, hRead, hKeys⟩ := loads_reading h
  intro hKey
  obtain ⟨s, hJoin, hSep⟩ := hRead.inString hText _ (hKeys _ hKey)
  exact hSep.ne_codes hName hJoin.symm

end Json
