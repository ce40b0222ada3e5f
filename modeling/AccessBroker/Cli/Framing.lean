import AccessBroker.Cli.LockTokens
import AccessBroker.Cli.Transfers
import AccessBroker.Library.Json.Places
import AccessBroker.Library.Redaction

/-! # Both framings of a response

A response comes as it is or in a `data:` line of an event stream. The two are read alike, unless
a string of the response holds a character that ends a line for `splitlines`.
-/

namespace AccessBroker.Cli
open Py
set_option autoImplicit false

/-! ## Data lines -/

theorem dataLines_append_break (text rest : Text) {c : Char} (hBreak : isLineBreak c = true) :
    dataLines (text ++ c :: rest) = dataLines text ++ dataLines rest := by
  simp only [dataLines, nonblankLines_append_break text rest hBreak, List.filter_append,
    List.map_append]

@[simp] theorem dataLines_nil : dataLines [] = [] := rfl

theorem dataLines_breaks {eol : Text} (hEol : ∀ c ∈ eol, isLineBreak c = true) (rest : Text) :
    dataLines (eol ++ rest) = dataLines rest := by
  induction eol with
  | nil => rfl
  | cons c eol ih =>
    obtain ⟨hBreak, hMore⟩ := List.forall_mem_cons.mp hEol
    have hCut := dataLines_append_break [] (eol ++ rest) hBreak
    rw [List.nil_append, dataLines_nil, List.nil_append] at hCut
    rw [List.cons_append, hCut, ih hMore]

theorem dataLines_append_eol {eol : Text} (hNonempty : eol ≠ [])
    (hEol : ∀ c ∈ eol, isLineBreak c = true) (text rest : Text) :
    dataLines (text ++ (eol ++ rest)) = dataLines text ++ dataLines rest := by
  cases eol with
  | nil => exact absurd rfl hNonempty
  | cons c eol =>
    obtain ⟨hBreak, hMore⟩ := List.forall_mem_cons.mp hEol
    rw [List.cons_append, dataLines_append_break text _ hBreak, dataLines_breaks hMore]

theorem isSpace_of_isLineBreak {c : Char} (h : isLineBreak c = true) : isSpace c = true := by
  simp only [isLineBreak, isSpace, Bool.or_eq_true, Bool.and_eq_true, decide_eq_true_eq,
    beq_iff_eq] at h ⊢
  omega

theorem strip_append_space (text : Text) {c : Char} (hSpace : isSpace c = true) :
    strip (text ++ [c]) = strip text := by
  rw [strip, strip, List.dropWhile_append]
  split
  · rename_i hEmpty
    rw [List.isEmpty_iff.mp hEmpty]
    simp [hSpace]
  · rw [List.reverse_append, List.reverse_singleton, List.singleton_append,
      List.dropWhile_cons_of_pos hSpace]

theorem startsWith_data_append {line : Text} {c : Char} (hSpace : isSpace c = true) :
    startsWith (line ++ [c]) "data:".toList = startsWith line "data:".toList := by
  have hOut : c ∉ "data:".toList := by
    intro hMem
    have hNone : ∀ d ∈ "data:".toList, isSpace d = false :=
      List.forall_iff_forall_mem.mp (by decide)
    rw [hNone c hMem] at hSpace
    cases hSpace
  rw [Bool.eq_iff_iff, startsWith, startsWith, List.isPrefixOf_iff_prefix,
    List.isPrefixOf_iff_prefix]
  exact ⟨prefix_of_prefix_append_cons hOut, fun h => h.trans (List.prefix_append _ _)⟩

def Unbroken (text : Text) : Prop := ∀ c ∈ text, isLineBreak c = false

instance (text : Text) : Decidable (Unbroken text) := List.decidableBAll _ _

/-- The data line that an unbroken line is, if it is one. -/
theorem dataLines_of_unbroken {line : Text} (h : Unbroken line) :
    dataLines line = if startsWith line "data:".toList then [strip (line.drop 5)] else [] := by
  rw [dataLines, nonblankLines_of_unbroken h]
  cases hData : startsWith line "data:".toList with
  | false =>
    split
    · rfl
    · rw [List.filter_cons_of_neg (by rw [hData]; decide)]
      rfl
  | true =>
    have hBlank : isBlank line = false := by
      obtain ⟨rest, rfl⟩ := List.isPrefixOf_iff_prefix.mp hData
      rfl
    rw [hBlank, if_neg (by decide), List.filter_cons_of_pos (by exact hData)]
    rfl

theorem dataLines_append_space (text : Text) {c : Char} (hSpace : isSpace c = true) :
    dataLines (text ++ [c]) = dataLines text := by
  cases hBreak : isLineBreak c with
  | true => rw [dataLines_append_break text [] hBreak, dataLines_nil, List.append_nil]
  | false =>
    have hCut : ∀ line, dataLines (closedLines text ++ line) =
        dataLines (closedLines text) ++ dataLines line := by
      intro line
      simp only [dataLines, nonblankLines_closedLines_append, List.filter_append, List.map_append]
    have hLast := lastLine_unbroken text
    have hMore : ∀ d ∈ lastLine text ++ [c], isLineBreak d = false :=
      List.forall_mem_append.mpr ⟨hLast, by simpa using hBreak⟩
    have hSame : dataLines (lastLine text ++ [c]) = dataLines (lastLine text) := by
      rw [dataLines_of_unbroken hMore, dataLines_of_unbroken hLast, startsWith_data_append hSpace]
      split
      · rename_i hData
        have hLength : 5 ≤ (lastLine text).length :=
          (List.isPrefixOf_iff_prefix.mp hData).length_le
        rw [List.drop_append_of_le_length hLength, strip_append_space _ hSpace]
      · rfl
    calc dataLines (text ++ [c]) = dataLines (closedLines text ++ (lastLine text ++ [c])) := by
          rw [← List.append_assoc, closedLines_append_lastLine]
      _ = dataLines text := by
          rw [hCut, hSame, ← hCut, closedLines_append_lastLine]

theorem dataLines_append_spaces (text : Text) {blank : Text}
    (hBlank : ∀ c ∈ blank, isSpace c = true) : dataLines (text ++ blank) = dataLines text := by
  induction blank generalizing text with
  | nil => rw [List.append_nil]
  | cons c blank ih =>
    obtain ⟨hSpace, hMore⟩ := List.forall_mem_cons.mp hBlank
    have hShape : text ++ c :: blank = text ++ [c] ++ blank := by simp
    rw [hShape, ih _ hMore, dataLines_append_space text hSpace]

/-- What `strip` takes off at the end. -/
theorem strip_cut (text : Text) :
    ∃ blank, text.dropWhile isSpace = strip text ++ blank ∧ ∀ c ∈ blank, isSpace c = true := by
  refine ⟨((text.dropWhile isSpace).reverse.takeWhile isSpace).reverse, ?_, fun c hc =>
    List.mem_takeWhile_imp (List.mem_reverse.mp hc)⟩
  rw [strip, ← List.reverse_append, List.takeWhile_append_dropWhile, List.reverse_reverse]

/-! ## Streams -/

/-- A line of a stream: data, or an empty line, a comment or another field. -/
inductive Line where
  | data (pad : Nat) (json : Text)
  | field (text : Text)

def Line.text : Line → Text
  | .data pad json => "data:".toList ++ (List.replicate pad ' ' ++ json)
  | .field text => text

theorem Line.data_append (pad : Nat) (text more : Text) :
    (Line.data pad (text ++ more)).text = (Line.data pad text).text ++ more := by
  rw [Line.text, Line.text, List.append_assoc, List.append_assoc]

def stream (lines : List (Line × Text)) : Text := lines.flatMap fun line => line.1.text ++ line.2

def fieldNames : List Text := ["event:".toList, "id:".toList, "retry:".toList, ":".toList]

/-- An object on one line. -/
structure Serialized (format : Json.FloatFormat) (json : Text) (dict : Json.Dict) : Prop where
  braces : ∃ inner, json = '{' :: inner ++ ['}']
  oneLine : ∀ c ∈ json, c ≠ '\n' ∧ c ≠ '\r'
  loads : Json.loads format json = some (.obj dict)

/-- What a line holds, if it is not the one of the response: a notification, or no data. -/
def Line.Other (format : Json.FloatFormat) : Line → Prop
  | .data _ json => ∃ dict, Serialized format json dict ∧ dict.get? "id".toList = none ∧
      dict.get? "result".toList = none
  | .field text => Unbroken text ∧
      (text = [] ∨ ∃ name ∈ fieldNames, startsWith text name = true)

def EndsLine (eol : Text) : Prop := eol ≠ [] ∧ ∀ c ∈ eol, c = '\n' ∨ c = '\r'

theorem EndsLine.breaks {eol : Text} (h : EndsLine eol) : ∀ c ∈ eol, isLineBreak c = true := by
  intro c hc
  rcases h.2 c hc with rfl | rfl <;> decide

theorem dataLines_stream {lines : List (Line × Text)} (h : ∀ line ∈ lines, EndsLine line.2) :
    dataLines (stream lines) = lines.flatMap fun line => dataLines line.1.text := by
  induction lines with
  | nil => rfl
  | cons line lines ih =>
    obtain ⟨hLine, hMore⟩ := List.forall_mem_cons.mp h
    rw [stream, List.flatMap_cons, List.flatMap_cons, List.append_assoc,
      dataLines_append_eol hLine.1 hLine.breaks, ← ih hMore]
    rfl

def Line.Opens (line : Line) : Prop :=
  line.text = [] ∨ ∃ c rest, line.text = c :: rest ∧ isSpace c = false ∧ c ≠ '{'

theorem Line.opens_data (pad : Nat) (json : Text) : (Line.data pad json).Opens :=
  Or.inr ⟨'d', _, rfl, by decide, by decide⟩

theorem Line.Other.opens {format : Json.FloatFormat} {line : Line} (h : line.Other format) :
    line.Opens := by
  cases line with
  | data pad json => exact Line.opens_data pad json
  | field text =>
    rcases h.2 with rfl | ⟨name, hName, hStart⟩
    · exact Or.inl rfl
    · obtain ⟨rest, rfl⟩ := List.isPrefixOf_iff_prefix.mp hStart
      have hNames : ∀ name ∈ fieldNames, ∃ c more, name = c :: more ∧ isSpace c = false ∧ c ≠ '{' := by
        intro name hName
        simp only [fieldNames, List.mem_cons, List.not_mem_nil, or_false] at hName
        rcases hName with rfl | rfl | rfl | rfl <;> exact ⟨_, _, rfl, by decide, by decide⟩
      obtain ⟨c, more, rfl, hSpace, hBrace⟩ := hNames name hName
      exact Or.inr ⟨c, more ++ rest, rfl, hSpace, hBrace⟩

/-- Blank lines at the start are stripped, and neither data nor a brace. -/
theorem dropWhile_stream {lines : List (Line × Text)} (hEol : ∀ line ∈ lines, EndsLine line.2)
    (hOpens : ∀ line ∈ lines, line.1.Opens) :
    dataLines ((stream lines).dropWhile isSpace) = dataLines (stream lines) ∧
      ((stream lines).dropWhile isSpace).head? ≠ some '{' := by
  induction lines with
  | nil => exact ⟨rfl, by simp [stream]⟩
  | cons line lines ih =>
    obtain ⟨hLine, hMore⟩ := List.forall_mem_cons.mp hEol
    obtain ⟨hFirst, hOthers⟩ := List.forall_mem_cons.mp hOpens
    have hStream : stream (line :: lines) = line.1.text ++ (line.2 ++ stream lines) := by
      rw [stream, List.flatMap_cons, List.append_assoc]
      rfl
    rw [hStream]
    rcases hFirst with hEmpty | ⟨c, rest, hText, hSpace, hBrace⟩
    · have hSpaces : ∀ c ∈ line.2, isSpace c = true := fun c hc =>
        isSpace_of_isLineBreak (hLine.breaks c hc)
      rw [hEmpty, List.nil_append, List.dropWhile_append_of_pos hSpaces,
        dataLines_breaks hLine.breaks]
      exact ih hMore hOthers
    · rw [hText, List.cons_append, List.dropWhile_cons_of_neg (by simp [hSpace])]
      exact ⟨rfl, by simpa using hBrace⟩

/-- The body of a stream is stripped, but its data lines are those of its lines. -/
theorem strip_stream {lines : List (Line × Text)} (hEol : ∀ line ∈ lines, EndsLine line.2)
    (hOpens : ∀ line ∈ lines, line.1.Opens) :
    dataLines (strip (stream lines)) = lines.flatMap (fun line => dataLines line.1.text) ∧
      startsWith (strip (stream lines)) ['{'] = false := by
  obtain ⟨hData, hHead⟩ := dropWhile_stream hEol hOpens
  obtain ⟨blank, hCut, hBlank⟩ := strip_cut (stream lines)
  rw [hCut] at hData hHead
  constructor
  · rw [← dataLines_stream hEol, ← hData, dataLines_append_spaces _ hBlank]
  · rw [startsWith, Bool.eq_false_iff]
    intro hPrefix
    obtain ⟨rest, hRest⟩ := List.isPrefixOf_iff_prefix.mp hPrefix
    rw [← hRest] at hHead
    exact hHead rfl

/-! ## A line of data -/

theorem space_ne_mark {c : Char} (h : isSpace c = true) : c ≠ '"' ∧ c ≠ '\\' := by
  constructor <;> rintro rfl <;> cases h

theorem strip_between (text : Text) :
    ∃ before after, text = before ++ (strip text ++ after) ∧
      (∀ c ∈ before, isSpace c = true) ∧ ∀ c ∈ after, isSpace c = true := by
  obtain ⟨blank, hCut, hBlank⟩ := strip_cut text
  refine ⟨text.takeWhile isSpace, blank, ?_, fun c hc => List.mem_takeWhile_imp hc, hBlank⟩
  rw [← hCut, List.takeWhile_append_dropWhile]

variable {format : Json.FloatFormat} {json : Text} {dict : Json.Dict}

theorem strip_pad (pad : Nat) (h : Serialized format json dict) :
    strip (List.replicate pad ' ' ++ json) = json := by
  have hPad : ∀ c ∈ List.replicate pad ' ', isSpace c = true := by
    intro c hc
    rw [List.eq_of_mem_replicate hc]
    decide
  obtain ⟨inner, rfl⟩ := h.braces
  have hEnds : strip ('{' :: inner ++ ['}'] ++ []) = '{' :: inner ++ ['}'] :=
    strip_of_ends (by decide) (by decide) (by simp)
  rw [List.append_nil] at hEnds
  rw [strip, List.dropWhile_append_of_pos hPad]
  exact hEnds

theorem unbroken_data (pad : Nat) {text : Text} (h : Unbroken text) :
    Unbroken (Line.data pad text).text := by
  have hName : Unbroken "data:".toList := by decide
  refine List.forall_mem_append.mpr ⟨hName, List.forall_mem_append.mpr ⟨fun c hc => ?_, h⟩⟩
  rw [List.eq_of_mem_replicate hc]
  decide

/-- The data line that a line of data starts with. -/
theorem dataLines_data_unbroken (pad : Nat) {text : Text} (h : Unbroken text) :
    dataLines (Line.data pad text).text = [strip (List.replicate pad ' ' ++ text)] := by
  have hStart : startsWith (Line.data pad text).text "data:".toList = true :=
    List.isPrefixOf_iff_prefix.mpr (List.prefix_append _ _)
  rw [dataLines_of_unbroken (unbroken_data pad h), hStart]
  rfl

theorem dataLines_field {text : Text} (h : (Line.field text).Other format) :
    dataLines text = [] := by
  rw [dataLines_of_unbroken h.1, if_neg]
  rcases h.2 with rfl | ⟨name, hName, hStart⟩
  · decide
  · obtain ⟨rest, rfl⟩ := List.isPrefixOf_iff_prefix.mp hStart
    simp only [fieldNames, List.mem_cons, List.not_mem_nil, or_false] at hName
    rcases hName with rfl | rfl | rfl | rfl <;> simp [startsWith, List.isPrefixOf]

/-! ## Broken lines -/

theorem Serialized.rawBreak (h : Serialized format json dict) {c : Char} (hc : c ∈ json)
    (hBreak : isLineBreak c = true) : Json.isRawBreak c = true := by
  obtain ⟨hNewline, hReturn⟩ := h.oneLine c hc
  simp [Json.isRawBreak, hBreak, hNewline, hReturn]

/-- What ends within a string is no document, stripped or not. -/
theorem loads_strip_inside {text : Text} (h : Json.Place.outside.after text = .inside) :
    Json.loads format (strip text) = none := by
  obtain ⟨before, after, hText, hBefore, hAfter⟩ := strip_between text
  rw [Option.eq_none_iff_forall_not_mem]
  intro v hLoads
  rw [hText, Json.Place.after_append, Json.Place.after_append,
    Json.Place.after_outside fun c hc => (space_ne_mark (hBefore c hc)).1, Json.loads_after hLoads,
    Json.Place.after_outside fun c hc => (space_ne_mark (hAfter c hc)).1] at h
  cases h

/-- Each line of a text that starts within a string does so. -/
theorem lines_inString {text : Text} (h : Json.InString text)
    (hBreaks : ∀ c ∈ text, isLineBreak c = true → Json.isRawBreak c = true) :
    ∀ line ∈ nonblankLines text, ∃ more, Json.InString (line ++ more) := by
  induction hLength : text.length using Nat.strong_induction_on generalizing text with
  | _ length ih =>
    subst hLength
    rcases unbroken_or_firstLine text with hUnbroken | ⟨line, c, rest, rfl, hLine, hBreak⟩
    · intro line hMem
      rw [nonblankLines_of_unbroken hUnbroken] at hMem
      split at hMem
      · cases hMem
      · rw [List.mem_singleton.mp hMem]
        exact ⟨[], by rwa [List.append_nil]⟩
    · intro line' hMem
      rw [nonblankLines_append_break line rest hBreak, nonblankLines_of_unbroken hLine] at hMem
      rcases List.mem_append.mp hMem with hMem | hMem
      · split at hMem
        · cases hMem
        · rw [List.mem_singleton.mp hMem]
          exact ⟨c :: rest, h⟩
      · have hRaw : Json.isRawBreak c = true := hBreaks c (by simp) hBreak
        refine ih rest.length ?_ (h.cut hRaw) (fun d hd => hBreaks d (by simp [hd])) rfl line' hMem
        simp
        omega

theorem dataLines_inString {text : Text} (h : Json.InString text)
    (hBreaks : ∀ c ∈ text, isLineBreak c = true → Json.isRawBreak c = true) :
    ∀ piece ∈ dataLines text, ∃ more, Json.InString (piece ++ more) := by
  intro piece hPiece
  obtain ⟨line, hLine, rfl⟩ := List.mem_map.mp hPiece
  obtain ⟨hMem, hStart⟩ := List.mem_filter.mp hLine
  obtain ⟨more, hIn⟩ := lines_inString h hBreaks line hMem
  obtain ⟨rest, rfl⟩ := List.isPrefixOf_iff_prefix.mp hStart
  have hDrop : ("data:".toList ++ rest).drop 5 = rest := rfl
  obtain ⟨before, after, hRest, hBefore, _⟩ := strip_between rest
  rw [hDrop]
  have hHead : ∀ c ∈ "data:".toList ++ before, c ≠ '"' ∧ c ≠ '\\' :=
    List.forall_mem_append.mpr
      ⟨List.forall_iff_forall_mem.mp (by decide), fun c hc => space_ne_mark (hBefore c hc)⟩
  refine ⟨after ++ more, Json.InString.drop hHead ?_⟩
  rw [hRest] at hIn
  simpa using hIn

theorem isResponse_of_mem {dict : Json.Dict} (h : isResponse dict = true) :
    Json.codes "id".toList ∈ (Json.Value.obj dict).keys ∨
      Json.codes "result".toList ∈ (Json.Value.obj dict).keys := by
  have hMem : ∀ key : Text, (dict.get? key).isSome = true →
      Json.codes key ∈ (Json.Value.obj dict).keys := by
    intro key hSome
    obtain ⟨value, hLookup⟩ := Option.isSome_iff_exists.mp hSome
    obtain ⟨before, after, hDict, _⟩ := List.lookup_eq_some_iff.mp hLookup
    rw [hDict]
    simp [Json.Value.keys]
  exact (Bool.or_eq_true_iff.mp h).imp (hMem _) (hMem _)

/-- None of the lines that a broken line of data falls into is read as a response. -/
theorem broken_no_response (pad : Nat) (h : Serialized format json dict)
    (hBroken : ¬ Unbroken json) :
    ∀ piece ∈ dataLines (Line.data pad json).text, ∀ dict',
      Json.loads format piece = some (.obj dict') → isResponse dict' = false := by
  obtain ⟨pre, c, post, rfl, hPre, hBreak⟩ := (unbroken_or_firstLine json).resolve_left hBroken
  have hRaw := h.rawBreak (c := c) (by simp) hBreak
  obtain ⟨hInside, hPost⟩ := Json.loads_cut hRaw h.loads
  intro piece hPiece dict' hLoads
  rw [Line.data_append, dataLines_append_break _ _ hBreak, dataLines_data_unbroken pad hPre] at hPiece
  rcases List.mem_append.mp hPiece with hFirst | hLater
  · have hPad : Json.Place.outside.after (List.replicate pad ' ' ++ pre) = .inside := by
      rw [Json.Place.after_append, Json.Place.after_outside, hInside]
      intro d hd
      rw [List.eq_of_mem_replicate hd]
      decide
    rw [List.mem_singleton.mp hFirst, loads_strip_inside hPad] at hLoads
    cases hLoads
  · obtain ⟨more, hIn⟩ := dataLines_inString hPost
      (fun d hd hd' => h.rawBreak (by simp [hd]) hd') piece hLater
    rw [Bool.eq_false_iff]
    intro hResponse
    rcases isResponse_of_mem hResponse with hKey | hKey
    · exact Json.loads_inString hLoads hIn (List.forall_iff_forall_mem.mp (by decide)) hKey
    · exact Json.loads_inString hLoads hIn (List.forall_iff_forall_mem.mp (by decide)) hKey

/-! ## The scan -/

section Scan

variable (loads : Json.Str → Except LoadError Json.Value)

/-- What the first of the lines raises that is more than no JSON. -/
def firstRaise : List Text → Option Text
  | [] => none
  | line :: lines =>
    match loads (Json.codes line) with
    | .error (.other exc) => some exc
    | .ok _ | .error (.decode _) => firstRaise lines

/-- `json.loads` on a text: it reads what is a document, or gives up on it (too deep a nesting,
too many digits). -/
structure Decodes (format : Json.FloatFormat) : Prop where
  sound : ∀ {text : Text} {v : Json.Value}, loads (Json.codes text) = .ok v →
    Json.loads format text = some v
  complete : ∀ {text : Text} {v : Json.Value}, Json.loads format text = some v →
    loads (Json.codes text) = .ok v ∨ ∃ exc, loads (Json.codes text) = .error (.other exc)

variable {loads}

/-- Lines without a response are passed over, unless one raises. -/
theorem responseLine_append {lines : List Text}
    (h : ∀ line ∈ lines, ∀ dict, loads (Json.codes line) = .ok (.obj dict) →
      isResponse dict = false) (more : List Text) :
    responseLine loads (lines ++ more) =
      match firstRaise loads lines with
      | some exc => .error (.escaped exc)
      | none => responseLine loads more := by
  induction lines with
  | nil => rfl
  | cons line lines ih =>
    obtain ⟨hLine, hLines⟩ := List.forall_mem_cons.mp h
    rw [List.cons_append, responseLine, firstRaise]
    cases hLoads : loads (Json.codes line) with
    | error cause =>
      cases cause with
      | decode exc => exact ih hLines
      | other exc => rfl
    | ok v =>
      cases v with
      | obj dict =>
        dsimp only
        rw [hLine dict hLoads, if_neg (by decide)]
        exact ih hLines
      | _ => exact ih hLines

def dataOf (lines : List (Line × Text)) : List Text :=
  lines.flatMap fun line => dataLines line.1.text

theorem other_no_response (hLoads : Decodes loads format) {lines : List (Line × Text)}
    (h : ∀ line ∈ lines, line.1.Other format) :
    ∀ piece ∈ dataOf lines, ∀ dict, loads (Json.codes piece) = .ok (.obj dict) →
      isResponse dict = false := by
  intro piece hPiece dict' hOk
  obtain ⟨⟨line, eol⟩, hMem, hLine⟩ := List.mem_flatMap.mp hPiece
  have hOther : line.Other format := h _ hMem
  cases line with
  | field text =>
    have hNone : dataLines (Line.field text).text = [] := dataLines_field hOther
    rw [hNone] at hLine
    cases hLine
  | data pad json =>
    obtain ⟨dict, hSerialized, hId, hResult⟩ := hOther
    by_cases hUnbroken : Unbroken json
    · rw [dataLines_data_unbroken pad hUnbroken, strip_pad pad hSerialized,
        List.mem_singleton] at hLine
      have hSame := hLoads.sound hOk
      rw [hLine, hSerialized.loads] at hSame
      cases hSame
      rw [isResponse, hId, hResult]
      rfl
    · exact broken_no_response pad hSerialized hUnbroken piece hLine dict' (hLoads.sound hOk)

/-- The data lines that are read in vain: those after the response, or all of them if it is
broken. -/
def passed (before after : List (Line × Text)) (pad : Nat) (response : Text) : List Text :=
  if Unbroken response then (dataOf after).reverse
  else (dataOf after).reverse ++ ((dataLines (Line.data pad response).text).reverse ++
    (dataOf before).reverse)

def noResponse : Failure := .cli "no JSON-RPC response in SSE stream".toList

def scanned : Except Failure (Option Json.Value) → Except Failure Json.Value
  | .ok (some envelope) => .ok envelope
  | .ok none => .error noResponse
  | .error failure => .error failure

theorem dataLines_data_ne_nil (pad : Nat) (text : Text) :
    dataLines (Line.data pad text).text ≠ [] := by
  rcases unbroken_or_firstLine text with hUnbroken | ⟨line, c, rest, rfl, hLine, hBreak⟩
  · rw [dataLines_data_unbroken pad hUnbroken]
    exact List.cons_ne_nil _ _
  · rw [Line.data_append, dataLines_append_break _ _ hBreak, dataLines_data_unbroken pad hLine]
    exact List.cons_ne_nil _ _

theorem parseEnvelope_bare (loads : Json.Str → Except LoadError Json.Value)
    (h : Serialized format json dict) :
    parseEnvelope loads json =
      match loads (Json.codes json) with
      | .ok envelope => .ok envelope
      | .error (.decode exc) =>
        .error (.cli ("broker response is not valid JSON: ".toList ++ exc))
      | .error (.other exc) => .error (.escaped exc) := by
  have hStrip : strip json = json := strip_pad 0 h
  have hBrace : startsWith json ['{'] = true := by
    obtain ⟨inner, rfl⟩ := h.braces
    rfl
  rw [parseEnvelope, hStrip, hBrace]
  exact if_pos rfl

theorem parseEnvelope_stream (hLoads : Decodes loads format) {before after : List (Line × Text)}
    (pad : Nat) {eol response : Text} (hResponse : Serialized format response dict)
    (hIs : isResponse dict = true) (hEol : EndsLine eol)
    (hBefore : ∀ line ∈ before, line.1.Other format ∧ EndsLine line.2)
    (hAfter : ∀ line ∈ after, line.1.Other format ∧ EndsLine line.2) :
    parseEnvelope loads (stream (before ++ (.data pad response, eol) :: after)) =
      match firstRaise loads (passed before after pad response) with
      | some exc => .error (.escaped exc)
      | none => if Unbroken response then parseEnvelope loads response
          else .error noResponse := by
  have hOther : (Line.data pad response).Opens := Line.opens_data pad response
  have hAllEol : ∀ line ∈ before ++ (Line.data pad response, eol) :: after, EndsLine line.2 := by
    refine List.forall_mem_append.mpr ⟨fun line hMem => (hBefore line hMem).2, ?_⟩
    exact List.forall_mem_cons.mpr ⟨hEol, fun line hMem => (hAfter line hMem).2⟩
  have hAllOpen : ∀ line ∈ before ++ (Line.data pad response, eol) :: after, line.1.Opens := by
    refine List.forall_mem_append.mpr ⟨fun line hMem => (hBefore line hMem).1.opens, ?_⟩
    exact List.forall_mem_cons.mpr ⟨hOther, fun line hMem => (hAfter line hMem).1.opens⟩
  obtain ⟨hData, hBrace⟩ := strip_stream hAllEol hAllOpen
  rw [List.flatMap_append, List.flatMap_cons] at hData
  have hReverse : (dataLines (strip (stream (before ++ (.data pad response, eol) :: after)))).reverse =
      (dataOf after).reverse ++ ((dataLines (Line.data pad response).text).reverse ++
        (dataOf before).reverse) := by
    rw [hData, List.reverse_append, List.reverse_append, List.append_assoc]
    rfl
  have hNonempty : dataLines (strip (stream (before ++ (.data pad response, eol) :: after))) ≠ [] := by
    intro hNil
    rw [hNil] at hReverse
    simp [dataLines_data_ne_nil] at hReverse
  have hAfterNone := other_no_response hLoads fun line hMem => (hAfter line hMem).1
  have hBeforeNone := other_no_response hLoads fun line hMem => (hBefore line hMem).1
  have hScan : parseEnvelope loads (stream (before ++ (.data pad response, eol) :: after)) =
      scanned (responseLine loads ((dataOf after).reverse ++
        ((dataLines (Line.data pad response).text).reverse ++ (dataOf before).reverse))) := by
    rw [parseEnvelope, hBrace, if_neg (by decide), if_neg hNonempty, hReverse]
    rfl
  rw [hScan]
  by_cases hUnbroken : Unbroken response
  · have hOne : (dataLines (Line.data pad response).text).reverse = [response] := by
      rw [dataLines_data_unbroken pad hUnbroken, strip_pad pad hResponse]
      rfl
    rw [hOne, passed, if_pos hUnbroken, if_pos hUnbroken, parseEnvelope_bare loads hResponse,
      responseLine_append fun line hMem => hAfterNone line (List.mem_reverse.mp hMem)]
    cases firstRaise loads (dataOf after).reverse with
    | some exc => rfl
    | none =>
      dsimp only
      rw [List.singleton_append, responseLine]
      rcases hLoads.complete hResponse.loads with hOk | ⟨exc, hRaise⟩
      · rw [hOk]
        dsimp only
        rw [if_pos hIs]
        rfl
      · rw [hRaise]
        rfl
  · have hNone : ∀ line ∈ passed before after pad response, ∀ dict,
        loads (Json.codes line) = .ok (.obj dict) → isResponse dict = false := by
      rw [passed, if_neg hUnbroken]
      refine List.forall_mem_append.mpr ⟨fun line hMem => hAfterNone line (List.mem_reverse.mp hMem),
        List.forall_mem_append.mpr ⟨fun line hMem dict' hOk => ?_,
          fun line hMem => hBeforeNone line (List.mem_reverse.mp hMem)⟩⟩
      exact broken_no_response pad hResponse hUnbroken line (List.mem_reverse.mp hMem) dict'
        (hLoads.sound hOk)
    have hAll := responseLine_append hNone []
    rw [List.append_nil] at hAll
    rw [if_neg hUnbroken]
    rw [passed, if_neg hUnbroken] at hAll ⊢
    rw [hAll]
    cases firstRaise loads _ with
    | some exc => rfl
    | none => rfl

/-! ## Agreement -/

theorem members_ne_cli (v : Json.Value) (message : Text) : members v ≠ .error (.cli message) := by
  cases v <;> simp [members]

theorem toolResult_ne_cli (result : Json.Dict) (message : Text) :
    toolResult loads result ≠ .error (.cli message) := by
  rw [toolResult]
  split
  · rename_i first _ _
    cases hMembers : members first with
    | error failure =>
      intro hSame
      cases hSame
      exact members_ne_cli first message hMembers
    | ok part =>
      have hInner : ∀ inner, innerValue loads inner ≠ .error (.cli message) := by
        intro inner
        unfold innerValue
        split
        · split <;> simp
        · simp
      change (if truth (field part "text".toList .null) then
        innerValue loads (field part "text".toList .null) else pure (.obj result)) ≠ _
      split
      · exact hInner _
      · intro hSame
        cases hSame
  · intro hSame
    cases hSame

/-- A response never ends as a stream without one does. -/
theorem parseResponse_ne_noResponse (platform : Platform) (hLoads : Decodes loads format)
    (hResponse : Serialized format json dict) :
    parseResponse platform loads json ≠ .error noResponse := by
  rw [parseResponse, parseEnvelope_bare loads hResponse]
  rcases hLoads.complete hResponse.loads with hOk | ⟨exc, hRaise⟩
  · rw [hOk]
    change (if truth (field dict "error".toList .null) then _ else _) ≠ _
    split
    · intro hSame
      cases hSame
    · split
      · exact toolResult_ne_cli _ _
      · intro hSame
        cases hSame
  · rw [hRaise]
    intro hSame
    cases hSame

variable {before after : List (Line × Text)} {pad : Nat} {eol response : Text}

/-- None of the characters of the response ends a line, and no line read in vain raises more than
no JSON; or what such a line raises is what the bare text ends in. -/
def Undisturbed (loads : Json.Str → Except LoadError Json.Value) (vain : List Text)
    (response : Text) (bare : Except Failure Json.Value) : Prop :=
  match firstRaise loads vain with
  | none => Unbroken response
  | some exc => bare = .error (.escaped exc)

/-- Both framings of a response are read alike exactly when the reading is undisturbed. -/
theorem parseResponse_stream_iff (platform : Platform) (hLoads : Decodes loads format)
    (hResponse : Serialized format response dict) (hIs : isResponse dict = true)
    (hEol : EndsLine eol)
    (hBefore : ∀ line ∈ before, line.1.Other format ∧ EndsLine line.2)
    (hAfter : ∀ line ∈ after, line.1.Other format ∧ EndsLine line.2) :
    parseResponse platform loads (stream (before ++ (.data pad response, eol) :: after)) =
        parseResponse platform loads response ↔
      Undisturbed loads (passed before after pad response) response
        (parseResponse platform loads response) := by
  have hEnvelope := parseEnvelope_stream hLoads pad hResponse hIs hEol hBefore hAfter
  rw [parseResponse, hEnvelope, Undisturbed]
  cases firstRaise loads (passed before after pad response) with
  | some exc => exact eq_comm
  | none =>
    dsimp only
    by_cases hUnbroken : Unbroken response
    · rw [if_pos hUnbroken]
      exact ⟨fun _ => hUnbroken, fun _ => rfl⟩
    · rw [if_neg hUnbroken]
      refine ⟨fun hSame => ?_, fun h => absurd h hUnbroken⟩
      exact absurd hSame.symm (parseResponse_ne_noResponse platform hLoads hResponse)

end Scan

/-- `json.loads` where no document is too much for it. -/
def decodeText (format : Json.FloatFormat) (s : Json.Str) : Except LoadError Json.Value :=
  match Json.loads format (s.map Char.ofNat) with
  | some v => .ok v
  | none => .error (.decode "Expecting value".toList)

theorem decodeText_codes (format : Json.FloatFormat) (text : Text) :
    decodeText format (Json.codes text) =
      match Json.loads format text with
      | some v => .ok v
      | none => .error (.decode "Expecting value".toList) := by
  have hCodes : (Json.codes text).map Char.ofNat = text := by
    rw [Json.codes, List.map_map]
    exact (List.map_congr_left fun c _ => Char.ofNat_toNat c).trans (List.map_id _)
  rw [decodeText, hCodes]

theorem decodeText_decodes (format : Json.FloatFormat) : Decodes (decodeText format) format := by
  constructor
  · intro text v h
    rw [decodeText_codes] at h
    split at h
    · rename_i hLoads
      cases h
      exact hLoads
    · cases h
  · intro text v h
    rw [decodeText_codes, h]
    exact Or.inl rfl

theorem firstRaise_decodeText (format : Json.FloatFormat) (lines : List Text) :
    firstRaise (decodeText format) lines = none := by
  induction lines with
  | nil => rfl
  | cons line lines ih =>
    rw [firstRaise, decodeText_codes]
    split
    · rename_i hRaise
      split at hRaise <;> cases hRaise
    · exact ih
    · exact ih

def ping : Text := "\x7b\"method\": \"ping\"\x7d".toList

def answer (c : Char) : Text := "\x7b\"id\": 1, \"result\": \x7b\"a\": \"".toList ++
  c :: "\"\x7d\x7d".toList

def answerDict (c : Char) : Json.Dict :=
  [(Json.codes "id".toList, .int 1),
    (Json.codes "result".toList, .obj [(Json.codes "a".toList, .ofText [c])])]

theorem serialized_ping : Serialized .verbatim ping
    [(Json.codes "method".toList, .ofText "ping".toList)] where
  braces := ⟨"\"method\": \"ping\"".toList, rfl⟩
  oneLine := List.forall_iff_forall_mem.mp (by decide)
  loads := by
    refine Json.loads_of_dumps ?_ (by decide +kernel)
    rw [Json.Canonical, Json.CanonicalMembers, Json.CanonicalMembers]
    exact ⟨⟨⟨Json.wellFormed_codes _, Json.wellFormed_codes _⟩, trivial⟩, List.pairwise_singleton _ _⟩

theorem canonical_answer (c : Char) : Json.Canonical .verbatim (.obj (answerDict c)) := by
  simp [answerDict, Json.Canonical, Json.CanonicalMembers, Json.Value.ofText, Json.wellFormed_codes,
    Json.Dict.Sorted, Json.maxIntDigits]
  exact ⟨by decide, by decide⟩

theorem serialized_answer {c : Char} (hc : c = 'x' ∨ c = '\u2028') :
    Serialized .verbatim (answer c) (answerDict c) where
  braces := ⟨"\"id\": 1, \"result\": \x7b\"a\": \"".toList ++ c :: "\"\x7d".toList, rfl⟩
  oneLine := by rcases hc with rfl | rfl <;> exact List.forall_iff_forall_mem.mp (by decide)
  loads := by
    refine Json.loads_of_dumps (canonical_answer c) ?_
    rcases hc with rfl | rfl <;> decide +kernel

theorem endsLine_blank : EndsLine "\n\n".toList :=
  ⟨by decide, List.forall_iff_forall_mem.mp (by decide)⟩

theorem endsLine_blank_crlf : EndsLine "\r\n\r\n".toList :=
  ⟨by decide, List.forall_iff_forall_mem.mp (by decide)⟩

theorem parseResponse_stream_iff_ping :
    parseResponse plainPlatform (decodeText .verbatim) (stream
        ([(.data 1 ping, "\n\n".toList)] ++ (.data 1 (answer 'x'), "\r\n\r\n".toList) ::
          [(.field "event: message".toList, "\n".toList), (.data 0 ping, "\n\n".toList)])) =
        parseResponse plainPlatform (decodeText .verbatim) (answer 'x') ↔
      Undisturbed (decodeText .verbatim) (passed [(.data 1 ping, "\n\n".toList)]
          [(.field "event: message".toList, "\n".toList), (.data 0 ping, "\n\n".toList)]
          1 (answer 'x')) (answer 'x')
        (parseResponse plainPlatform (decodeText .verbatim) (answer 'x')) := by
  have hPing : ∀ pad, (Line.data pad ping).Other .verbatim := fun _ =>
    ⟨_, serialized_ping, rfl, rfl⟩
  have hEvent : (Line.field "event: message".toList).Other .verbatim :=
    ⟨by decide, Or.inr ⟨"event:".toList, by decide, rfl⟩⟩
  refine parseResponse_stream_iff plainPlatform (decodeText_decodes _)
    (serialized_answer (Or.inl rfl)) rfl endsLine_blank_crlf ?_ ?_
  · simpa [EndsLine] using hPing 1
  · simpa [EndsLine] using ⟨hEvent, hPing 0⟩

/-- A line separator in the result is lost on the stream. -/
theorem separator_broken :
    parseResponse plainPlatform (decodeText .verbatim)
        (stream [(.data 1 (answer '\u2028'), "\n\n".toList)]) = .error noResponse ∧
      parseResponse plainPlatform (decodeText .verbatim) (answer '\u2028') =
        .ok (.obj [(Json.codes "a".toList, .ofText ['\u2028'])]) := by
  have hAnswer := serialized_answer (c := '\u2028') (Or.inr rfl)
  constructor
  · have hEnvelope : parseEnvelope (decodeText .verbatim)
        (stream ([] ++ [(.data 1 (answer '\u2028'), "\n\n".toList)])) = _ :=
      parseEnvelope_stream (decodeText_decodes .verbatim) 1 hAnswer rfl endsLine_blank (by simp)
        (by simp)
    rw [firstRaise_decodeText] at hEnvelope
    dsimp only at hEnvelope
    rw [List.nil_append, if_neg (by decide)] at hEnvelope
    rw [parseResponse, hEnvelope]
    rfl
  · rw [parseResponse, parseEnvelope_bare _ hAnswer, decodeText_codes, hAnswer.loads]
    rfl

end AccessBroker.Cli
