import AccessBroker.Library.Brackets
import AccessBroker.Paths.FixedPoints

/-! # What normalization computes

The component loop matches each `..` with the nearest name before it that is not matched yet,
and refuses if there is none. So a normalized path is made of the names that no `..` cancels,
and whatever decoding put into them is still there: control characters, and escapes that were
encoded too deeply.
-/

namespace AccessBroker.Paths
open Py
set_option autoImplicit false

def isUp (component : Text) : Bool := component == ['.', '.']

def segments (path : Text) : List Text :=
  (components path).filter fun component => decide (¬ (component = [] ∨ component = ['.']))

def decodedForm (raw : Text) : Text := (percentDecode raw).map foldBackslash

/-- The names of the decoded form that no `..` cancels. -/
def keptNames (raw : Text) : List Text := Brackets.unmatched isUp (segments (decodedForm raw))

structure Accepted (raw : Text) : Prop where
  blank : ¬ isBlank raw = true
  length : raw.length ≤ maxPathLength
  control : ¬ raw.any isControl = true

/-- Some prefix of the components has more `..` than names. -/
def Climbs (path : Text) : Prop :=
  ∃ head, head <+: segments path ∧ Brackets.openings isUp head < Brackets.closings isUp head

structure Canonical (path : Text) : Prop where
  join : ∃ parts, path = joinPath parts ∧ ∀ part ∈ parts, Plain part ∧ '/' ∉ part
  backslash : '\\' ∉ path
  control : ∀ c ∈ path, isControl c = false

/-- Nothing is left in the names that a second normalization would act on. -/
structure Settled (raw : Text) : Prop where
  control : ∀ name ∈ keptNames raw, ∀ c ∈ name, isControl c = false
  escapes : ∀ name ∈ keptNames raw, ¬ Escaped name
  blank : ∀ name, keptNames raw = [name] → ¬ isBlank name = true

/-! ## The component loop -/

instance (path : Text) : Decidable (Climbs path) :=
  inferInstanceAs (Decidable (Brackets.Overdrawn isUp 0 (segments path)))

theorem climbs_iff (path : Text) : Climbs path ↔ Brackets.Overdrawn isUp 0 (segments path) := Iff.rfl

theorem resolveComponents_eq (parts comps : List Text) :
    resolveComponents parts comps = Brackets.reduce isUp parts
      (comps.filter fun component => decide (¬ (component = [] ∨ component = ['.']))) := by
  induction comps generalizing parts with
  | nil => rfl
  | cons component comps ih =>
    rw [resolveComponents]
    by_cases hSkipped : component = [] ∨ component = ['.']
    · have hOut : ¬ decide (¬ (component = [] ∨ component = ['.'])) = true := by
        rw [decide_eq_true_eq]
        exact not_not_intro hSkipped
      rw [if_pos hSkipped, List.filter_cons, if_neg hOut, ih]
    · rw [if_neg hSkipped, List.filter_cons, if_pos (decide_eq_true hSkipped), Brackets.reduce]
      simp only [ih, isUp, beq_iff_eq]

theorem normalizePath_eq {raw : Text} (h : Accepted raw) : normalizePath raw =
    if Brackets.Overdrawn isUp 0 (segments (decodedForm raw)) then none
    else some (joinPath (keptNames raw)) := by
  rw [normalizePath, if_neg h.blank, if_neg (Nat.not_lt.mpr h.length), if_neg h.control,
    resolveComponents_eq]
  change (Brackets.reduce isUp [] (segments (decodedForm raw))).map joinPath = _
  rw [Brackets.reduce_eq (by simp), List.length_nil, List.nil_append]
  split <;> rfl

theorem accepted_of_normalizePath {raw path : Text} (h : normalizePath raw = some path) :
    Accepted raw := by
  obtain ⟨hBlank, hLength, hControl, _⟩ := normalizePath_resolved h
  exact ⟨hBlank, hLength, hControl⟩

/-- A normalized path is the join of the names that are kept. -/
theorem normalizePath_kept {raw path : Text} (h : normalizePath raw = some path) :
    path = joinPath (keptNames raw) := by
  rw [normalizePath_eq (accepted_of_normalizePath h)] at h
  split at h
  · cases h
  · exact (Option.some.inj h).symm

theorem keptNames_plain {raw name : Text} (h : name ∈ keptNames raw) :
    Plain name ∧ '/' ∉ name ∧ '\\' ∉ name := by
  obtain ⟨hMem, hName⟩ := Brackets.mem_unmatched h
  obtain ⟨hComponent, hCounts⟩ := List.mem_filter.mp hMem
  have hCounts := of_decide_eq_true hCounts
  rw [not_or] at hCounts
  exact ⟨⟨hCounts.1, hCounts.2, by simpa [isUp] using hName⟩, mem_components_folded hComponent⟩

/-- Dot segments are resolved exactly, and a suffix that leaves a folder climbs above it. -/
structure ResolvesExactly : Prop where
  refuses : ∀ raw, Accepted raw → (normalizePath raw = none ↔ Climbs (decodedForm raw))
  keeps : ∀ raw, Accepted raw → normalizePath raw ≠ none →
    normalizePath raw = some (joinPath (keptNames raw))
  inside : ∀ folder suffix path, (∃ raw, normalizePath raw = some folder) → folder ≠ [] →
    '%' ∉ folder → '\\' ∉ folder → '%' ∉ suffix → '\\' ∉ suffix →
    normalizePath (folder ++ '/' :: suffix) = some path → inside folder path = false →
    Climbs suffix

/-! ## Joined names -/

theorem mem_joinPath {parts : List Text} {c : Char} (h : c ∈ joinPath parts) :
    c = '/' ∨ ∃ part ∈ parts, c ∈ part := by
  induction parts with
  | nil => cases h
  | cons part parts ih =>
    cases parts with
    | nil => exact Or.inr ⟨part, List.mem_cons_self, by simpa [joinPath] using h⟩
    | cons next parts =>
      rw [joinPath, List.intercalate_cons_cons, List.append_assoc, List.mem_append] at h
      rcases h with hPart | hRest
      · exact Or.inr ⟨part, List.mem_cons_self, hPart⟩
      · rcases List.mem_cons.mp hRest with hSlash | hRest
        · exact Or.inl hSlash
        · refine (ih hRest).imp id ?_
          rintro ⟨other, hOther, hMem⟩
          exact ⟨other, List.mem_cons_of_mem part hOther, hMem⟩

theorem mem_joinPath_of_mem {parts : List Text} {part : Text} {c : Char} (hPart : part ∈ parts)
    (hc : c ∈ part) : c ∈ joinPath parts := by
  induction parts with
  | nil => cases hPart
  | cons first parts ih =>
    cases parts with
    | nil =>
      cases List.mem_singleton.mp hPart
      simpa [joinPath] using hc
    | cons next parts =>
      rw [joinPath, List.intercalate_cons_cons, List.append_assoc, List.mem_append]
      rcases List.mem_cons.mp hPart with rfl | hRest
      · exact Or.inl hc
      · exact Or.inr (List.mem_cons_of_mem '/' (ih hRest))

theorem joinPath_controlFree {parts : List Text} :
    (∀ c ∈ joinPath parts, isControl c = false) ↔
      ∀ part ∈ parts, ∀ c ∈ part, isControl c = false := by
  constructor
  · exact fun h part hPart c hc => h c (mem_joinPath_of_mem hPart hc)
  · intro h c hc
    rcases mem_joinPath hc with rfl | ⟨part, hPart, hMem⟩
    · decide
    · exact h part hPart c hMem

theorem escaped_joinPath {parts : List Text} :
    Escaped (joinPath parts) ↔ ∃ part ∈ parts, Escaped part := by
  induction parts with
  | nil => exact iff_of_false not_escaped_nil (by simp)
  | cons part parts ih =>
    cases parts with
    | nil => simp [joinPath]
    | cons next parts =>
      rw [joinPath, List.intercalate_cons_cons, List.append_assoc, List.singleton_append,
        escaped_append_cons (by decide) (by decide), List.exists_mem_cons_iff, ← ih]
      rfl

theorem blank_joinPath {parts : List Text} (h : joinPath parts ≠ []) :
    isBlank (joinPath parts) = true ↔ ∃ part, parts = [part] ∧ isBlank part = true := by
  match parts with
  | [] => exact absurd rfl h
  | [part] => simp [joinPath]
  | part :: next :: parts =>
    refine iff_of_false (fun hBlank => ?_) (by simp)
    have hSlash : '/' ∈ joinPath (part :: next :: parts) := by
      rw [joinPath, List.intercalate_cons_cons]
      simp
    exact absurd (List.all_eq_true.mp hBlank '/' hSlash) (by decide)

/-- A normalized path is canonical exactly if no control character was decoded into a name of it. -/
theorem canonical_iff {raw path : Text} (h : normalizePath raw = some path) :
    Canonical path ↔ ∀ name ∈ keptNames raw, ∀ c ∈ name, isControl c = false := by
  have hKept := normalizePath_kept h
  rw [← joinPath_controlFree, ← hKept]
  refine ⟨Canonical.control, fun hControl => ⟨⟨keptNames raw, hKept, ?_⟩, ?_, hControl⟩⟩
  · exact fun name hName => ⟨(keptNames_plain hName).1, (keptNames_plain hName).2.1⟩
  · intro hSlash
    rw [hKept] at hSlash
    rcases mem_joinPath hSlash with hPlace | ⟨name, hName, hMem⟩
    · exact absurd hPlace (by decide)
    · exact (keptNames_plain hName).2.2 hMem

theorem canonical_iff_docs :
    Canonical "docs/a".toList ↔
      ∀ name ∈ keptNames "docs/./x/..%2Fa".toList, ∀ c ∈ name, isControl c = false :=
  canonical_iff (by decide +kernel)

/-- A control character that was encoded stays in the path. -/
theorem control_kept : normalizePath "a%01b".toList = some ['a', Char.ofNat 1, 'b'] ∧
    ¬ Canonical ['a', Char.ofNat 1, 'b'] :=
  ⟨by decide +kernel, fun h => absurd (h.control (Char.ofNat 1) (by decide)) (by decide)⟩

/-- A second normalization changes nothing exactly if the first has settled all names. -/
theorem idempotent_iff {raw path : Text} (h : normalizePath raw = some path) (hSome : path ≠ []) :
    normalizePath path = some path ↔ Settled raw := by
  have hKept := normalizePath_kept h
  have hControl : ¬ path.any isControl = true ↔ ∀ c ∈ path, isControl c = false := by simp
  rw [normalizePath_fixed_iff h]
  rw [hKept] at hControl hSome ⊢
  constructor
  · rintro ⟨hBlank, hClean, hDecoded⟩
    refine ⟨joinPath_controlFree.mp (hControl.mp hClean), fun name hName hEscaped => ?_, ?_⟩
    · exact (unquote_eq_iff _).mp hDecoded (escaped_joinPath.mpr ⟨name, hName, hEscaped⟩)
    · exact fun name hOnly hName => hBlank ((blank_joinPath hSome).mpr ⟨name, hOnly, hName⟩)
  · rintro ⟨hClean, hEscapes, hBlank⟩
    refine ⟨fun hAll => ?_, hControl.mpr (joinPath_controlFree.mpr hClean), ?_⟩
    · obtain ⟨name, hOnly, hName⟩ := (blank_joinPath hSome).mp hAll
      exact hBlank name hOnly hName
    · rw [unquote_eq_iff, escaped_joinPath]
      rintro ⟨name, hName, hEscaped⟩
      exact hEscapes name hName hEscaped

theorem idempotent_iff_docs :
    normalizePath "docs/a".toList = some "docs/a".toList ↔ Settled "docs/./x/..%2Fa".toList :=
  idempotent_iff (by decide +kernel) (by decide)

/-- An escape that takes five passes of decoding is decoded once more. -/
theorem decoded_again : normalizePath "%2525252541".toList = some "%41".toList ∧
    normalizePath "%41".toList = some "A".toList ∧ "A".toList ≠ "%41".toList := by decide +kernel

/-! ## Leaving a folder -/

theorem unquote_plain {text : Text} (h : '%' ∉ text) : unquote text = text := by
  rw [unquote_eq_iff]
  rintro ⟨high, low, _, _, hInfix⟩
  exact h (hInfix.subset (by simp))

theorem decodedForm_plain {text : Text} (hPercent : '%' ∉ text) (hSlash : '\\' ∉ text) :
    decodedForm text = text := by
  rw [decodedForm, percentDecode_stable (unquote_plain hPercent)]
  have hFree : ∀ c ∈ text, foldBackslash c = id c := by
    intro c hc
    rw [foldBackslash, if_neg]
    · rfl
    · rintro rfl
      exact hSlash hc
  rw [List.map_congr_left hFree, List.map_id]

theorem segments_append_cons (path suffix : Text) :
    segments (path ++ '/' :: suffix) = segments path ++ segments suffix := by
  rw [segments, components, List.splitOn_append_cons_self, List.filter_append]
  rfl

theorem segments_joinPath {parts : List Text} (hSome : parts ≠ [])
    (h : ∀ part ∈ parts, Plain part ∧ '/' ∉ part) : segments (joinPath parts) = parts := by
  rw [segments, components_joinPath hSome fun part hPart => (h part hPart).2,
    List.filter_eq_self.mpr]
  intro part hPart
  have hPlain := (h part hPart).1
  exact decide_eq_true (not_or.mpr ⟨hPlain.nonempty, hPlain.dot⟩)

theorem inside_joinPath {parts more : List Text} (hSome : parts ≠ [])
    (h : ∀ part ∈ parts ++ more, '/' ∉ part) :
    inside (joinPath parts) (joinPath (parts ++ more)) = true := by
  rw [inside_iff, Within, components_joinPath hSome fun part hPart => h part (by simp [hPart]),
    components_joinPath (by simp [hSome]) h]
  exact List.prefix_append parts more

theorem leaves_climbs {folder suffix path : Text} (hFolder : ∃ raw, normalizePath raw = some folder)
    (hSome : folder ≠ []) (hPercent : '%' ∉ folder) (hSlash : '\\' ∉ folder)
    (hPercent' : '%' ∉ suffix) (hSlash' : '\\' ∉ suffix)
    (hPath : normalizePath (folder ++ '/' :: suffix) = some path)
    (hOutside : inside folder path = false) : Climbs suffix := by
  obtain ⟨raw, hRaw⟩ := hFolder
  obtain ⟨parts, rfl, hParts⟩ := normalizePath_parts hRaw
  have hNames : parts ≠ [] := by
    rintro rfl
    exact hSome rfl
  have hPlain : decodedForm (joinPath parts ++ '/' :: suffix) = joinPath parts ++ '/' :: suffix := by
    apply decodedForm_plain
    · simpa using ⟨hPercent, hPercent'⟩
    · simpa using ⟨hSlash, hSlash'⟩
  have hOpen : ∀ part ∈ parts, isUp part = false := fun part hPart => by
    simpa [isUp] using (hParts part hPart).1.dots
  by_contra hClimbs
  have hKept : keptNames (joinPath parts ++ '/' :: suffix) =
      parts ++ Brackets.unmatched isUp (segments suffix) := by
    rw [keptNames, hPlain, segments_append_cons,
      segments_joinPath hNames fun part hPart => ⟨(hParts part hPart).1, (hParts part hPart).2.1⟩,
      Brackets.unmatched_openings_append hOpen hClimbs]
  have hFree : ∀ name ∈ parts ++ Brackets.unmatched isUp (segments suffix), '/' ∉ name := by
    rw [← hKept]
    exact fun name hName => (keptNames_plain hName).2.1
  rw [normalizePath_kept hPath, hKept, inside_joinPath hNames hFree] at hOutside
  cases hOutside

theorem resolves_exactly : ResolvesExactly where
  refuses raw hAccepted := by
    rw [normalizePath_eq hAccepted, climbs_iff]
    split
    · exact iff_of_true rfl ‹_›
    · exact iff_of_false nofun ‹_›
  keeps raw hAccepted hSome := by
    rw [normalizePath_eq hAccepted] at hSome ⊢
    split at hSome
    · exact absurd rfl hSome
    · exact if_neg ‹_›
  inside _ _ _ := leaves_climbs

/-- Nothing lies inside the root, whose path is empty. -/
theorem inside_root : normalizePath "a/..".toList = some [] ∧
    normalizePath ([] ++ '/' :: "b".toList) = some "b".toList ∧
    inside [] "b".toList = false ∧ ¬ Climbs "b".toList := by decide +kernel

end AccessBroker.Paths
