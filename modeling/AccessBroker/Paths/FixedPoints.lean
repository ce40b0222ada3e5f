import AccessBroker.Library.UnquoteLength
import AccessBroker.Paths

/-! # Paths that normalization keeps

A stored path has been normalized once. A second normalization keeps it exactly if it is
not blank, holds no control character and decodes no further.
-/

namespace AccessBroker.Paths
open Py
set_option autoImplicit false

/-- The path names something, and one pass of decoding finds nothing in it. -/
structure Stable (path : Text) : Prop where
  blank : ¬ isBlank path = true
  control : ¬ path.any isControl = true
  decoded : unquote path = path

structure Plain (component : Text) : Prop where
  nonempty : component ≠ []
  dot : component ≠ ['.']
  dots : component ≠ ['.', '.']

/-! ## Resolving -/

theorem resolveComponents_plain {parts rest : List Text} (h : ∀ component ∈ rest, Plain component) :
    resolveComponents parts rest = some (parts ++ rest) := by
  induction rest generalizing parts with
  | nil => rw [resolveComponents, List.append_nil]
  | cons component rest ih =>
    obtain ⟨hPlain, hRest⟩ := List.forall_mem_cons.mp h
    rw [resolveComponents, if_neg (not_or.mpr ⟨hPlain.nonempty, hPlain.dot⟩), if_neg hPlain.dots,
      ih hRest, List.append_assoc, List.singleton_append]

/-- What is kept was there and is plain. -/
theorem resolveComponents_mem {parts rest resolved : List Text}
    (h : resolveComponents parts rest = some resolved) :
    ∀ component ∈ resolved, component ∈ parts ∨ component ∈ rest ∧ Plain component := by
  induction rest generalizing parts with
  | nil =>
    rw [resolveComponents] at h
    cases h
    exact fun component hMem => Or.inl hMem
  | cons first rest ih =>
    intro component hMem
    rw [resolveComponents] at h
    split at h
    · exact (ih h component hMem).imp id fun hRest => ⟨List.mem_cons_of_mem first hRest.1, hRest.2⟩
    rename_i hKept
    split at h
    · split at h
      · cases h
      · refine (ih h component hMem).imp (fun hParts => List.dropLast_subset parts hParts) ?_
        exact fun hRest => ⟨List.mem_cons_of_mem first hRest.1, hRest.2⟩
    rename_i hDots
    rcases ih h component hMem with hParts | hRest
    · rcases List.mem_append.mp hParts with hOld | hNew
      · exact Or.inl hOld
      · cases List.mem_singleton.mp hNew
        rw [not_or] at hKept
        exact Or.inr ⟨List.mem_cons_self, ⟨hKept.1, hKept.2, hDots⟩⟩
    · exact Or.inr ⟨List.mem_cons_of_mem first hRest.1, hRest.2⟩

/-! ## Lengths -/

def weight : List Text → Nat
  | [] => 0
  | part :: parts => part.length + 1 + weight parts

@[simp] theorem weight_nil : weight [] = 0 := rfl

@[simp] theorem weight_cons (part : Text) (parts : List Text) :
    weight (part :: parts) = part.length + 1 + weight parts := rfl

@[simp] theorem weight_append (parts others : List Text) :
    weight (parts ++ others) = weight parts + weight others := by
  induction parts with
  | nil => simp
  | cons part parts ih =>
    rw [List.cons_append, weight_cons, weight_cons, ih]
    omega

theorem joinPath_length (parts : List Text) :
    (joinPath parts).length + 1 = if parts = [] then 1 else weight parts := by
  induction parts with
  | nil => rfl
  | cons part parts ih =>
    cases parts with
    | nil => simp [joinPath]
    | cons next parts =>
      rw [joinPath, List.intercalate_cons_cons, if_neg (List.cons_ne_nil _ _), weight_cons]
      rw [joinPath, if_neg (List.cons_ne_nil _ _)] at ih
      simp only [List.length_append, List.length_singleton]
      omega

theorem components_weight (path : Text) : weight (components path) = path.length + 1 := by
  have hSome : components path ≠ [] := List.splitOn_ne_nil '/' path
  have hLength := joinPath_length (components path)
  rw [if_neg hSome, joinPath, components, List.intercalate_splitOn] at hLength
  exact hLength.symm

theorem weight_dropLast (parts : List Text) : weight parts.dropLast ≤ weight parts := by
  rcases List.eq_nil_or_concat parts with rfl | ⟨front, last, rfl⟩
  · exact le_refl _
  · rw [List.concat_eq_append, List.dropLast_concat, weight_append]
    exact Nat.le_add_right _ _

theorem resolveComponents_weight {parts rest resolved : List Text}
    (h : resolveComponents parts rest = some resolved) :
    weight resolved ≤ weight parts + weight rest := by
  induction rest generalizing parts with
  | nil =>
    rw [resolveComponents] at h
    cases h
    exact Nat.le_add_right _ _
  | cons first rest ih =>
    rw [resolveComponents] at h
    rw [weight_cons]
    split at h
    · have hRest := ih h
      omega
    split at h
    · split at h
      · cases h
      · have hRest := ih h
        have hFront := weight_dropLast parts
        omega
    · have hRest := ih h
      simp only [weight_append, weight_cons, weight_nil] at hRest
      omega

theorem percentDecodeLoop_length (passes : Nat) (path : Text) :
    (percentDecodeLoop passes path).length ≤ path.length := by
  induction passes generalizing path with
  | zero => exact le_refl _
  | succ passes ih =>
    rw [percentDecodeLoop]
    split
    · exact unquote_length path
    · exact (ih _).trans (unquote_length path)

/-- Where a pass of decoding finds something, the decoded path is shorter. -/
theorem percentDecode_length (path : Text) :
    unquote path = path ∨ (percentDecode path).length < path.length := by
  refine (unquote_cases path).imp id fun hShort => ?_
  rw [percentDecode, maxDecodePasses, percentDecodeLoop]
  split
  · exact hShort
  · exact (percentDecodeLoop_length 3 _).trans_lt hShort

/-! ## Normalized paths -/

theorem normalizePath_resolved {raw path : Text} (h : normalizePath raw = some path) :
    ¬ isBlank raw = true ∧ raw.length ≤ maxPathLength ∧ ¬ raw.any isControl = true ∧
      ∃ parts, resolveComponents [] (components ((percentDecode raw).map foldBackslash)) =
        some parts ∧ path = joinPath parts := by
  rw [normalizePath] at h
  split at h
  · cases h
  rename_i hBlank
  split at h
  · cases h
  rename_i hLength
  split at h
  · cases h
  rename_i hControl
  obtain ⟨parts, hParts, rfl⟩ := Option.map_eq_some_iff.mp h
  exact ⟨hBlank, Nat.le_of_not_lt hLength, hControl, parts, hParts, rfl⟩

theorem normalizePath_length {raw path : Text} (h : normalizePath raw = some path) :
    path.length ≤ (percentDecode raw).length := by
  obtain ⟨_, _, _, parts, hParts, rfl⟩ := normalizePath_resolved h
  have hWeight := resolveComponents_weight hParts
  rw [components_weight, List.length_map, weight_nil] at hWeight
  have hLength := joinPath_length parts
  split at hLength
  · omega
  · omega

theorem foldBackslash_ne (c : Char) : foldBackslash c ≠ '\\' := by
  rw [foldBackslash]
  split
  · decide
  · assumption

theorem mem_components_folded {text part : Text}
    (h : part ∈ components (text.map foldBackslash)) : '/' ∉ part ∧ '\\' ∉ part := by
  refine ⟨Components.notMem_of_mem_splitOn h, fun hSlash => ?_⟩
  have hPlace := Components.mem_iff_splitOn.mpr (Or.inr ⟨part, h, hSlash⟩)
  have hText : '\\' ∈ text.map foldBackslash := hPlace.resolve_left (by decide)
  obtain ⟨c, _, hc⟩ := List.mem_map.mp hText
  exact foldBackslash_ne c hc

/-- A normalized path is made of plain components without separators. -/
theorem normalizePath_parts {raw path : Text} (h : normalizePath raw = some path) :
    ∃ parts, path = joinPath parts ∧
      ∀ part ∈ parts, Plain part ∧ '/' ∉ part ∧ '\\' ∉ part := by
  obtain ⟨_, _, _, parts, hParts, rfl⟩ := normalizePath_resolved h
  refine ⟨parts, rfl, fun part hPart => ?_⟩
  rcases resolveComponents_mem hParts part hPart with hNone | ⟨hMem, hPlain⟩
  · cases hNone
  · exact ⟨hPlain, mem_components_folded hMem⟩

theorem components_joinPath {parts : List Text} (hSome : parts ≠ [])
    (h : ∀ part ∈ parts, '/' ∉ part) : components (joinPath parts) = parts := by
  rw [components, joinPath, Components.splitOn_intercalate_eq_flatMap hSome]
  have hEach : ∀ part ∈ parts, part.splitOn '/' = [part] := by
    intro part hPart
    apply List.splitOn_eq_singleton
    exact h part hPart
  rw [List.flatMap_congr hEach, List.flatMap_singleton']

theorem foldBackslash_joinPath {parts : List Text} (hSome : parts ≠ [])
    (h : ∀ part ∈ parts, '/' ∉ part ∧ '\\' ∉ part) :
    (joinPath parts).map foldBackslash = joinPath parts := by
  have hFree : ∀ c ∈ joinPath parts, foldBackslash c = c := by
    intro c hc
    rw [foldBackslash, if_neg]
    rintro rfl
    have hPlace : '\\' = '/' ∨ ∃ part ∈ components (joinPath parts), '\\' ∈ part :=
      Components.mem_iff_splitOn.mp (Or.inr hc)
    rw [components_joinPath hSome fun part hPart => (h part hPart).1] at hPlace
    obtain ⟨part, hPart, hMem⟩ := hPlace.resolve_left (by decide)
    exact (h part hPart).2 hMem
  rw [List.map_congr_left hFree, List.map_id']

theorem percentDecode_stable {path : Text} (h : unquote path = path) : percentDecode path = path := by
  rw [percentDecode, maxDecodePasses, percentDecodeLoop, if_pos h, h]

theorem normalizePath_short {raw path : Text} (h : normalizePath raw = some path) :
    path.length ≤ maxPathLength := by
  obtain ⟨_, hRaw, _⟩ := normalizePath_resolved h
  exact (normalizePath_length h).trans ((percentDecodeLoop_length _ raw).trans hRaw)

/-- A stable path of plain components is kept. -/
theorem normalizePath_joinPath {parts : List Text}
    (hParts : ∀ part ∈ parts, Plain part ∧ '/' ∉ part ∧ '\\' ∉ part)
    (hShort : (joinPath parts).length ≤ maxPathLength) (hStable : Stable (joinPath parts)) :
    normalizePath (joinPath parts) = some (joinPath parts) := by
  have hSome : parts ≠ [] := by
    rintro rfl
    exact hStable.blank rfl
  rw [normalizePath, if_neg hStable.blank, if_neg (Nat.not_lt.mpr hShort), if_neg hStable.control,
    percentDecode_stable hStable.decoded,
    foldBackslash_joinPath hSome fun part hPart => (hParts part hPart).2,
    components_joinPath hSome fun part hPart => (hParts part hPart).2.1,
    resolveComponents_plain fun part hPart => (hParts part hPart).1]
  rfl

/-- A normalized path is kept exactly if it is stable. -/
theorem normalizePath_fixed_iff {raw path : Text} (h : normalizePath raw = some path) :
    normalizePath path = some path ↔ Stable path := by
  constructor
  · intro hFixed
    obtain ⟨hBlank, _, hControl, _⟩ := normalizePath_resolved hFixed
    refine ⟨hBlank, hControl, ?_⟩
    rcases percentDecode_length path with hSame | hShort
    · exact hSame
    · have hLength := normalizePath_length hFixed
      omega
  · intro hStable
    have hShort := normalizePath_short h
    obtain ⟨parts, rfl, hParts⟩ := normalizePath_parts h
    exact normalizePath_joinPath hParts hShort hStable

end AccessBroker.Paths
