import AccessBroker.Paths.Canonical

/-! # Paths that are read a second time

The checker normalizes the paths it is given once more, the requested ones and the stored ones.
What decodes no further is what both readings have in common.
-/

namespace AccessBroker.Paths
open Py
set_option autoImplicit false

/-- A second normalization gives the stored path back, or nothing that is compared. -/
def Unmoved (path : Text) : Prop :=
  ∀ root ∈ normalizePath path, root ≠ [] → root = path

instance (path : Text) : Decidable (Unmoved path) :=
  inferInstanceAs (Decidable (∀ root ∈ normalizePath path, root ≠ [] → root = path))

def isFinal (name : Text) : Bool := !name.any isControl && unquote name == name

/-- The leading names of the path, up to the first that is still encoded or holds a control
character. -/
def finalPart (path : Text) : Text := joinPath ((components path).takeWhile isFinal)

/-! ## Paths above one another -/

theorem Within.begins {above path : Text} (h : Within above path) : above <+: path := by
  have hInside := (inside_iff above path).mpr h
  simp only [inside, startsWith, Bool.or_eq_true, beq_iff_eq, List.isPrefixOf_iff_prefix] at hInside
  rcases hInside with rfl | hPrefix
  · exact List.prefix_refl _
  · exact (List.prefix_append above ['/']).trans hPrefix

theorem Within.not_blank {above path : Text} (h : Within above path)
    (hAbove : ¬ isBlank above = true) : isBlank path = false := by
  refine eq_false_of_ne_true fun hBlank => hAbove (List.all_eq_true.mpr fun c hc => ?_)
  exact List.all_eq_true.mp hBlank c (h.begins.subset hc)

theorem normalizePath_shorter {path root : Text} (h : normalizePath path = some root) :
    root.length ≤ path.length :=
  (normalizePath_length h).trans (percentDecodeLoop_length _ path)

/-- A second normalization that stays inside the path gives the path. -/
theorem unmoved_iff {path : Text} :
    Unmoved path ↔ ∀ root ∈ normalizePath path, root ≠ [] → Within path root := by
  refine forall_congr' fun root => forall_congr' fun hRoot => imp_congr_right fun _ => ?_
  constructor
  · rintro rfl
    exact List.prefix_refl _
  · intro hWithin
    exact (hWithin.begins.eq_of_length_le (normalizePath_shorter hRoot)).symm

/-! ## The final part -/

theorem isFinal_iff {name : Text} : isFinal name = true ↔
    (∀ c ∈ name, isControl c = false) ∧ ¬ Escaped name := by
  rw [isFinal, Bool.and_eq_true, beq_iff_eq, unquote_eq_iff]
  simp

/-- The names of a path that is its own normalization are final. -/
theorem isFinal_of_kept {path : Text} (h : normalizePath path = some path) :
    ∀ name ∈ components path, isFinal name = true := by
  obtain ⟨_, hControl, hDecoded⟩ := (normalizePath_fixed_iff h).mp h
  have hJoin : joinPath (components path) = path := List.intercalate_splitOn '/'
  rw [unquote_eq_iff, ← hJoin, escaped_joinPath] at hDecoded
  have hClean : ∀ c ∈ joinPath (components path), isControl c = false := by
    rw [hJoin]
    simpa using hControl
  intro name hName
  refine isFinal_iff.mpr ⟨joinPath_controlFree.mp hClean name hName, fun hEscaped => ?_⟩
  exact hDecoded ⟨name, hName, hEscaped⟩

theorem components_nonempty (path : Text) : components path ≠ [] := List.splitOn_ne_nil '/' path

theorem components_finalPart {path : Text} (h : (components path).takeWhile isFinal ≠ []) :
    components (finalPart path) = (components path).takeWhile isFinal :=
  components_joinPath h fun _ hName =>
    Components.notMem_of_mem_splitOn ((List.takeWhile_prefix isFinal).subset hName)

/-- What lies above a path and is its own normalization lies above the path's final part. -/
theorem Within.final {above path : Text} (h : Within above path)
    (hAbove : normalizePath above = some above) : Within above (finalPart path) := by
  have hPrefix : components above <+: (components path).takeWhile isFinal := by
    obtain ⟨rest, hRest⟩ := h
    rw [← hRest, List.takeWhile_append_of_pos (isFinal_of_kept hAbove)]
    exact List.prefix_append _ _
  rw [Within, components_finalPart]
  · exact hPrefix
  · intro hNone
    rw [hNone, List.prefix_nil] at hPrefix
    exact components_nonempty above hPrefix

theorem finalPart_within {path : Text} (h : finalPart path ≠ []) : Within (finalPart path) path := by
  have hSome : (components path).takeWhile isFinal ≠ [] := by
    intro hNone
    rw [finalPart, hNone] at h
    exact h rfl
  rw [Within, components_finalPart hSome]
  exact List.takeWhile_prefix isFinal

/-- The final part of a normalized path is its own normalization. -/
theorem finalPart_kept {raw path : Text} (h : normalizePath raw = some path)
    (hBlank : isBlank (finalPart path) = false) :
    normalizePath (finalPart path) = some (finalPart path) := by
  have hSome : finalPart path ≠ [] := by
    intro hNone
    rw [hNone] at hBlank
    cases hBlank
  have hShort := (finalPart_within hSome).begins.length_le.trans (normalizePath_short h)
  obtain ⟨parts, rfl, hParts⟩ := normalizePath_parts h
  have hNames : parts ≠ [] := by
    rintro rfl
    exact hSome rfl
  have hComponents := components_joinPath hNames fun part hPart => (hParts part hPart).2.1
  rw [finalPart, hComponents] at hBlank hShort ⊢
  refine normalizePath_joinPath
    (fun part hPart => hParts part ((List.takeWhile_prefix isFinal).subset hPart)) hShort ?_
  have hFinal : ∀ part ∈ parts.takeWhile isFinal,
      (∀ c ∈ part, isControl c = false) ∧ ¬ Escaped part :=
    fun part hPart => isFinal_iff.mp (List.mem_takeWhile_imp hPart)
  refine ⟨by simp [hBlank], ?_, ?_⟩
  · simpa using joinPath_controlFree.mpr fun part hPart => (hFinal part hPart).1
  · rw [unquote_eq_iff, escaped_joinPath]
    rintro ⟨part, hPart, hEscaped⟩
    exact (hFinal part hPart).2 hEscaped

/-- What lies above a path that normalization keeps is kept too, if it is accepted at all. -/
theorem Within.kept {path above again : Text} (h : Within above path)
    (hPath : normalizePath path = some path) (hAbove : normalizePath above = some again) :
    again = above := by
  obtain ⟨hBlank, hShort, hControl⟩ := accepted_of_normalizePath hAbove
  have hStable := (normalizePath_fixed_iff hPath).mp hPath
  have hFinal := isFinal_of_kept hPath
  obtain ⟨parts, rfl, hParts⟩ := normalizePath_parts hPath
  have hSome : parts ≠ [] := by
    rintro rfl
    exact hStable.blank rfl
  rw [components_joinPath hSome fun part hPart => (hParts part hPart).2.1] at hFinal
  rw [Within, components_joinPath hSome fun part hPart => (hParts part hPart).2.1] at h
  have hJoin : joinPath (components above) = above := List.intercalate_splitOn '/'
  have hDecoded : unquote above = above := by
    rw [unquote_eq_iff, ← hJoin, escaped_joinPath]
    rintro ⟨part, hPart, hEscaped⟩
    exact (isFinal_iff.mp (hFinal part (h.subset hPart))).2 hEscaped
  rw [← hJoin] at hBlank hShort hControl hDecoded hAbove ⊢
  rw [normalizePath_joinPath (fun part hPart => hParts part (h.subset hPart)) hShort
    ⟨hBlank, hControl, hDecoded⟩] at hAbove
  exact (Option.some.inj hAbove).symm

end AccessBroker.Paths
