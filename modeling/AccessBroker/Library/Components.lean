import Mathlib.Data.List.Basic

/-! # Separated lists and the order of their components

A list with a separator symbol is read as the list of its components. Equality
or extension by a separator is the prefix order of the component lists. What a reader of single
components finds in a list that is put together from pieces is found piece by piece.
-/

namespace Components
set_option autoImplicit false

variable {α : Type}

theorem intercalate_append (sep : List α) {xs ys : List (List α)} (hx : xs ≠ []) (hy : ys ≠ []) :
    sep.intercalate (xs ++ ys) = sep.intercalate xs ++ sep ++ sep.intercalate ys := by
  induction xs with
  | nil => exact absurd rfl hx
  | cons x xs ih =>
    cases xs with
    | nil => simp [List.intercalate_cons_of_ne_nil hy]
    | cons x' xs =>
      have hTail := ih (List.cons_ne_nil x' xs)
      rw [List.cons_append] at hTail
      rw [List.cons_append, List.cons_append, List.intercalate_cons_cons, hTail,
        List.intercalate_cons_cons]
      simp only [List.append_assoc]

variable [BEq α] [LawfulBEq α]

theorem splitOn_injective (sep : α) {xs ys : List α} (h : xs.splitOn sep = ys.splitOn sep) :
    xs = ys := by
  calc xs = [sep].intercalate (xs.splitOn sep) := (List.intercalate_splitOn sep).symm
    _ = ys := by rw [h, List.intercalate_splitOn]

/-- Component-prefix containment is equality or extension past a separator. -/
theorem splitOn_prefix_iff (sep : α) (xs ys : List α) :
    xs.splitOn sep <+: ys.splitOn sep ↔ xs = ys ∨ xs ++ [sep] <+: ys := by
  constructor
  · rintro ⟨rest, hRest⟩
    cases rest with
    | nil => exact Or.inl (splitOn_injective sep (by simpa using hRest))
    | cons r rest =>
      right
      have h := congrArg [sep].intercalate hRest
      rw [intercalate_append [sep] (List.splitOn_ne_nil sep xs) (by simp),
        List.intercalate_splitOn, List.intercalate_splitOn] at h
      exact ⟨_, h⟩
  · rintro (rfl | ⟨rest, rfl⟩)
    · exact List.prefix_rfl
    · rw [List.append_assoc, List.singleton_append, List.splitOn_append_cons_self]
      exact List.prefix_append _ _

/-! ## The components of a text put together -/

variable {sep : α}

theorem notMem_of_mem_splitOn {xs part : List α} (h : part ∈ xs.splitOn sep) : sep ∉ part := by
  induction xs generalizing part with
  | nil =>
    rw [List.splitOn_nil, List.mem_singleton] at h
    simp [h]
  | cons x xs ih =>
    rw [List.splitOn_cons_eq_if_modifyHead] at h
    split at h
    · rcases List.mem_cons.mp h with rfl | h
      · simp
      · exact ih h
    · rename_i hSep
      obtain ⟨first, rest, hParts⟩ := List.exists_cons_of_ne_nil (List.splitOn_ne_nil sep xs)
      rw [hParts, List.modifyHead_cons] at h
      rcases List.mem_cons.mp h with rfl | h
      · have hFirst : sep ∉ first := ih (by simp [hParts])
        intro hMem
        rcases List.mem_cons.mp hMem with rfl | hMem
        · simp at hSep
        · exact hFirst hMem
      · exact ih (by simp [hParts, h])

/-- A symbol is a separator or stands in a component. -/
theorem mem_iff_splitOn {xs : List α} {x : α} :
    (x = sep ∨ x ∈ xs) ↔ x = sep ∨ ∃ part ∈ xs.splitOn sep, x ∈ part := by
  induction xs with
  | nil => simp
  | cons y xs ih =>
    rw [List.splitOn_cons_eq_if_modifyHead]
    obtain ⟨first, rest, hParts⟩ := List.exists_cons_of_ne_nil (List.splitOn_ne_nil sep xs)
    rw [hParts] at ih ⊢
    split
    · rename_i hSep
      rw [beq_iff_eq] at hSep
      subst hSep
      simp only [List.mem_cons, exists_eq_or_imp, List.not_mem_nil, false_or] at ih ⊢
      rw [← or_assoc, or_self, ih]
    · simp only [List.modifyHead_cons, List.mem_cons, exists_eq_or_imp] at ih ⊢
      rw [or_left_comm, ih, or_left_comm, or_assoc]

theorem splitOn_append_of_notMem {head : List α} (h : sep ∉ head) (xs : List α) :
    (head ++ xs).splitOn sep = (xs.splitOn sep).modifyHead (head ++ ·) := by
  induction head with
  | nil => cases hParts : xs.splitOn sep <;> simp [hParts]
  | cons x head ih =>
    rw [List.mem_cons, not_or] at h
    have hSep : (x == sep) = false := beq_eq_false_iff_ne.mpr (Ne.symm h.1)
    rw [List.cons_append, List.splitOn_cons_eq_if_modifyHead, ih h.2, hSep]
    simp [Function.comp_def]

theorem splitOn_intercalate_eq_flatMap {parts : List (List α)} (h : parts ≠ []) :
    ([sep].intercalate parts).splitOn sep = parts.flatMap fun part => part.splitOn sep := by
  induction parts with
  | nil => exact absurd rfl h
  | cons part parts ih =>
    cases parts with
    | nil => simp
    | cons next parts =>
      rw [List.intercalate_cons_cons, List.append_assoc, List.singleton_append,
        List.splitOn_append_cons_self, ih (List.cons_ne_nil next parts)]
      exact List.flatMap_cons.symm

/-! ## Reading the components -/

variable {β : Type} (sep : α) (read : List α → Option β)

def readings (xs : List α) : List β := (xs.splitOn sep).filterMap read

/-- The readings of the components after the first. -/
def laterReadings (xs : List α) : List β := (xs.splitOn sep).tail.filterMap read

variable {sep read}

theorem readings_intercalate {parts : List (List α)} (h : parts ≠ []) :
    readings sep read ([sep].intercalate parts) = parts.flatMap (readings sep read) := by
  rw [readings, splitOn_intercalate_eq_flatMap h, List.filterMap_flatMap]
  rfl

theorem laterReadings_append {head : List α} (h : sep ∉ head) (xs : List α) :
    laterReadings sep read (head ++ xs) = laterReadings sep read xs := by
  rw [laterReadings, splitOn_append_of_notMem h, List.tail_modifyHead, laterReadings]

/-- A first component whose reading is settled by how it begins. -/
theorem readings_append {head : List α} (h : sep ∉ head) {first : Option β}
    (hRead : ∀ more, read (head ++ more) = first) (xs : List α) :
    readings sep read (head ++ xs) = first.toList ++ laterReadings sep read xs := by
  rw [readings, splitOn_append_of_notMem h, laterReadings]
  cases hParts : xs.splitOn sep with
  | nil => exact absurd hParts (List.splitOn_ne_nil sep xs)
  | cons part parts =>
    rw [List.modifyHead_cons, List.tail_cons, List.filterMap_cons, hRead part]
    cases first <;> rfl

end Components
