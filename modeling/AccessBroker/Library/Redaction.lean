import Mathlib.Data.List.Infix
import AccessBroker.Library.Text

/-! # Taking words out of a text

Where a word can occur in a text that is put together around separators, and what
is left of a text when the occurrences of words are replaced by a bracketed mark.
-/

namespace Py
set_option autoImplicit false

section Infixes

variable {α : Type}

theorem prefix_of_prefix_append_cons {word before after : List α} {c : α} (hc : c ∉ word)
    (h : word <+: before ++ c :: after) : word <+: before := by
  rcases le_or_gt word.length before.length with hLength | hLength
  · exact List.prefix_of_prefix_length_le h (List.prefix_append _ _) hLength
  · have hWhole : before ++ [c] <+: before ++ c :: after :=
      ⟨after, by rw [List.append_assoc, List.singleton_append]⟩
    have hShort : before ++ [c] <+: word := by
      apply List.prefix_of_prefix_length_le hWhole h
      rw [List.length_append]
      exact hLength
    exact absurd (hShort.subset (List.mem_append_right _ List.mem_cons_self)) hc

/-- A word without the separator lies on one side of it. -/
theorem infix_append_cons_iff {word before after : List α} {c : α} (hc : c ∉ word) :
    word <:+: before ++ c :: after ↔ word <:+: before ∨ word <:+: after := by
  constructor
  · induction before with
    | nil =>
      rw [List.nil_append, List.infix_cons_iff]
      rintro (h | h)
      · have hPrefix : word <+: [] := prefix_of_prefix_append_cons hc h
        exact Or.inl hPrefix.isInfix
      · exact Or.inr h
    | cons b before ih =>
      rw [List.cons_append, List.infix_cons_iff]
      rintro (h | h)
      · have hPrefix : word <+: b :: before := prefix_of_prefix_append_cons hc h
        exact Or.inl hPrefix.isInfix
      · exact (ih h).imp List.infix_cons id
  · rintro (h | h)
    · exact h.trans (List.prefix_append _ _).isInfix
    · exact h.trans ((List.suffix_cons c after).trans (List.suffix_append _ _)).isInfix

end Infixes

theorem contains_iff {needle text : Text} : contains needle text = true ↔ needle <:+: text := by
  induction text with
  | nil => simp [contains]
  | cons c rest ih =>
    rw [contains, Bool.or_eq_true, ih, List.isPrefixOf_iff_prefix, List.infix_cons_iff]

theorem contains_eq_false_iff {needle text : Text} :
    contains needle text = false ↔ ¬needle <:+: text := by
  rw [← contains_iff, Bool.not_eq_true]

/-! ## Replacing -/

theorem replaceFrom_skip (old new : Text) (skip : Nat) (text : Text) :
    replaceFrom old new skip text = replaceFrom old new 0 (text.drop skip) := by
  induction skip generalizing text with
  | zero => rfl
  | succ skip ih =>
    cases text with
    | nil => simp [replaceFrom]
    | cons c rest => rw [replaceFrom, ih, List.drop_succ_cons]

/-- What stays of a text is cut out of it and free of the replaced word. -/
theorem replaceFrom_pieces {old : Text} (new : Text) (hOld : old ≠ []) (text : Text) :
    ∃ (first : Text) (others : List Text), replaceFrom old new 0 text =
        first ++ (others.map (new ++ ·)).flatten ∧ first <+: text ∧ ¬old <:+: first ∧
      ∀ piece ∈ others, piece <:+: text ∧ ¬old <:+: piece := by
  induction hLength : text.length using Nat.strong_induction_on generalizing text with
  | _ length ih =>
    subst hLength
    have hEmpty : ¬old <:+: [] := fun h => hOld (List.eq_nil_of_infix_nil h)
    cases text with
    | nil => exact ⟨[], [], rfl, List.prefix_rfl, hEmpty, by simp⟩
    | cons c rest =>
      rw [replaceFrom]
      split
      · rename_i hMatch
        have hSuffix : rest.drop (old.length - 1) <:+ c :: rest :=
          (List.drop_suffix _ _).trans (List.suffix_cons _ _)
        obtain ⟨first, others, hReplaced, hFirst, hFree, hOthers⟩ :=
          ih _ (by simp only [List.length_drop, List.length_cons]; omega)
            (rest.drop (old.length - 1)) rfl
        refine ⟨[], first :: others, ?_, List.nil_prefix, hEmpty, ?_⟩
        · rw [replaceFrom_skip, hReplaced]
          simp
        · intro piece hPiece
          rcases List.mem_cons.mp hPiece with rfl | hPiece
          · exact ⟨hFirst.isInfix.trans hSuffix.isInfix, hFree⟩
          · obtain ⟨hInfix, hFreeOf⟩ := hOthers piece hPiece
            exact ⟨hInfix.trans hSuffix.isInfix, hFreeOf⟩
      · rename_i hMatch
        obtain ⟨first, others, hReplaced, hFirst, hFree, hOthers⟩ :=
          ih _ (Nat.lt_succ_self rest.length) rest rfl
        have hLonger : c :: first <+: c :: rest := (List.prefix_cons_inj c).mpr hFirst
        refine ⟨c :: first, others, by rw [hReplaced, List.cons_append], hLonger, ?_, ?_⟩
        · rw [List.infix_cons_iff]
          rintro (h | h)
          · exact hMatch (List.isPrefixOf_iff_prefix.mpr (h.trans hLonger))
          · exact hFree h
        · intro piece hPiece
          obtain ⟨hInfix, hFreeOf⟩ := hOthers piece hPiece
          exact ⟨hInfix.trans (List.suffix_cons _ _).isInfix, hFreeOf⟩

theorem replace_eq_self {old : Text} (new : Text) {text : Text} (h : ¬old <:+: text) :
    replace old new text = text := by
  rw [replace]
  induction text with
  | nil => rfl
  | cons c rest ih =>
    rw [List.infix_cons_iff, not_or] at h
    rw [replaceFrom, if_neg, ih h.2]
    rw [List.isPrefixOf_iff_prefix]
    exact h.1

theorem length_le_replace {old new : Text} (hOld : old ≠ []) (hLonger : old.length ≤ new.length)
    (text : Text) : text.length ≤ (replace old new text).length := by
  rw [replace]
  have hPositive : 0 < old.length := List.length_pos_iff.mpr hOld
  induction hLength : text.length using Nat.strong_induction_on generalizing text with
  | _ length ih =>
    subst hLength
    cases text with
    | nil => exact Nat.zero_le _
    | cons c rest =>
      rw [replaceFrom]
      split
      · have hRest := ih (rest.drop (old.length - 1)).length
          (by simp only [List.length_drop, List.length_cons]; omega) _ rfl
        rw [replaceFrom_skip, List.length_append, List.length_cons]
        rw [List.length_drop] at hRest
        omega
      · exact Nat.succ_le_succ (ih _ (Nat.lt_succ_self _) rest rfl)

theorem length_lt_replace {old new text : Text} (hOld : old ≠ []) (hLonger : old.length < new.length)
    (h : old <:+: text) : text.length < (replace old new text).length := by
  have hPositive : 0 < old.length := List.length_pos_iff.mpr hOld
  induction text with
  | nil => exact absurd (List.eq_nil_of_infix_nil h) hOld
  | cons c rest ih =>
    rw [replace, replaceFrom]
    split
    · have hRest := length_le_replace hOld hLonger.le (rest.drop (old.length - 1))
      rw [replace, List.length_drop] at hRest
      rw [replaceFrom_skip, List.length_append, List.length_cons]
      omega
    · rename_i hMatch
      rw [List.isPrefixOf_iff_prefix] at hMatch
      rw [List.infix_cons_iff] at h
      exact Nat.succ_lt_succ (ih (h.resolve_left hMatch))

/-- A character that the word does not have keeps the replacements before it and after it apart. -/
theorem replace_append_cons {old : Text} (new : Text) (hOld : old ≠ []) {c : Char} (hc : c ∉ old)
    (before after : Text) :
    replace old new (before ++ c :: after) = replace old new before ++ c :: replace old new after := by
  simp only [replace]
  induction hLength : before.length using Nat.strong_induction_on generalizing before with
  | _ length ih =>
    subst hLength
    cases before with
    | nil =>
      have hEmpty : replaceFrom old new 0 [] = [] := rfl
      rw [hEmpty, List.nil_append, List.nil_append]
      conv_lhs => rw [replaceFrom]
      rw [if_neg]
      · intro hPrefix
        have hNil : old <+: [] := prefix_of_prefix_append_cons hc
          (List.isPrefixOf_iff_prefix.mp hPrefix)
        exact hOld (List.prefix_nil.mp hNil)
    | cons b before =>
      have hMatch : old.isPrefixOf (b :: (before ++ c :: after)) = old.isPrefixOf (b :: before) := by
        rw [Bool.eq_iff_iff, List.isPrefixOf_iff_prefix, List.isPrefixOf_iff_prefix]
        exact ⟨fun h : old <+: b :: before ++ c :: after => prefix_of_prefix_append_cons hc h,
          fun h => h.trans (List.prefix_append (b :: before) _)⟩
      rw [List.cons_append, replaceFrom, replaceFrom, hMatch]
      split
      · rename_i hPrefix
        have hLong : old.length - 1 ≤ before.length := by
          have hLe := (List.isPrefixOf_iff_prefix.mp hPrefix).length_le
          rw [List.length_cons] at hLe
          omega
        rw [replaceFrom_skip, replaceFrom_skip old new _ before,
          List.drop_append_of_le_length hLong, ih _ _ _ rfl, List.append_assoc]
        simp only [List.length_drop, List.length_cons]
        omega
      · rw [ih before.length (Nat.lt_succ_self _) before rfl, List.cons_append]

theorem infix_replace_new {old text : Text} (new : Text) (hOld : old ≠ []) (h : old <:+: text) :
    new <:+: replace old new text := by
  rw [replace]
  induction text with
  | nil => exact absurd (List.eq_nil_of_infix_nil h) hOld
  | cons c rest ih =>
    rw [replaceFrom]
    split
    · exact (List.prefix_append _ _).isInfix
    · rename_i hMatch
      rw [List.isPrefixOf_iff_prefix] at hMatch
      rw [List.infix_cons_iff] at h
      exact (ih (h.resolve_left hMatch)).trans (List.suffix_cons _ _).isInfix

section Marks

variable {mark word : Text}

/-- The word cannot touch the bracketed mark. -/
structure Apart (mark word : Text) : Prop where
  opening : '[' ∉ word
  closing : ']' ∉ word
  outside : ¬word <:+: mark

theorem Apart.infix_pieces (h : Apart mark word) {first : Text} {others : List Text}
    (hWord : word <:+: first ++ (others.map ('[' :: mark ++ [']'] ++ ·)).flatten) :
    word <:+: first ∨ ∃ piece ∈ others, word <:+: piece := by
  induction others generalizing first with
  | nil => exact Or.inl (by simpa using hWord)
  | cons piece others ih =>
    have hShape : first ++ ((piece :: others).map ('[' :: mark ++ [']'] ++ ·)).flatten =
        first ++ '[' :: (mark ++ ']' :: (piece ++
          (others.map ('[' :: mark ++ [']'] ++ ·)).flatten)) := by simp
    rw [hShape, infix_append_cons_iff h.opening, infix_append_cons_iff h.closing] at hWord
    rcases hWord with hFirst | hMark | hRest
    · exact Or.inl hFirst
    · exact absurd hMark h.outside
    · rcases ih hRest with hPiece | ⟨other, hOther, hInfix⟩
      · exact Or.inr ⟨piece, List.mem_cons_self, hPiece⟩
      · exact Or.inr ⟨other, List.mem_cons_of_mem _ hOther, hInfix⟩

/-- Replacing a word by the mark brings in no other word. -/
theorem Apart.infix_replace (h : Apart mark word) {old text : Text} (hOld : old ≠ [])
    (hWord : word <:+: replace old ('[' :: mark ++ [']']) text) : word <:+: text := by
  obtain ⟨first, others, hReplaced, hFirst, _, hOthers⟩ :=
    replaceFrom_pieces ('[' :: mark ++ [']']) hOld text
  rw [replace, hReplaced] at hWord
  rcases h.infix_pieces hWord with hInfix | ⟨piece, hPiece, hInfix⟩
  · exact hInfix.trans hFirst.isInfix
  · exact hInfix.trans (hOthers piece hPiece).1

/-- The replaced word is gone. -/
theorem Apart.replaced (h : Apart mark word) (hWord : word ≠ []) (text : Text) :
    ¬word <:+: replace word ('[' :: mark ++ [']']) text := by
  obtain ⟨first, others, hReplaced, _, hFree, hOthers⟩ :=
    replaceFrom_pieces ('[' :: mark ++ [']']) hWord text
  rw [replace, hReplaced]
  intro hInfix
  rcases h.infix_pieces hInfix with hInfix | ⟨piece, hPiece, hInfix⟩
  · exact hFree hInfix
  · exact (hOthers piece hPiece).2 hInfix

/-- The words are taken out one after the other. -/
def redact (mark : Text) (words : List Text) (text : Text) : Text :=
  words.foldl (fun text word => replace word ('[' :: mark ++ [']']) text) text

/-- Whether a word is there need not be asked before it is taken out. -/
theorem redact_eq_contained (mark : Text) (words : List Text) (text : Text) :
    redact mark words text = words.foldl (fun text word =>
      if contains word text then replace word ('[' :: mark ++ [']']) text else text) text := by
  rw [redact]
  congr 1
  funext text word
  split
  · rfl
  · rename_i hAbsent
    exact replace_eq_self _ (contains_eq_false_iff.mp (Bool.eq_false_iff.mpr hAbsent))

theorem Apart.infix_redact (h : Apart mark word) {words : List Text} (hWords : [] ∉ words)
    {text : Text} (hWord : word <:+: redact mark words text) : word <:+: text := by
  induction words generalizing text with
  | nil => exact hWord
  | cons first others ih =>
    rw [List.mem_cons, not_or] at hWords
    have hReplaced : word <:+: replace first ('[' :: mark ++ [']']) text := ih hWords.2 hWord
    exact h.infix_replace (Ne.symm hWords.1) hReplaced

/-- None of the words that were taken out is left, if it cannot touch the mark. -/
theorem Apart.redacted (h : Apart mark word) {words : List Text} (hWords : [] ∉ words)
    (hMem : word ∈ words) (text : Text) : ¬word <:+: redact mark words text := by
  induction words generalizing text with
  | nil => exact absurd hMem List.not_mem_nil
  | cons first others ih =>
    rw [List.mem_cons, not_or] at hWords
    rcases List.mem_cons.mp hMem with rfl | hMem
    · intro hInfix
      exact h.replaced (Ne.symm hWords.1) text (h.infix_redact hWords.2 hInfix)
    · exact ih hWords.2 hMem _

theorem redact_append_cons (mark : Text) {words : List Text} (hWords : [] ∉ words) {c : Char}
    (hc : ∀ word ∈ words, c ∉ word) (before after : Text) :
    redact mark words (before ++ c :: after) =
      redact mark words before ++ c :: redact mark words after := by
  induction words generalizing before after with
  | nil => rfl
  | cons first others ih =>
    rw [List.mem_cons, not_or] at hWords
    obtain ⟨hFirst, hOthers⟩ := List.forall_mem_cons.mp hc
    simp only [redact, List.foldl_cons] at ih ⊢
    rw [replace_append_cons _ (Ne.symm hWords.1) hFirst, ih hWords.2 hOthers]

theorem redact_eq_self (mark : Text) {words : List Text} {text : Text}
    (h : ∀ word ∈ words, ¬ word <:+: text) : redact mark words text = text := by
  induction words with
  | nil => rfl
  | cons first others ih =>
    obtain ⟨hFirst, hOthers⟩ := List.forall_mem_cons.mp h
    rw [redact, List.foldl_cons, replace_eq_self _ hFirst]
    exact ih hOthers

/-- Once a mark is in the text, there is always one. -/
theorem mark_infix_redact {words : List Text} (hWords : [] ∉ words) {text : Text}
    (h : '[' :: mark ++ [']'] <:+: text) : '[' :: mark ++ [']'] <:+: redact mark words text := by
  induction words generalizing text with
  | nil => exact h
  | cons first others ih =>
    rw [List.mem_cons, not_or] at hWords
    refine ih hWords.2 ?_
    change _ <:+: replace first ('[' :: mark ++ [']']) text
    by_cases hFirst : first <:+: text
    · exact infix_replace_new _ (Ne.symm hWords.1) hFirst
    · rw [replace_eq_self _ hFirst]
      exact h

end Marks

end Py
