import AccessBroker.WebdavAdapter.Redacting

/-! # What the keyword rule leaves

A text that is sanitized has no keyword left in it, and nothing new but marks. What stands before
the place where a keyword may still begin is settled, whatever follows.
-/

namespace AccessBroker.WebdavAdapter
open Py Nextcloud MatrixBot
set_option autoImplicit false

/-! ## Keywords -/

theorem keyword_of_mem {α : Type} {same : Char → α → Bool}
    (hSame : ∀ letter letter' a, same letter a = true → same letter' a = true → letter = letter')
    {letters : Text} (hLetters : letters ∈ keywords) {text rest : List α}
    (h : afterLetters same letters text = some rest) : keyword same text = some rest := by
  have hHeads : ∀ letters ∈ keywords, ∀ others ∈ keywords,
      letters.head? = others.head? → letters = others := by decide
  have hNonempty : ∀ letters ∈ keywords, letters ≠ [] := by decide
  cases hKeyword : keyword same text with
  | none =>
    rw [keyword, List.findSome?_eq_none_iff] at hKeyword
    rw [hKeyword letters hLetters] at h
    cases h
  | some rest' =>
    obtain ⟨others, hOthers, hAfter⟩ := List.exists_of_findSome?_eq_some hKeyword
    obtain ⟨letter, more, rfl⟩ := List.exists_cons_of_ne_nil (hNonempty letters hLetters)
    obtain ⟨letter', more', rfl⟩ := List.exists_cons_of_ne_nil (hNonempty others hOthers)
    cases text with
    | nil => cases h
    | cons a text =>
      have hFirst : same letter a = true := by
        by_contra hNot
        rw [afterLetters, if_neg hNot] at h
        cases h
      have hFirst' : same letter' a = true := by
        by_contra hNot
        rw [afterLetters, if_neg hNot] at hAfter
        cases hAfter
      have hEqual := hHeads _ hLetters _ hOthers (by
        rw [List.head?_cons, List.head?_cons, hSame _ _ _ hFirst hFirst'])
      rw [← hEqual, h] at hAfter
      exact hAfter.symm

theorem sameLetter_unique (letter letter' c : Char) (h : sameLetter letter c = true)
    (h' : sameLetter letter' c = true) : letter = letter' := by
  rw [sameLetter, beq_iff_eq] at h h'
  rw [← h, h']

theorem onText_run_eq_none {text : Text} : onText.run text = none ↔ keyword sameLetter text = none :=
  Option.map_eq_none_iff

theorem afterLetters_append {letters text rest : Text}
    (h : afterLetters sameLetter letters text = some rest) (w : Text) :
    afterLetters sameLetter letters (text ++ w) = some (rest ++ w) := by
  fun_induction afterLetters sameLetter letters text with
  | case1 text =>
    cases h
    rfl
  | case2 => cases h
  | case3 letter letters c more hSame ih =>
    rw [List.cons_append, afterLetters, if_pos hSame]
    exact ih h
  | case4 => cases h

theorem keyword_append {text rest : Text} (h : keyword sameLetter text = some rest) (w : Text) :
    keyword sameLetter (text ++ w) = some (rest ++ w) := by
  obtain ⟨letters, hLetters, hAfter⟩ := List.exists_of_findSome?_eq_some h
  exact keyword_of_mem sameLetter_unique hLetters (afterLetters_append hAfter w)

def sanitized (text : Text) : Text := onText.substitute (fun _ => redacted) text

theorem sanitized_keyword {c : Char} {text rest : Text}
    (h : keyword sameLetter (c :: text) = some rest) :
    sanitized (c :: text) = redacted ++ sanitized (rest.dropWhile fun c => !isSpace c) := by
  have hRun : onText.run (c :: text) = some ([], rest.dropWhile fun c => !isSpace c) := by
    change (keyword sameLetter (c :: text)).map _ = _
    rw [h, Option.map_some]
  exact Matcher.substitute_found _ hRun

theorem sanitized_plain {c : Char} {text : Text} (h : keyword sameLetter (c :: text) = none) :
    sanitized (c :: text) = c :: sanitized text :=
  Matcher.substitute_plain _ (onText_run_eq_none.mpr h)

/-! ## What is settled -/

/-- The text could still become a keyword. -/
def pending (text : Text) : Bool :=
  keywords.any fun letters =>
    decide (text.length < letters.length) && (text.map foldLetter).isPrefixOf letters

/-- What the sanitized text begins with, whatever follows; `skip` counts the characters of the last
match that are still to be passed over. -/
def settledFrom : Nat → Text → Text
  | _, [] => []
  | skip + 1, _ :: rest => settledFrom skip rest
  | 0, c :: rest =>
    match onText.run (c :: rest) with
    | some (_, after) => redacted ++ settledFrom (rest.length - after.length) rest
    | none => if pending (c :: rest) then [] else c :: settledFrom 0 rest

def settled (text : Text) : Text := settledFrom 0 text

theorem settledFrom_skip (skip : Nat) (text : Text) :
    settledFrom skip text = settled (text.drop skip) := by
  induction skip generalizing text with
  | zero => rfl
  | succ skip ih =>
    cases text with
    | nil => rfl
    | cons c rest => rw [settledFrom, ih, List.drop_succ_cons]

theorem settled_found {c : Char} {rest group after : Text}
    (h : onText.run (c :: rest) = some (group, after)) :
    settled (c :: rest) = redacted ++ settled after := by
  have hAfter : rest.drop (rest.length - after.length) = after :=
    List.suffix_iff_eq_drop.mp (onText.consumes h) ▸ rfl
  rw [settled, settledFrom, h]
  dsimp only
  rw [settledFrom_skip, hAfter]

theorem settled_pending {c : Char} {rest : Text} (h : onText.run (c :: rest) = none)
    (hPending : pending (c :: rest) = true) : settled (c :: rest) = [] := by
  rw [settled, settledFrom, h]
  exact if_pos hPending

theorem settled_plain {c : Char} {rest : Text} (h : onText.run (c :: rest) = none)
    (hPending : pending (c :: rest) = false) : settled (c :: rest) = c :: settled rest := by
  rw [settled, settledFrom, h]
  exact if_neg (by simp [hPending])

/-- Letters that a text has only with what follows it, it has begun with. -/
theorem afterLetters_append_none {letters text w rest : Text}
    (h : afterLetters sameLetter letters text = none)
    (hMore : afterLetters sameLetter letters (text ++ w) = some rest) :
    text.length < letters.length ∧ text.map foldLetter <+: letters := by
  fun_induction afterLetters sameLetter letters text with
  | case1 => cases h
  | case2 letter letters => exact ⟨Nat.succ_pos _, List.nil_prefix⟩
  | case3 letter letters c more hSame ih =>
    rw [List.cons_append, afterLetters, if_pos hSame] at hMore
    obtain ⟨hLength, hPrefix⟩ := ih h hMore
    rw [sameLetter, beq_iff_eq] at hSame
    refine ⟨Nat.succ_lt_succ hLength, ?_⟩
    rw [List.map_cons, hSame]
    exact (List.prefix_cons_inj letter).mpr hPrefix
  | case4 letter letters c more hSame =>
    rw [List.cons_append, afterLetters, if_neg hSame] at hMore
    cases hMore

theorem keyword_append_none {text : Text} (h : keyword sameLetter text = none)
    (hPending : pending text = false) (w : Text) : keyword sameLetter (text ++ w) = none := by
  rw [keyword, List.findSome?_eq_none_iff] at h ⊢
  intro letters hLetters
  cases hMore : afterLetters sameLetter letters (text ++ w) with
  | none => rfl
  | some rest =>
    obtain ⟨hLength, hPrefix⟩ := afterLetters_append_none (h letters hLetters) hMore
    have hIs : pending text = true := List.any_eq_true.mpr ⟨letters, hLetters, by
      rw [Bool.and_eq_true, decide_eq_true_eq, List.isPrefixOf_iff_prefix]
      exact ⟨hLength, hPrefix⟩⟩
    rw [hPending] at hIs
    cases hIs

theorem sanitized_append_plain {c : Char} {rest : Text} (h : onText.run (c :: rest) = none)
    (hPending : pending (c :: rest) = false) (w : Text) :
    sanitized (c :: rest ++ w) = c :: sanitized (rest ++ w) :=
  Matcher.substitute_plain _ (onText_run_eq_none.mpr
    (keyword_append_none (onText_run_eq_none.mp h) hPending w))

/-- A match that ends where the text does may go on. -/
theorem sanitized_append_found {c : Char} {rest group after : Text}
    (h : onText.run (c :: rest) = some (group, after)) (w : Text) :
    sanitized (c :: rest ++ w) = redacted ++ sanitized
      (if after = [] then w.dropWhile fun c => !isSpace c else after ++ w) := by
  obtain ⟨r, hKeyword, hEq⟩ := Option.map_eq_some_iff.mp h
  have hAfter : (r.dropWhile fun c => !isSpace c) = after := congrArg Prod.snd hEq
  have hFound : sanitized (c :: rest ++ w) =
      redacted ++ sanitized ((r ++ w).dropWhile fun c => !isSpace c) :=
    sanitized_keyword (keyword_append hKeyword w)
  rw [hFound, List.dropWhile_append, hAfter]
  simp only [List.isEmpty_iff]

/-- What is settled stays, whatever follows. -/
theorem settled_prefix (text w : Text) : settled text <+: sanitized (text ++ w) := by
  induction hLength : text.length using Nat.strong_induction_on generalizing text with
  | _ length ih =>
    subst hLength
    cases text with
    | nil => exact List.nil_prefix
    | cons c rest =>
      cases hRun : onText.run (c :: rest) with
      | none =>
        cases hPending : pending (c :: rest) with
        | true =>
          rw [settled_pending hRun hPending]
          exact List.nil_prefix
        | false =>
          rw [settled_plain hRun hPending, sanitized_append_plain hRun hPending]
          exact (List.prefix_cons_inj c).mpr (ih _ (Nat.lt_succ_self _) rest rfl)
      | some taken =>
        obtain ⟨group, after⟩ := taken
        rw [settled_found hRun, sanitized_append_found hRun, List.prefix_append_right_inj]
        split
        · rename_i hEmpty
          rw [hEmpty]
          exact List.nil_prefix
        · have hShorter : after.length < (c :: rest).length :=
            Nat.lt_succ_of_le (onText.consumes hRun).length_le
          exact ih _ hShorter after rfl

/-- How a text goes on: with what has begun a keyword, or anew. -/
def GoesOn (text : Text) : Prop :=
  (∃ u, u ≠ [] ∧ keyword sameLetter u = none ∧ pending u = true ∧
      ∀ w, sanitized (text ++ w) = settled text ++ sanitized (u ++ w)) ∨
    ∀ c w, isSpace c = true → sanitized (text ++ c :: w) = settled text ++ sanitized (c :: w)

theorem goesOn (text : Text) : GoesOn text := by
  induction hLength : text.length using Nat.strong_induction_on generalizing text with
  | _ length ih =>
    subst hLength
    cases text with
    | nil => exact Or.inr fun _ _ _ => rfl
    | cons c rest =>
      cases hRun : onText.run (c :: rest) with
      | none =>
        cases hPending : pending (c :: rest) with
        | true =>
          refine Or.inl ⟨c :: rest, List.cons_ne_nil _ _, onText_run_eq_none.mp hRun, hPending, ?_⟩
          intro w
          rw [settled_pending hRun hPending]
          rfl
        | false =>
          rw [GoesOn, settled_plain hRun hPending]
          refine (ih _ (Nat.lt_succ_self _) rest rfl).imp ?_ ?_
          · rintro ⟨u, hNonempty, hNone, hPend, hGoes⟩
            refine ⟨u, hNonempty, hNone, hPend, fun w => ?_⟩
            rw [sanitized_append_plain hRun hPending, hGoes, List.cons_append]
          · intro hGoes d w hSpace
            rw [sanitized_append_plain hRun hPending, hGoes d w hSpace, List.cons_append]
      | some taken =>
        obtain ⟨group, after⟩ := taken
        rw [GoesOn, settled_found hRun]
        by_cases hEmpty : after = []
        · refine Or.inr fun d w hSpace => ?_
          have hBlank : ¬ (!isSpace d) = true := by simp [hSpace]
          rw [sanitized_append_found hRun, if_pos hEmpty, hEmpty, List.dropWhile_cons, if_neg hBlank,
            List.append_assoc]
          rfl
        · have hShorter : after.length < (c :: rest).length :=
            Nat.lt_succ_of_le (onText.consumes hRun).length_le
          refine (ih _ hShorter after rfl).imp ?_ ?_
          · rintro ⟨u, hNonempty, hNone, hPend, hGoes⟩
            refine ⟨u, hNonempty, hNone, hPend, fun w => ?_⟩
            rw [sanitized_append_found hRun, if_neg hEmpty, hGoes, List.append_assoc]
          · intro hGoes d w hSpace
            rw [sanitized_append_found hRun, if_neg hEmpty, hGoes d w hSpace, List.append_assoc]

/-! ## Keywords that have begun -/

theorem afterLetters_fold {letters text rest : Text}
    (h : afterLetters sameLetter letters text = some rest) : letters <+: text.map foldLetter := by
  fun_induction afterLetters sameLetter letters text with
  | case1 => exact List.nil_prefix
  | case2 => cases h
  | case3 letter letters c more hSame ih =>
    rw [sameLetter, beq_iff_eq] at hSame
    rw [List.map_cons, hSame]
    exact (List.prefix_cons_inj letter).mpr (ih h)
  | case4 => cases h

theorem afterLetters_of_fold {letters text : Text} (h : text.map foldLetter = letters) (w : Text) :
    afterLetters sameLetter letters (text ++ w) = some w := by
  subst h
  induction text with
  | nil => rfl
  | cons c text ih =>
    rw [List.map_cons, List.cons_append, afterLetters, if_pos (by rw [sameLetter, beq_self_eq_true]), ih]

/-- What has begun a keyword, and how it ends. -/
theorem pending_rest {text : Text} (h : pending text = true) :
    ∃ rest, rest ≠ [] ∧ text.map foldLetter ++ rest ∈ keywords ∧
      (text ++ rest).map foldLetter = text.map foldLetter ++ rest := by
  obtain ⟨letters, hLetters, hBoth⟩ := List.any_eq_true.mp h
  rw [Bool.and_eq_true, decide_eq_true_eq, List.isPrefixOf_iff_prefix] at hBoth
  obtain ⟨hLength, rest, rfl⟩ := hBoth
  have hFolded : ∀ letters ∈ keywords, letters.map foldLetter = letters := by decide
  have hRest := hFolded _ hLetters
  rw [List.map_append] at hRest
  refine ⟨rest, ?_, hLetters, ?_⟩
  · rintro rfl
    simp at hLength
  · rw [List.map_append, (List.append_inj hRest (by simp)).2]

/-- A blank takes away what a keyword lacks. -/
theorem keyword_blank {text : Text} (h : keyword sameLetter text = none) (w : Text) :
    keyword sameLetter (text ++ ' ' :: w) = none := by
  rw [keyword, List.findSome?_eq_none_iff] at h ⊢
  intro letters hLetters
  cases hMore : afterLetters sameLetter letters (text ++ ' ' :: w) with
  | none => rfl
  | some rest =>
    have hBlank : ∀ letters ∈ keywords, ' ' ∉ letters := by decide
    have hSpace : foldLetter ' ' = ' ' := by decide
    have hPrefix := afterLetters_fold hMore
    rw [List.map_append, List.map_cons, hSpace] at hPrefix
    have hShort := (prefix_of_prefix_append_cons (hBlank letters hLetters) hPrefix).length_le
    have hLong := (afterLetters_append_none (h letters hLetters) hMore).1
    rw [List.length_map] at hShort
    omega

/-! ## Words in a sanitized text -/

/-- A text without an opening bracket at the front of a sanitized one stood there before. -/
theorem prefix_of_sanitized {word text : Text} (hBracket : '[' ∉ word)
    (h : word <+: sanitized text) : word <+: text := by
  induction word generalizing text with
  | nil => exact List.nil_prefix
  | cons a word ih =>
    rw [List.mem_cons, not_or] at hBracket
    cases text with
    | nil => exact h
    | cons c rest =>
      cases hRun : onText.run (c :: rest) with
      | some taken =>
        obtain ⟨group, after⟩ := taken
        rw [sanitized, Matcher.substitute_found _ hRun] at h
        have hHead : a = '[' := (List.cons_prefix_cons.mp h).1
        exact absurd hHead.symm hBracket.1
      | none =>
        rw [sanitized, Matcher.substitute_plain _ hRun] at h
        obtain ⟨rfl, hRest⟩ := List.cons_prefix_cons.mp h
        exact (List.prefix_cons_inj a).mpr (ih hBracket.2 hRest)

/-- No keyword is left. -/
theorem token_not_infix (text : Text) : ¬ "token".toList <:+: sanitized text := by
  induction hLength : text.length using Nat.strong_induction_on generalizing text with
  | _ length ih =>
    subst hLength
    intro hInfix
    cases text with
    | nil => exact absurd (List.eq_nil_of_infix_nil hInfix) (by decide)
    | cons c rest =>
      cases hRun : onText.run (c :: rest) with
      | some taken =>
        obtain ⟨group, after⟩ := taken
        rw [sanitized, Matcher.substitute_found _ hRun] at hInfix
        have hShape : redacted ++ sanitized after =
            "[redacted".toList ++ ']' :: sanitized after := rfl
        have hShorter : after.length < (c :: rest).length :=
          Nat.lt_succ_of_le (onText.consumes hRun).length_le
        rw [← sanitized, hShape, infix_append_cons_iff (by decide)] at hInfix
        rcases hInfix with hMark | hAfter
        · have hNone : ¬ "token".toList <:+: "[redacted".toList := by
            rw [← contains_eq_false_iff]
            decide
          exact hNone hMark
        · exact ih _ hShorter after rfl hAfter
      | none =>
        rw [sanitized, Matcher.substitute_plain _ hRun, ← sanitized, List.infix_cons_iff] at hInfix
        rcases hInfix with hPrefix | hRest
        · have hText : "token".toList <+: c :: rest := by
            refine prefix_of_sanitized (by decide) ?_
            rw [sanitized, Matcher.substitute_plain _ hRun]
            exact hPrefix
          obtain ⟨more, hMore⟩ := hText
          have hKeyword : keyword sameLetter ("token".toList ++ more) = some more := rfl
          rw [hMore, onText_run_eq_none.mp hRun] at hKeyword
          cases hKeyword
        · exact ih _ (Nat.lt_succ_self _) rest rfl hRest

/-- A word without brackets is found in a sanitized text only if it was there before, or in a
mark. -/
theorem infix_sanitized {word : Text} (hOpening : '[' ∉ word) (hClosing : ']' ∉ word) {text : Text}
    (h : word <:+: sanitized text) : word <:+: text ∨ word <:+: "redacted".toList := by
  induction hLength : text.length using Nat.strong_induction_on generalizing text with
  | _ length ih =>
    subst hLength
    cases text with
    | nil => exact Or.inl h
    | cons c rest =>
      cases hRun : onText.run (c :: rest) with
      | some taken =>
        obtain ⟨group, after⟩ := taken
        have hSuffix := onText.consumes hRun
        have hShape : redacted ++ sanitized after =
            [] ++ '[' :: ("redacted".toList ++ ']' :: sanitized after) := rfl
        rw [sanitized, Matcher.substitute_found _ hRun, ← sanitized, hShape,
          infix_append_cons_iff hOpening, infix_append_cons_iff hClosing] at h
        rcases h with hNil | hMark | hAfter
        · exact Or.inl (hNil.trans (List.nil_infix))
        · exact Or.inr hMark
        · have hInfix := ih _ (Nat.lt_succ_of_le hSuffix.length_le) hAfter rfl
          exact hInfix.imp_left fun hText =>
            hText.trans (hSuffix.trans (List.suffix_cons c rest)).isInfix
      | none =>
        rw [sanitized, Matcher.substitute_plain _ hRun, ← sanitized, List.infix_cons_iff] at h
        rcases h with hPrefix | hRest
        · refine Or.inl (prefix_of_sanitized hOpening ?_).isInfix
          rw [sanitized, Matcher.substitute_plain _ hRun]
          exact hPrefix
        · exact (ih _ (Nat.lt_succ_self _) hRest rfl).imp_left List.infix_cons

end AccessBroker.WebdavAdapter
