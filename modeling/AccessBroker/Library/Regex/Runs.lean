import AccessBroker.Library.Regex
import Mathlib.Data.List.Forall2

/-! # Runs that give nothing back

A greedy run backtracks only into texts that begin with one of its own characters.
Where what follows the run takes no such text, the run takes all it can.
-/

namespace Py.Regex
set_option autoImplicit false

variable {β : Type} {p : Char → Bool} {least : Nat} {most : Option Nat} {groups : Groups}
variable {text taken rest : Text}

/-- The continuation fails on every text that begins with such a character. -/
def Refuses (p : Char → Bool) (k : Text → Option β) : Prop :=
  ∀ c rest, p c = true → k (c :: rest) = none

theorem runLength_append (hTaken : ∀ c ∈ taken, p c = true)
    (hRest : ∀ c more, rest = c :: more → p c = false) :
    runLength p most (taken ++ rest) = most.elim taken.length (min · taken.length) := by
  induction taken generalizing most with
  | nil =>
    cases rest with
    | nil => rcases most with _ | (_ | most) <;> simp [runLength]
    | cons c more =>
      have hc : p c = false := hRest c more rfl
      rcases most with _ | (_ | most) <;> simp [runLength, hc]
  | cons c taken ih =>
    obtain ⟨hc, hTaken⟩ := List.forall_mem_cons.mp hTaken
    rcases most with _ | (_ | most)
    · simp [runLength, hc, ih hTaken]
    · simp [runLength]
    · simp [runLength, hc, ih hTaken]

theorem tryRun_short {k : Text → Option β} {n : Nat} (h : n < least) :
    tryRun least text k n = none := by
  cases n with
  | zero => exact if_neg (Nat.ne_of_gt h)
  | succ n => exact if_neg (Nat.not_le_of_gt h)

theorem tryRun_top {k : Text → Option β} {n : Nat} (hLeast : least ≤ n)
    (hk : ∀ m, m < n → k (text.drop m) = none) : tryRun least text k n = k (text.drop n) := by
  induction n with
  | zero =>
    rw [tryRun, if_pos (Nat.le_zero.mp hLeast), List.drop_zero]
  | succ n ih =>
    rw [tryRun, if_pos hLeast]
    by_cases hShort : n < least
    · rw [tryRun_short hShort, Option.or_none]
    · rw [ih (Nat.not_lt.mp hShort) fun m hm => hk m (Nat.lt_succ_of_lt hm),
        hk n (Nat.lt_succ_self n), Option.or_none]

theorem refuses_drop {k : Text → Option β} (hk : Refuses p k) (hTaken : ∀ c ∈ taken, p c = true)
    {n : Nat} (hn : n < taken.length) : k ((taken ++ rest).drop n) = none := by
  rw [List.drop_append_of_le_length (Nat.le_of_lt hn), List.drop_eq_getElem_cons hn]
  exact hk _ _ (hTaken _ (List.getElem_mem hn))

/-- The run takes all of its characters, if their number is allowed. -/
theorem run_append {k : Groups → Text → Option β} (hk : Refuses p (k groups))
    (hTaken : ∀ c ∈ taken, p c = true) (hRest : ∀ c more, rest = c :: more → p c = false) :
    (run p least most).matchThen groups (taken ++ rest) k =
      if least ≤ taken.length ∧ most.all (taken.length ≤ ·) then k groups rest else none := by
  have hSome : ∀ n, n ≤ taken.length → tryRun least (taken ++ rest) (k groups) n =
      if least ≤ n ∧ n = taken.length then k groups rest else none := by
    intro n hn
    by_cases hLeast : least ≤ n
    · rw [tryRun_top hLeast fun m hm => refuses_drop hk hTaken (Nat.lt_of_lt_of_le hm hn)]
      by_cases hAll : n = taken.length
      · rw [if_pos ⟨hLeast, hAll⟩, hAll, List.drop_left]
      · rw [if_neg fun h => hAll h.2, refuses_drop hk hTaken (by omega)]
    · rw [tryRun_short (Nat.not_le.mp hLeast), if_neg fun h => hLeast h.1]
  rw [matchThen, runLength_append hTaken hRest]
  cases most with
  | none =>
    rw [Option.elim_none, hSome _ (le_refl _)]
    simp
  | some most =>
    rw [Option.elim_some, hSome _ (Nat.min_le_right _ _)]
    refine if_congr ?_ rfl rfl
    simp only [Option.all_some, decide_eq_true_eq]
    omega

/-- A group holds what its body took. -/
theorem group_append {number : Nat} {body : Regex} {k : Groups → Text → Option β} :
    (group number body).matchThen groups text k =
      body.matchThen groups text fun groups' rest =>
        k ((number, text.take (text.length - rest.length)) :: groups') rest := rfl

theorem run_none {c : Char} {k : Groups → Text → Option β} (hLeast : 1 ≤ least)
    (hc : p c = false) : (run p least most).matchThen groups (c :: rest) k = none := by
  have hLength : runLength p most (c :: rest) = 0 := by
    rcases most with _ | (_ | most) <;> simp [runLength, hc]
  rw [matchThen, hLength]
  exact tryRun_short hLeast

theorem choice_matchThen {k : Groups → Text → Option β} (first : Regex) (others : List Regex) :
    (choice first others).matchThen groups text k =
      (first :: others).findSome? fun r => r.matchThen groups text k := by
  induction others generalizing first with
  | nil =>
    rw [choice, List.foldl_nil, List.findSome?_cons]
    cases first.matchThen groups text k <;> rfl
  | cons other others ih =>
    have hChoice : choice first (other :: others) = choice (alt first other) others := rfl
    rw [hChoice, ih, List.findSome?_cons, List.findSome?_cons, List.findSome?_cons, matchThen]
    cases first.matchThen groups text k <;> rfl

theorem take_taken : (taken ++ rest).take ((taken ++ rest).length - rest.length) = taken := by
  rw [List.length_append, Nat.add_sub_cancel, List.take_left]

/-! ## Words -/

/-- What is left after the letters, read by `same`. -/
def afterWord (same : Char → Char → Bool) : Text → Text → Option Text
  | [], text => some text
  | _ :: _, [] => none
  | letter :: letters, c :: text => if same letter c then afterWord same letters text else none

theorem word_matchThen {same : Char → Char → Bool} {letters : Text} {k : Groups → Text → Option β} :
    (word same letters).matchThen groups text k = (afterWord same letters text).bind (k groups) := by
  induction letters generalizing text with
  | nil => rfl
  | cons letter letters ih =>
    cases text with
    | nil => rfl
    | cons c text =>
      rw [afterWord]
      change (if same letter c then (word same letters).matchThen groups text k else none) = _
      rw [ih]
      split <;> rfl

theorem afterWord_eq_some_iff {same : Char → Char → Bool} {letters rest : Text} :
    afterWord same letters text = some rest ↔
      ∃ taken, text = taken ++ rest ∧ List.Forall₂ (fun letter c => same letter c = true) letters
        taken := by
  induction letters generalizing text with
  | nil => simp [afterWord]
  | cons letter letters ih =>
    cases text with
    | nil => simp [afterWord]
    | cons c text =>
      rw [afterWord]
      constructor
      · intro h
        split at h
        · rename_i hSame
          obtain ⟨taken, rfl, hTaken⟩ := ih.mp h
          exact ⟨c :: taken, rfl, .cons hSame hTaken⟩
        · cases h
      · rintro ⟨taken, hText, hTaken⟩
        cases hTaken with
        | cons hSame hTaken =>
          obtain ⟨rfl, rfl⟩ := List.cons_eq_cons.mp hText
          rw [if_pos hSame]
          exact ih.mpr ⟨_, rfl, hTaken⟩

/-- White space that a word does not match ends it. -/
theorem afterWord_append {same : Char → Char → Bool} {letters word : Text}
    (hSame : ∀ letter ∈ letters, ∀ c more, rest = c :: more → same letter c = false) :
    afterWord same letters (word ++ rest) = (afterWord same letters word).map (· ++ rest) := by
  induction letters generalizing word with
  | nil => rfl
  | cons letter letters ih =>
    obtain ⟨hLetter, hLetters⟩ := List.forall_mem_cons.mp hSame
    cases word with
    | nil =>
      cases rest with
      | nil => rfl
      | cons c more => simp [afterWord, hLetter c more rfl]
    | cons c word =>
      rw [List.cons_append, afterWord, afterWord, ih hLetters]
      split <;> rfl

/-! ## The end of the line -/

/-- What follows a pattern that ends in `$`. -/
def atEnd (groups : Groups) (rest : Text) : Option Groups :=
  if rest = [] ∨ rest = ['\n'] then some groups else none

theorem matchLine_eq (r : Regex) (text : Text) : r.matchLine text = r.matchThen [] text atEnd := rfl

@[simp] theorem atEnd_nil : atEnd groups [] = some groups := rfl

end Py.Regex
