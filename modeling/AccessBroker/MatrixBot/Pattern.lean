import AccessBroker.Library.Regex.Runs
import AccessBroker.Library.Words
import AccessBroker.MatrixBot.Replies

/-! # The reply pattern, word by word

Every part of the pattern but the white space after the command takes as much as it
can, so what a reply matches is decided by its words.
-/

namespace AccessBroker.MatrixBot
open Py Regex
set_option autoImplicit false

/-! ## Characters -/

def isItemChar (c : Char) : Bool := isDecimal c || c == ','

def isUnit (c : Char) : Bool := sameLetter 'h' c || sameLetter 'm' c || sameLetter 'd' c

def startsName (c : Char) : Bool := isLetter c || c == '_'

theorem decimal_cases (q : Char → Bool)
    (h : ∀ first ∈ decimalZeros, ∀ digit < 10, q (Char.ofNat (first + digit)) = true) {c : Char}
    (hc : isDecimal c = true) : q c = true := by
  rw [isDecimal, decimalValue, Option.isSome_map] at hc
  obtain ⟨first, hFind⟩ := Option.isSome_iff_exists.mp hc
  have hRange := List.find?_some hFind
  simp only [Bool.and_eq_true, decide_eq_true_eq] at hRange
  have hChar := h first (List.mem_of_find?_eq_some hFind) (c.toNat - first) (by omega)
  rwa [Nat.add_sub_cancel' hRange.1, Char.ofNat_toNat] at hChar

/-- The characters that match a letter of the pattern when case is ignored. -/
def letterCodes : List Nat :=
  List.range' 0x41 26 ++ List.range' 0x61 26 ++ [0x130, 0x131, 0x17F, 0x212A]

theorem mem_letterCodes {c : Char} (hc : isLetter c = true) : c.toNat ∈ letterCodes := by
  simp only [letterCodes, List.mem_append, List.mem_range'_1, List.mem_cons, List.not_mem_nil,
    or_false]
  simp only [isLetter, Bool.and_eq_true, decide_eq_true_eq] at hc
  rw [foldLetter] at hc
  split at hc
  · rename_i hUpper
    have hLow : (65 : Nat) ≤ c.toNat := hUpper.1
    have hHigh : c.toNat ≤ 90 := hUpper.2
    omega
  split at hc
  · omega
  split at hc
  · omega
  split at hc
  · omega
  · have hLow : (97 : Nat) ≤ c.toNat := hc.1
    have hHigh : c.toNat ≤ 122 := hc.2
    omega

theorem letter_cases (q : Char → Bool) (h : ∀ code ∈ letterCodes, q (Char.ofNat code) = true)
    {c : Char} (hc : isLetter c = true) : q c = true := by
  have hCode := h c.toNat (mem_letterCodes hc)
  rwa [Char.ofNat_toNat] at hCode

theorem isSpace_of_isDecimal {c : Char} (hc : isDecimal c = true) : isSpace c = false := by
  have hNot : (!isSpace c) = true := decimal_cases (fun c => !isSpace c) (by decide +kernel) hc
  simpa using hNot

theorem isLetter_of_isDecimal {c : Char} (hc : isDecimal c = true) : isLetter c = false := by
  have hNot : (!isLetter c) = true := decimal_cases (fun c => !isLetter c) (by decide +kernel) hc
  simpa using hNot

theorem isSpace_of_isLetter {c : Char} (hc : isLetter c = true) : isSpace c = false := by
  have hNot : (!isSpace c) = true := letter_cases (fun c => !isSpace c) (by decide +kernel) hc
  simpa using hNot

theorem isLetter_of_sameLetter {letter c : Char} (hLetter : 'a' ≤ letter ∧ letter ≤ 'z')
    (hSame : sameLetter letter c = true) : isLetter c = true := by
  rw [sameLetter, beq_iff_eq] at hSame
  rw [isLetter, hSame, decide_eq_true hLetter.1, decide_eq_true hLetter.2]
  rfl

theorem isLetter_of_isUnit {c : Char} (hc : isUnit c = true) : isLetter c = true := by
  rw [isUnit, Bool.or_eq_true, Bool.or_eq_true] at hc
  rcases hc with (hc | hc) | hc
  · exact isLetter_of_sameLetter (by decide) hc
  · exact isLetter_of_sameLetter (by decide) hc
  · exact isLetter_of_sameLetter (by decide) hc

theorem isSpace_of_isUnit {c : Char} (hc : isUnit c = true) : isSpace c = false :=
  isSpace_of_isLetter (isLetter_of_isUnit hc)

theorem isUnit_of_isDecimal {c : Char} (hc : isDecimal c = true) : isUnit c = false := by
  rw [← Bool.not_eq_true]
  intro hUnit
  have hNot := isLetter_of_isDecimal hc
  rw [isLetter_of_isUnit hUnit] at hNot
  cases hNot

theorem isSpace_of_isItemChar {c : Char} (hc : isItemChar c = true) : isSpace c = false := by
  rw [isItemChar, Bool.or_eq_true, beq_iff_eq] at hc
  rcases hc with hc | rfl
  · exact isSpace_of_isDecimal hc
  · decide

theorem isItemChar_of_isUnit {c : Char} (hc : isUnit c = true) : isItemChar c = false := by
  rw [← Bool.not_eq_true]
  intro hItem
  rw [isItemChar, Bool.or_eq_true, beq_iff_eq] at hItem
  rcases hItem with hItem | rfl
  · rw [isUnit_of_isDecimal hItem] at hc
    cases hc
  · exact absurd hc (by decide)

theorem isSpace_of_isTargetChar {c : Char} (hc : isTargetChar c = true) : isSpace c = false := by
  have hDigit : isDigit c = true → isSpace c = false := by
    intro hDigit
    rw [isDigit, Bool.and_eq_true, decide_eq_true_eq, decide_eq_true_eq] at hDigit
    have hLow : (48 : Nat) ≤ c.toNat := hDigit.1
    have hHigh : c.toNat ≤ 57 := hDigit.2
    simp [isSpace]
    omega
  rw [isTargetChar, Bool.or_eq_true, Bool.or_eq_true, Bool.or_eq_true, beq_iff_eq, beq_iff_eq] at hc
  rcases hc with ((hc | hc) | rfl) | rfl
  · exact isSpace_of_isLetter hc
  · exact hDigit hc
  · decide
  · decide

theorem isTargetChar_of_startsName {c : Char} (hc : startsName c = true) :
    isTargetChar c = true := by
  rw [startsName, Bool.or_eq_true] at hc
  rcases hc with hc | hc <;> simp [isTargetChar, hc]

theorem startsName_of_isDecimal {c : Char} (hc : isDecimal c = true) : startsName c = false := by
  rw [startsName, isLetter_of_isDecimal hc, Bool.false_or, beq_eq_false_iff_ne]
  rintro rfl
  exact absurd hc (by decide)

/-! ## Words -/

def isItems (word : Text) : Bool := !word.isEmpty && word.all isItemChar

def isExpiry (word : Text) : Bool :=
  word.getLast?.any isUnit && word.dropLast.all isDecimal && decide (2 ≤ word.length) &&
    decide (word.length ≤ 4)

def isNumber (word : Text) : Bool := !word.isEmpty && word.all isDecimal

def isName (word : Text) : Bool := word.head?.any startsName && word.tail.all isTargetChar

def isTarget (word : Text) : Bool := isNumber word || isName word

theorem isExpiry_append_iff {digits more : Text} (hDigits : ∀ c ∈ digits, isDecimal c = true)
    (hMore : ∀ c rest, more = c :: rest → isDecimal c = false) :
    isExpiry (digits ++ more) = true ↔
      (1 ≤ digits.length ∧ digits.length ≤ 3) ∧ ∃ unit, more = [unit] ∧ isUnit unit = true := by
  rcases more with _ | ⟨u, _ | ⟨v, rest⟩⟩
  · rw [List.append_nil]
    refine iff_of_false (fun h => ?_) (by simp)
    simp only [isExpiry, Bool.and_eq_true] at h
    obtain ⟨u, hLast, hUnit⟩ := Option.any_eq_true _ _ |>.mp h.1.1.1
    rw [isUnit_of_isDecimal (hDigits u (List.mem_of_getLast? hLast))] at hUnit
    cases hUnit
  · have hAll : digits.all isDecimal = true := List.all_eq_true.mpr hDigits
    simp only [isExpiry, List.getLast?_append, List.getLast?_singleton, Option.some_or,
      Option.any_some, List.dropLast_concat, hAll, Bool.and_eq_true, decide_eq_true_eq,
      List.length_append, List.length_singleton]
    constructor
    · rintro ⟨⟨⟨hUnit, _⟩, hLow⟩, hHigh⟩
      exact ⟨⟨by omega, by omega⟩, u, rfl, hUnit⟩
    · rintro ⟨⟨hLow, hHigh⟩, unit, hOne, hUnit⟩
      cases hOne
      exact ⟨⟨⟨hUnit, trivial⟩, by omega⟩, by omega⟩
  · refine iff_of_false (fun h => ?_) (by simp)
    simp only [isExpiry, Bool.and_eq_true] at h
    have hMem : u ∈ (digits ++ u :: v :: rest).dropLast := by
      rw [List.dropLast_append_of_ne_nil (by simp), List.dropLast_cons_cons]
      simp
    have hDecimal := List.all_eq_true.mp h.1.1.2 u hMem
    rw [hMore u _ rfl] at hDecimal
    cases hDecimal

theorem isExpiry_digits {word : Text} (h : isExpiry word = true) :
    ∃ digits unit, word = digits ++ [unit] ∧ (∀ c ∈ digits, isDecimal c = true) ∧
      isUnit unit = true ∧ 1 ≤ digits.length ∧ digits.length ≤ 3 := by
  have hMore : ∀ c rest, word.dropWhile isDecimal = c :: rest → isDecimal c = false := by
    intro c rest hRest
    have hHead := List.head?_dropWhile_not isDecimal word
    rw [hRest] at hHead
    simpa using hHead
  have hDigits : ∀ c ∈ word.takeWhile isDecimal, isDecimal c = true :=
    fun c hc => List.mem_takeWhile_imp hc
  rw [← List.takeWhile_append_dropWhile (p := isDecimal) (l := word)] at h
  obtain ⟨⟨hLow, hHigh⟩, unit, hUnit, hIsUnit⟩ := (isExpiry_append_iff hDigits hMore).mp h
  refine ⟨_, unit, ?_, hDigits, hIsUnit, hLow, hHigh⟩
  rw [← hUnit, List.takeWhile_append_dropWhile]

/-! ## The end of a reply -/

def fitTail : List Text → Option (Option Text × Option Text)
  | [] => some (none, none)
  | [word] =>
    if isItems word then some (some word, none)
    else if isExpiry word then some (none, some word) else none
  | [word, last] => if isItems word && isExpiry last then some (some word, some last) else none
  | _ => none

def fitExpiry : List Text → Option (Option Text)
  | [] => some none
  | [word] => if isExpiry word then some (some word) else none
  | _ => none

def expiryPart : Regex :=
  .opt (.seq (.run isSpace 1 none) (.group 4 (.seq (.run isDecimal 1 (some 3)) (.char isUnit))))

def itemsPart : Regex :=
  .opt (.seq (.run isSpace 1 none) (.group 3 (.run isItemChar 1 none)))

theorem trimmed_atEnd {groups : Groups} {rest : Text} (hTrimmed : Trimmed rest) :
    atEnd groups rest = if rest = [] then some groups else none := by
  rw [atEnd]
  refine if_congr ?_ rfl rfl
  refine or_iff_left ?_
  rintro rfl
  exact absurd (hTrimmed '\n' rfl) (by decide)

/-- The digits and the unit of an expiry, and then the end. -/
theorem expiryGroup_matchThen {groups : Groups} {text : Text} (hTrimmed : Trimmed text) :
    (group 4 (.seq (.run isDecimal 1 (some 3)) (.char isUnit))).matchThen groups text atEnd =
      if isExpiry text then some ((4, text) :: groups) else none := by
  have hMore : ∀ c rest, text.dropWhile isDecimal = c :: rest → isDecimal c = false := by
    intro c rest hRest
    have hHead := List.head?_dropWhile_not isDecimal text
    rw [hRest] at hHead
    simpa using hHead
  have hDigits : ∀ c ∈ text.takeWhile isDecimal, isDecimal c = true :=
    fun c hc => List.mem_takeWhile_imp hc
  have hSplit : text = text.takeWhile isDecimal ++ text.dropWhile isDecimal :=
    List.takeWhile_append_dropWhile.symm
  generalize text.takeWhile isDecimal = digits at hDigits hSplit
  generalize text.dropWhile isDecimal = more at hMore hSplit
  subst hSplit
  rw [group_append, matchThen, run_append _ hDigits hMore]
  · by_cases hLength : 1 ≤ digits.length ∧ digits.length ≤ 3
    · rw [if_pos ⟨hLength.1, by simpa using hLength.2⟩]
      rcases more with _ | ⟨u, rest⟩
      · rw [if_neg fun h => ?_]
        · rfl
        · obtain ⟨_, u, hNil, _⟩ := (isExpiry_append_iff hDigits hMore).mp h
          cases hNil
      · rw [matchThen]
        have hRest : Trimmed rest := by
          have hTail : digits ++ u :: rest = (digits ++ [u]) ++ rest := by simp
          rw [hTail] at hTrimmed
          exact hTrimmed.of_append
        rw [trimmed_atEnd hRest]
        by_cases hUnit : isUnit u = true
        · rw [if_pos hUnit]
          by_cases hEnd : rest = []
          · subst hEnd
            rw [if_pos rfl, if_pos ((isExpiry_append_iff hDigits hMore).mpr ⟨hLength, u, rfl, hUnit⟩),
              List.length_nil, Nat.sub_zero, List.take_length]
          · rw [if_neg hEnd, if_neg fun h => ?_]
            obtain ⟨_, v, hOne, _⟩ := (isExpiry_append_iff hDigits hMore).mp h
            exact hEnd (List.cons_eq_cons.mp hOne).2
        · rw [if_neg hUnit, if_neg fun h => ?_]
          obtain ⟨_, v, hOne, hv⟩ := (isExpiry_append_iff hDigits hMore).mp h
          exact hUnit ((List.cons_eq_cons.mp hOne).1 ▸ hv)
    · rw [if_neg fun h => hLength ⟨h.1, by simpa using h.2⟩,
        if_neg fun h => hLength ((isExpiry_append_iff hDigits hMore).mp h).1]
  · intro c rest hc
    simp [matchThen, isUnit_of_isDecimal hc]

def withItems (items : Option Text) (groups : Groups) : Groups :=
  (items.map fun word => (3, word)).toList ++ groups

def withExpiry (expiry : Option Text) (groups : Groups) : Groups :=
  (expiry.map fun word => (4, word)).toList ++ groups

theorem isExpiry_unspaced {word : Text} (h : isExpiry word = true) : Unspaced word := by
  obtain ⟨digits, unit, rfl, hDigits, hUnit, _, _⟩ := isExpiry_digits h
  refine List.forall_mem_append.mpr ⟨fun c hc => isSpace_of_isDecimal (hDigits c hc), ?_⟩
  exact List.forall_mem_singleton.mpr (isSpace_of_isUnit hUnit)

theorem isItems_of_isExpiry {word : Text} (h : isExpiry word = true) : isItems word = false := by
  obtain ⟨digits, unit, rfl, _, hUnit, _, _⟩ := isExpiry_digits h
  rw [isItems, List.all_append, List.all_cons, isItemChar_of_isUnit hUnit]
  simp

theorem unparted_atEnd {groups : Groups} {c : Char} (rest : Text) (hc : isSpace c = false) :
    atEnd groups (c :: rest) = none := by
  refine if_neg ?_
  rintro (hNil | hLine)
  · cases hNil
  · cases hLine
    exact absurd hc (by decide)

theorem expiryPart_unparted {groups : Groups} {c : Char} (rest : Text) (hc : isSpace c = false) :
    expiryPart.matchThen groups (c :: rest) atEnd = none := by
  rw [expiryPart, matchThen, matchThen, run_none (le_refl 1) hc, unparted_atEnd rest hc]
  rfl

theorem expiryPart_parted {groups : Groups} {rest : Text} (hParted : Parted rest)
    (hTrimmed : Trimmed rest) :
    expiryPart.matchThen groups rest atEnd =
      (fitExpiry (words rest)).map fun expiry => withExpiry expiry groups := by
  rcases hParted.cases hTrimmed with
    rfl | ⟨blank, word, more, rfl, hBlank, hSome, hWord, hNonempty, hMore, hWords⟩
  · rfl
  have hTail : Trimmed (word ++ more) := hTrimmed.of_append
  have hSkip : atEnd groups (blank ++ (word ++ more)) = none := by
    rw [trimmed_atEnd hTrimmed, if_neg (by simp [hSome])]
  rw [expiryPart, matchThen, matchThen, run_append _ hBlank (hWord.head hNonempty more),
    if_pos ⟨List.length_pos_iff.mpr hSome, rfl⟩, expiryGroup_matchThen hTail, hSkip,
    Option.or_none, hWords]
  · by_cases hLast : more = []
    · subst hLast
      rw [List.append_nil, words_nil, fitExpiry]
      split <;> rfl
    · have hMany : words more ≠ [] := fun h => hLast (hMore.eq_nil_of_words hTail.of_append h)
      obtain ⟨next, others, hNext⟩ := List.exists_cons_of_ne_nil hMany
      have hLong : ¬ isExpiry (word ++ more) = true := by
        intro hExpiry
        obtain ⟨c, rest, rfl⟩ := List.exists_cons_of_ne_nil hLast
        have hSpace := hMore c rest rfl
        rw [isExpiry_unspaced hExpiry c (by simp)] at hSpace
        cases hSpace
      rw [hNext, if_neg hLong]
      rfl
  · intro c rest hc
    dsimp only
    rw [group_append, matchThen, run_none (le_refl 1)]
    rw [← Bool.not_eq_true]
    intro hDecimal
    rw [isSpace_of_isDecimal hDecimal] at hc
    cases hc

/-- A run up to the end of a word, if what comes next takes white space only. -/
theorem run_word {p : Char → Bool} {least : Nat} {groups : Groups} {word more : Text}
    {k : Groups → Text → Option Groups} (hp : ∀ c, p c = true → isSpace c = false)
    (hk : ∀ c rest, isSpace c = false → k groups (c :: rest) = none) (hWord : Unspaced word)
    (hMore : Parted more) :
    (run p least none).matchThen groups (word ++ more) k =
      if least ≤ word.length ∧ word.all p = true then k groups more else none := by
  have hTaken : ∀ c ∈ word.takeWhile p, p c = true := fun c hc => List.mem_takeWhile_imp hc
  have hRest : ∀ c rest, word.dropWhile p ++ more = c :: rest → p c = false := by
    intro c rest h
    cases hDrop : word.dropWhile p with
    | nil =>
      rw [hDrop, List.nil_append] at h
      rw [← Bool.not_eq_true]
      intro hc
      have hSpace := hMore c rest h
      rw [hp c hc] at hSpace
      cases hSpace
    | cons d others =>
      rw [hDrop, List.cons_append] at h
      obtain ⟨rfl, _⟩ := List.cons_eq_cons.mp h
      have hHead := List.head?_dropWhile_not p word
      rw [hDrop] at hHead
      simpa using hHead
  have hSplit : word ++ more = word.takeWhile p ++ (word.dropWhile p ++ more) := by
    rw [← List.append_assoc, List.takeWhile_append_dropWhile]
  rw [hSplit, run_append (fun c rest hc => hk c rest (hp c hc)) hTaken hRest]
  cases hDrop : word.dropWhile p with
  | nil =>
    have hAll : ∀ c ∈ word, p c = true := List.dropWhile_eq_nil_iff.mp hDrop
    have hWhole : word.takeWhile p = word := List.takeWhile_eq_self_iff.mpr hAll
    rw [hWhole, List.nil_append]
    refine if_congr ?_ rfl rfl
    rw [List.all_eq_true]
    exact and_congr_right fun _ => iff_of_true rfl hAll
  | cons d others =>
    have hd : d ∈ word := by
      apply (List.dropWhile_suffix p).mem
      rw [hDrop]
      exact List.mem_cons_self
    have hNot : ¬ word.all p = true := by
      intro hAll
      have hHead := List.head?_dropWhile_not p word
      rw [hDrop, List.head?_cons] at hHead
      have hTrue := List.all_eq_true.mp hAll d hd
      dsimp only at hHead
      rw [hTrue] at hHead
      cases hHead
    rw [List.cons_append, hk d _ (hWord d hd), ite_self, if_neg fun h => hNot h.2]

def matchTail (groups : Groups) (rest : Text) : Option Groups :=
  itemsPart.matchThen groups rest fun groups rest => expiryPart.matchThen groups rest atEnd

theorem tail_unparted {groups : Groups} {c : Char} (rest : Text) (hc : isSpace c = false) :
    matchTail groups (c :: rest) = none := by
  rw [matchTail, itemsPart, matchThen, matchThen, run_none (le_refl 1) hc,
    expiryPart_unparted rest hc]
  rfl

theorem fitTail_cons {groups : Groups} (word : Text) (others : List Text) :
    (if isItems word then
        (fitExpiry others).map fun expiry => withExpiry expiry ((3, word) :: groups)
      else none).or
      ((fitExpiry (word :: others)).map fun expiry => withExpiry expiry groups) =
      (fitTail (word :: others)).map fun tail => withExpiry tail.2 (withItems tail.1 groups) := by
  rcases others with _ | ⟨last, _ | ⟨next, others⟩⟩
  · simp only [fitExpiry, fitTail]
    by_cases hItems : isItems word = true
    · rw [if_pos hItems, if_pos hItems]
      rfl
    · rw [if_neg hItems, if_neg hItems, Option.none_or]
      split <;> rfl
  · simp only [fitExpiry, fitTail, Option.map_none, Option.or_none, Bool.and_eq_true]
    by_cases hItems : isItems word = true
    · rw [if_pos hItems]
      by_cases hLast : isExpiry last = true
      · rw [if_pos hLast, if_pos ⟨hItems, hLast⟩]
        rfl
      · rw [if_neg hLast, if_neg fun h => hLast h.2]
        rfl
    · rw [if_neg hItems, if_neg fun h => hItems h.1]
      rfl
  · simp only [fitExpiry, fitTail, Option.map_none, ite_self, Option.or_none]

theorem tail_parted {groups : Groups} {rest : Text} (hParted : Parted rest)
    (hTrimmed : Trimmed rest) :
    matchTail groups rest =
      (fitTail (words rest)).map fun tail => withExpiry tail.2 (withItems tail.1 groups) := by
  rcases hParted.cases hTrimmed with
    rfl | ⟨blank, word, more, rfl, hBlank, hSome, hWord, hNonempty, hMore, hWords⟩
  · rfl
  have hTail : Trimmed more := hTrimmed.of_append.of_append
  have hItem : ∀ c, isItemChar c = true → isSpace c = false := fun c => isSpace_of_isItemChar
  rw [hWords, ← fitTail_cons, ← hWords, ← expiryPart_parted hParted hTrimmed, matchTail, itemsPart,
    matchThen, matchThen, run_append _ hBlank (hWord.head hNonempty more),
    if_pos ⟨List.length_pos_iff.mpr hSome, rfl⟩, group_append, run_word hItem _ hWord hMore,
    expiryPart_parted hMore hTail, take_taken]
  · refine congrArg (Option.or · _) (if_congr ?_ rfl rfl)
    rw [isItems, Bool.and_eq_true, Bool.not_eq_true', List.isEmpty_eq_false_iff]
    exact and_congr_left fun _ => iff_of_true (List.length_pos_iff.mpr hNonempty) hNonempty
  · intro c rest hc
    exact expiryPart_unparted rest hc
  · intro c rest hc
    dsimp only
    rw [group_append, run_none (le_refl 1)]
    rw [← Bool.not_eq_true]
    intro hItemChar
    rw [isSpace_of_isItemChar hItemChar] at hc
    cases hc

end AccessBroker.MatrixBot
