import AccessBroker.Library.Components
import AccessBroker.MatrixBot.Reading

/-! # The documented grammar

The forms the help text and `parse_reply` itself name, over the words of a reply,
and the replies for which the parser answers otherwise.
-/

namespace AccessBroker.MatrixBot
open Py Regex
set_option autoImplicit false

def IsId (word : Text) : Prop := isNumber word = true ∧ 0 < decimalNumber word

def IsItemList (word : Text) : Prop := ∀ part ∈ word.splitOn ',', IsId part

/-- An instance name, as the second pattern has it; `all` and numbers are no names. -/
def IsInstanceName (word : Text) : Prop :=
  isRevokeTarget word = true ∧ ¬ Says "all" word ∧ ¬ word.all isDecimal = true

def itemValues (word : Text) : List Nat := (word.splitOn ',').map decimalNumber

/-- The documented forms and their values. -/
inductive Reads : List Text → Parsed → Prop
  | status {word : Text} (hWord : Says "status" word) : Reads [word] .status
  | approve {word id : Text} {items expiry : Option Text} (hWord : Says "approve" word)
      (hId : IsId id) (hItems : ∀ list, items = some list → IsItemList list)
      (hExpiry : ∀ token, expiry = some token → isExpiry token = true) :
      Reads (word :: id :: (items.toList ++ expiry.toList))
        (.decision "approve".toList (decimalNumber id) (items.map itemValues) expiry)
  | reject {word id : Text} (hWord : Says "reject" word) (hId : IsId id) :
      Reads [word, id] (.decision "reject".toList (decimalNumber id) none none)
  | revoke {word id : Text} (hWord : Says "revoke" word) (hId : IsId id) :
      Reads [word, id] (.decision "revoke".toList (decimalNumber id) none none)
  | undo {word id : Text} (hWord : Says "undo" word) (hId : IsId id) :
      Reads [word, id] (.undo (decimalNumber id))
  | revokeAll {word target : Text} (hWord : Says "revoke" word) (hAll : Says "all" target) :
      Reads [word, target] .revokeAll
  | revokeInstance {word target : Text} (hWord : Says "revoke" word)
      (hName : IsInstanceName target) : Reads [word, target] (.revokeInstance (lowerMatched target))

/-- The parser returns what the reply reads as, nothing if it reads as nothing, and never raises. -/
def ReadsExactly (text : Text) : Prop :=
  (∀ parsed, parseReply text = .ok (some parsed) ↔ Reads (words text) parsed) ∧
    ∀ error, parseReply text ≠ .error error

/-! ## Where the parser answers otherwise -/

/-- `revoke` and an instance name that begins with a digit. -/
def NamesDigits : List Text → Prop
  | [word, target] => Says "revoke" word ∧ IsInstanceName target ∧ target.head?.any isDigit = true
  | _ => False

def Unreadable (digits : Text) : Prop := digits = [] ∨ Json.maxIntDigits < digits.length

def Readable (items : Option Text) : Prop :=
  ∀ list, items = some list → ∀ part ∈ list.splitOn ',', ¬ Unreadable part

def Positive (items : Option Text) : Prop :=
  ∀ list, items = some list → ∀ part ∈ list.splitOn ',', 0 < decimalNumber part

/-- An item that cannot be read; or, with no item zero, a number right after the word, arguments
after `reject` or `revoke`, or `status` written with a long s. -/
def SlipsDecision (r : Reply) : Prop :=
  ¬ Readable r.items ∨ Positive r.items ∧
    (r.glued = true ∨ Says "status" r.word ∨
      ¬ Says "approve" r.word ∧ (r.items ≠ none ∨ r.expiry ≠ none))

/-- What the parser takes or raises on although the grammar has no such reply, and `status` alone
with a long s, which it does not take. -/
def Slips (r : Reply) : Prop :=
  if lowerMatched r.word = "status".toList then
    r.target ≠ none ∨ r.items ≠ none ∨ r.expiry ≠ none
  else
    match r.target with
    | none => Says "status" r.word ∧ r.items = none ∧ r.expiry = none
    | some target =>
      isNumber target = true ∧ (Json.maxIntDigits < target.length ∨ 0 < decimalNumber target ∧
        if Says "undo" r.word then r.glued = true ∨ r.items ≠ none ∨ r.expiry ≠ none
        else SlipsDecision r)

def Misread (ws : List Text) : Prop := NamesDigits ws ∨ ∃ r, fit ws = some r ∧ Slips r

/-! ## Words and their case -/

theorem foldLetter_of_not_isLetter {c : Char} (h : ¬ isLetter c = true) : foldLetter c = c := by
  have hCode : c.toNat ∉ letterCodes := by
    intro hCode
    have hAll : ∀ code ∈ letterCodes, isLetter (Char.ofNat code) = true := by decide +kernel
    have hLetter := hAll _ hCode
    rw [Char.ofNat_toNat] at hLetter
    exact h hLetter
  simp only [letterCodes, List.mem_append, List.mem_range'_1, List.mem_cons, List.not_mem_nil,
    or_false, not_or] at hCode
  have hUpper : ¬ ('A' ≤ c ∧ c ≤ 'Z') := by
    rintro ⟨hLow, hHigh⟩
    have hLow : (65 : Nat) ≤ c.toNat := hLow
    have hHigh : c.toNat ≤ 90 := hHigh
    omega
  rw [foldLetter, if_neg hUpper, if_neg (by omega), if_neg (by omega), if_neg (by omega)]

theorem foldLetter_foldLetter (c : Char) : foldLetter (foldLetter c) = foldLetter c := by
  by_cases hLetter : isLetter c = true
  · have hFold := letter_cases (fun c => foldLetter (foldLetter c) == foldLetter c)
      (by decide +kernel) hLetter
    exact eq_of_beq hFold
  · rw [foldLetter_of_not_isLetter hLetter, foldLetter_of_not_isLetter hLetter]

theorem foldLetter_dotted {c : Char} (h : c.toNat = 0x130) : foldLetter c = 'i' := by
  have hChar : c = Char.ofNat 0x130 := by rw [← h, Char.ofNat_toNat]
  rw [hChar]
  decide

theorem lowerMatched_cons {c : Char} (rest : Text) (h : foldLetter c ≠ 'i') :
    lowerMatched (c :: rest) =
      (if 'A' ≤ c ∧ c ≤ 'Z' ∨ c.toNat = 0x212A then foldLetter c else c) :: lowerMatched rest := by
  rw [lowerMatched, List.flatMap_cons, if_neg fun hDotted => h (foldLetter_dotted hDotted)]
  split <;> rfl

/-- Lowering keeps the letters, unless it takes one character to two. -/
theorem fold_lowerMatched {word : Text} (h : ∀ c ∈ word, foldLetter c ≠ 'i') :
    (lowerMatched word).map foldLetter = word.map foldLetter := by
  induction word with
  | nil => rfl
  | cons c rest ih =>
    obtain ⟨hc, hRest⟩ := List.forall_mem_cons.mp h
    rw [lowerMatched_cons rest hc, List.map_cons, ih hRest, List.map_cons]
    split
    · rw [foldLetter_foldLetter]
    · rfl

/-- Where no letter has a form outside ASCII that lowering keeps. -/
theorem lowerMatched_eq_fold {word : Text} (h : ∀ c ∈ word, foldLetter c ≠ 'i' ∧ foldLetter c ≠ 's') :
    lowerMatched word = word.map foldLetter := by
  induction word with
  | nil => rfl
  | cons c rest ih =>
    obtain ⟨⟨hi, hs⟩, hRest⟩ := List.forall_mem_cons.mp h
    rw [lowerMatched_cons rest hi, ih hRest, List.map_cons]
    congr 1
    split
    · rfl
    · rename_i hUpper
      by_cases hLetter : isLetter c = true
      · have hCases := letter_cases (fun c => foldLetter c == 'i' || foldLetter c == 's' ||
          decide ('A' ≤ c ∧ c ≤ 'Z' ∨ c.toNat = 0x212A) || c == foldLetter c)
          (by decide +kernel) hLetter
        simpa [hi, hs, hUpper] using hCases
      · exact (foldLetter_of_not_isLetter hLetter).symm

theorem says_lowered {letters : String} {word : Text} (hWord : Says letters word)
    (hLetters : 'i' ∉ letters.toList ∧ 's' ∉ letters.toList) :
    lowerMatched word = letters.toList := by
  rw [lowerMatched_eq_fold, hWord]
  intro c hc
  have hFold : foldLetter c ∈ letters.toList := hWord ▸ List.mem_map_of_mem hc
  exact ⟨fun h => hLetters.1 (h ▸ hFold), fun h => hLetters.2 (h ▸ hFold)⟩

theorem says_of_lowered {letters : String} {word : Text} (h : lowerMatched word = letters.toList)
    (hFold : letters.toList.map foldLetter = letters.toList)
    (hWord : ∀ c ∈ word, foldLetter c ≠ 'i') : Says letters word := by
  rw [Says, ← fold_lowerMatched hWord, h, hFold]

theorem replyCommands_no_i : ∀ letters ∈ replyCommands, 'i' ∉ letters := by
  decide

theorem command_no_i {word : Text} (h : word.map foldLetter ∈ replyCommands) :
    ∀ c ∈ word, foldLetter c ≠ 'i' := by
  intro c hc hi
  exact replyCommands_no_i _ h (hi ▸ List.mem_map_of_mem hc)

theorem says_command {letters : String} {word : Text} (h : word.map foldLetter ∈ replyCommands)
    (hFold : letters.toList.map foldLetter = letters.toList)
    (hLowered : lowerMatched word = letters.toList) : Says letters word :=
  says_of_lowered hLowered hFold (command_no_i h)

/-- A letter that is read as `i` is still there, or its lower case is, when the word is lowered. -/
theorem no_i_of_lowered {word lowered : Text} (h : lowerMatched word = lowered)
    (hi : 'i' ∉ lowered ∧ Char.ofNat 0x131 ∉ lowered) : ∀ c ∈ word, foldLetter c ≠ 'i' := by
  intro c hc hFold
  have hSame : sameLetter 'i' c = true := by
    rw [sameLetter, hFold]
    rfl
  have hLetter : isLetter c = true := isLetter_of_sameLetter (by decide) hSame
  have hCases := letter_cases (fun c => foldLetter c != 'i' ||
    (lowerMatched [c]).any fun d => d == 'i' || d == Char.ofNat 0x131) (by decide +kernel) hLetter
  simp only [hFold, bne_self_eq_false, Bool.false_or, List.any_eq_true, Bool.or_eq_true,
    beq_iff_eq] at hCases
  obtain ⟨d, hd, hForm⟩ := hCases
  have hMem : d ∈ lowered := by
    rw [← h, lowerMatched, List.mem_flatMap]
    refine ⟨c, hc, ?_⟩
    rwa [lowerMatched, List.flatMap_singleton] at hd
  rcases hForm with rfl | rfl
  · exact hi.1 hMem
  · exact hi.2 hMem

theorem lowered_all_iff {word : Text} : lowerMatched word = "all".toList ↔ Says "all" word :=
  ⟨fun h => says_of_lowered h (by decide) (no_i_of_lowered h (by decide)),
    fun hWord => says_lowered hWord (by decide)⟩

theorem isDecimal_of_isDigit {c : Char} (h : isDigit c = true) : isDecimal c = true := by
  rw [isDigit, Bool.and_eq_true, decide_eq_true_eq, decide_eq_true_eq] at h
  have hLow : (48 : Nat) ≤ c.toNat := h.1
  have hHigh : c.toNat ≤ 57 := h.2
  rw [isDecimal, decimalValue, Option.isSome_map, List.find?_isSome]
  refine ⟨48, List.mem_cons_self, ?_⟩
  rw [Bool.and_eq_true, decide_eq_true_eq, decide_eq_true_eq]
  omega

/-! ## Numbers -/

theorem readInt_ok {digits : Text} (h : ¬ Unreadable digits) :
    readInt digits = .ok (decimalNumber digits) := by
  rw [Unreadable, not_or] at h
  rw [readInt, if_neg h.1, if_neg h.2]

theorem readInt_error {digits : Text} (h : Unreadable digits) : ∃ error, readInt digits = .error error := by
  rw [readInt]
  split
  · exact ⟨_, rfl⟩
  · rename_i hSome
    rw [if_pos (h.resolve_left hSome)]
    exact ⟨_, rfl⟩

theorem mapM_ok {ε α β : Type} {f : α → Except ε β} {g : α → β} {xs : List α}
    (h : ∀ x ∈ xs, f x = .ok (g x)) : xs.mapM f = .ok (xs.map g) := by
  induction xs with
  | nil => rfl
  | cons x xs ih =>
    obtain ⟨hx, hMore⟩ := List.forall_mem_cons.mp h
    rw [List.mapM_cons, hx, ih hMore]
    rfl

theorem mapM_error {ε α β : Type} {f : α → Except ε β} {xs : List α} {x : α} (hx : x ∈ xs)
    (h : ∃ error, f x = .error error) : ∃ error, xs.mapM f = .error error := by
  induction xs with
  | nil => cases hx
  | cons y ys ih =>
    rw [List.mapM_cons]
    cases hy : f y with
    | error error => exact ⟨error, rfl⟩
    | ok value =>
      rcases List.mem_cons.mp hx with rfl | hx
      · obtain ⟨error, hError⟩ := h
        rw [hy] at hError
        cases hError
      · obtain ⟨error, hError⟩ := ih hx
        rw [hError]
        exact ⟨error, rfl⟩

theorem readItemNumbers_ok {items : Option Text} (h : Readable items) :
    readItemNumbers items = .ok (items.map itemValues) := by
  cases items with
  | none => rfl
  | some list =>
    rw [readItemNumbers, mapM_ok fun part hPart => readInt_ok (h list rfl part hPart)]
    rfl

theorem readItemNumbers_error {items : Option Text} (h : ¬ Readable items) :
    ∃ error, readItemNumbers items = .error error := by
  simp only [Readable, not_forall, not_not] at h
  obtain ⟨list, rfl, part, hPart, hUnreadable⟩ := h
  obtain ⟨error, hError⟩ := mapM_error hPart (readInt_error hUnreadable)
  refine ⟨error, ?_⟩
  rw [readItemNumbers, hError]
  rfl

theorem any_zero_iff {items : Option Text} :
    (items.map itemValues).any (·.any (· = 0)) = true ↔ ¬ Positive items := by
  cases items with
  | none => simp [Positive]
  | some list => simp [Positive, itemValues]

variable {action target : Text} {items expiry : Option Text}

theorem readDecision_long (h : Unreadable target) :
    ∃ error, readDecision action target items expiry = .error error := by
  obtain ⟨error, hError⟩ := readInt_error h
  refine ⟨error, ?_⟩
  rw [readDecision, hError]
  rfl

theorem readDecision_zero (h : ¬ Unreadable target) (hZero : ¬ 0 < decimalNumber target) :
    readDecision action target items expiry = .ok none := by
  rw [readDecision, readInt_ok h]
  change (if decimalNumber target = 0 then _ else _) = _
  rw [if_pos (Nat.eq_zero_of_not_pos hZero)]
  rfl

theorem readDecision_undo (h : ¬ Unreadable target) (hId : 0 < decimalNumber target)
    (hUndo : action = "undo".toList) :
    readDecision action target items expiry = .ok (some (.undo (decimalNumber target))) := by
  rw [readDecision, readInt_ok h]
  change (if decimalNumber target = 0 then _ else if action = "undo".toList then _ else _) = _
  rw [if_neg hId.ne', if_pos hUndo]
  rfl

theorem readDecision_items (h : ¬ Unreadable target) (hId : 0 < decimalNumber target)
    (hUndo : action ≠ "undo".toList) :
    readDecision action target items expiry =
      (readItemNumbers items).bind fun itemNumbers =>
        if itemNumbers.any (·.any (· = 0)) then .ok none
        else .ok (some (.decision action (decimalNumber target) itemNumbers expiry)) := by
  rw [readDecision, readInt_ok h]
  change (if decimalNumber target = 0 then _ else if action = "undo".toList then _ else _) = _
  rw [if_neg hId.ne', if_neg hUndo]
  rfl

theorem readDecision_unreadable (h : ¬ Unreadable target) (hId : 0 < decimalNumber target)
    (hUndo : action ≠ "undo".toList) (hItems : ¬ Readable items) :
    ∃ error, readDecision action target items expiry = .error error := by
  obtain ⟨error, hError⟩ := readItemNumbers_error hItems
  refine ⟨error, ?_⟩
  rw [readDecision_items h hId hUndo, hError]
  rfl

theorem readDecision_nonpositive (h : ¬ Unreadable target) (hId : 0 < decimalNumber target)
    (hUndo : action ≠ "undo".toList) (hItems : Readable items) (hZero : ¬ Positive items) :
    readDecision action target items expiry = .ok none := by
  rw [readDecision_items h hId hUndo, readItemNumbers_ok hItems]
  exact if_pos (any_zero_iff.mpr hZero)

theorem readDecision_taken (h : ¬ Unreadable target) (hId : 0 < decimalNumber target)
    (hUndo : action ≠ "undo".toList) (hItems : Readable items) (hPositive : Positive items) :
    readDecision action target items expiry =
      .ok (some (.decision action (decimalNumber target) (items.map itemValues) expiry)) := by
  rw [readDecision_items h hId hUndo, readItemNumbers_ok hItems]
  exact if_neg fun hZero => any_zero_iff.mp hZero hPositive

/-! ## Replies of the grammar -/

theorem IsId.all {word : Text} (h : IsId word) : word.all isDecimal = true := by
  have hNumber := h.1
  rw [isNumber, Bool.and_eq_true] at hNumber
  exact hNumber.2

theorem IsId.nonempty {word : Text} (h : IsId word) : word ≠ [] := by
  rintro rfl
  exact absurd h.2 (by decide)

theorem IsItemList.isItems {list : Text} (h : IsItemList list) : isItems list = true := by
  rw [MatrixBot.isItems, Bool.and_eq_true, Bool.not_eq_true', List.isEmpty_eq_false_iff]
  constructor
  · rintro rfl
    exact (h [] (by decide)).nonempty rfl
  · rw [List.all_eq_true]
    intro c hc
    rw [isItemChar, Bool.or_eq_true, beq_iff_eq]
    have hPlace : c = ',' ∨ ∃ part ∈ list.splitOn ',', c ∈ part :=
      Components.mem_iff_splitOn.mp (Or.inr hc)
    rcases hPlace with rfl | ⟨part, hPart, hMem⟩
    · exact Or.inr rfl
    · exact Or.inl (List.all_eq_true.mp (h part hPart).all c hMem)

theorem isItemList_of_isItems {list : Text} (h : isItems list = true) (hRead : Readable (some list))
    (hPositive : Positive (some list)) : IsItemList list := by
  intro part hPart
  refine ⟨?_, hPositive list rfl part hPart⟩
  have hSome : part ≠ [] := fun hNil => hRead list rfl part hPart (Or.inl hNil)
  rw [isNumber, Bool.and_eq_true, Bool.not_eq_true', List.isEmpty_eq_false_iff, List.all_eq_true]
  refine ⟨hSome, fun c hc => ?_⟩
  have hComma : c ≠ ',' := by
    rintro rfl
    exact Components.notMem_of_mem_splitOn hPart hc
  have hMem : c ∈ list :=
    (Components.mem_iff_splitOn.mpr (Or.inr ⟨part, hPart, hc⟩)).resolve_left hComma
  rw [isItems, Bool.and_eq_true] at h
  have hItem := List.all_eq_true.mp h.2 c hMem
  rw [isItemChar, Bool.or_eq_true, beq_iff_eq] at hItem
  exact hItem.resolve_right hComma

theorem IsItemList.positive {items : Option Text}
    (h : ∀ list, items = some list → IsItemList list) : Positive items :=
  fun list hList part hPart => (h list hList part hPart).2

theorem isTarget_of_isNumber {word : Text} (h : isNumber word = true) : isTarget word = true := by
  rw [isTarget, h, Bool.true_or]

theorem isName_not_decimal {word : Text} (h : isName word = true) : ¬ word.all isDecimal = true := by
  cases word with
  | nil => cases h
  | cons c rest =>
    rw [isName, Bool.and_eq_true] at h
    intro hAll
    have hDecimal := List.all_eq_true.mp hAll c List.mem_cons_self
    have hStart : startsName c = true := h.1
    rw [startsName_of_isDecimal hDecimal] at hStart
    cases hStart

theorem says_mem {letters : String} {word : Text} (hWord : Says letters word)
    (hMem : letters.toList ∈ replyCommands) : word.map foldLetter ∈ replyCommands := by
  rw [hWord]
  exact hMem

theorem says_unique {letters others : String} {word : Text} (h : Says letters word)
    (h' : Says others word) : letters = others := String.toList_injective (h.symm.trans h')

theorem parseWords_fit {ws : List Text} {r : Reply} (h : fit ws = some r) :
    parseWords ws = readReply (readRevokeTarget ws) r := by
  rw [parseWords, h]
  rfl

/-- A number after a command that is not `status`. -/
theorem readReply_number {name : Option Text} {r : Reply} {target : Text}
    (hStatus : lowerMatched r.word ≠ "status".toList) (hTarget : r.target = some target)
    (hNumber : target.all isDecimal = true) :
    readReply name r = readDecision (lowerMatched r.word) target r.items r.expiry := by
  rw [readReply, if_neg hStatus, hTarget]
  exact if_pos hNumber

theorem readReply_name {name : Option Text} {r : Reply} {target : Text}
    (hRevoke : lowerMatched r.word = "revoke".toList) (hTarget : r.target = some target)
    (hNumber : ¬ target.all isDecimal = true) : readReply name r = .ok (name.map readName) := by
  have hStatus : lowerMatched r.word ≠ "status".toList := by
    rw [hRevoke]
    decide
  rw [readReply, if_neg hStatus, hTarget]
  dsimp only
  rw [if_neg hNumber, if_pos hRevoke]

theorem not_unreadable {target : Text} (hId : IsId target)
    (hLong : ¬ Json.maxIntDigits < target.length) : ¬ Unreadable target := by
  rw [Unreadable, not_or]
  exact ⟨hId.nonempty, hLong⟩

/-- A name that is read as one, after white space. -/
theorem parseWords_name {word target : Text} (hWord : Says "revoke" word)
    (hName : isName target = true) (hTarget : isRevokeTarget target = true) :
    parseWords [word, target] = .ok (some (readName target)) := by
  have hFit : fit [word, target] = some ⟨word, false, some target, none, none⟩ :=
    @fit_target word target none none (says_mem hWord (by decide))
      (by rw [isTarget, hName, Bool.or_true]) (by simp) (by simp)
  rw [parseWords_fit hFit, readReply_name (says_lowered hWord (by decide)) rfl
    (isName_not_decimal hName), readRevokeTarget, if_pos ⟨hWord, hTarget⟩]
  rfl

theorem isName_of_isLetter {c : Char} {rest : Text} (hc : isLetter c = true)
    (h : isRevokeTarget (c :: rest) = true) : isName (c :: rest) = true := by
  rw [isRevokeTarget, Bool.and_eq_true] at h
  rw [isName, Bool.and_eq_true]
  refine ⟨?_, h.2⟩
  rw [List.head?_cons, Option.any_some, startsName, hc, Bool.true_or]

/-- Nothing is read where a name begins with a digit. -/
theorem parseWords_digits {ws : List Text} (h : NamesDigits ws) : parseWords ws = .ok none := by
  rcases ws with _ | ⟨word, _ | ⟨target, _ | ⟨next, others⟩⟩⟩
  · cases h
  · cases h
  · obtain ⟨hWord, ⟨_, _, hDecimal⟩, hDigit⟩ := h
    have hTarget : isTarget target = false := by
      cases target with
      | nil => rfl
      | cons c rest =>
        rw [List.head?_cons, Option.any_some] at hDigit
        have hStart : startsName c = false := startsName_of_isDecimal (isDecimal_of_isDigit hDigit)
        rw [isTarget, isNumber, eq_false_of_ne_true hDecimal, Bool.and_false, Bool.false_or, isName,
          List.head?_cons, Option.any_some, hStart, Bool.false_and]
    have hRevoke : lowerMatched word = "revoke".toList := says_lowered hWord (by decide)
    rw [parseWords, fit, readCommand_whole (says_mem hWord (by decide)), Option.bind_some,
      fitArguments.eq_def, if_neg (by simp)]
    dsimp only
    rw [hTarget, if_neg Bool.false_ne_true, Option.none_or]
    cases fitTail [target] with
    | none => rfl
    | some tail =>
      rw [Option.map_some, Option.elim_some, readReply, hRevoke]
      rfl
  · cases h

/-! ## What the parser reads -/

theorem parseWords_decision {ws : List Text} {r : Reply} {target : Text} (h : fit ws = some r)
    (hStatus : lowerMatched r.word ≠ "status".toList) (hTarget : r.target = some target)
    (hNumber : target.all isDecimal = true) :
    parseWords ws = readDecision (lowerMatched r.word) target r.items r.expiry := by
  rw [parseWords_fit h, readReply_number hStatus hTarget hNumber]

/-- A decision or an undo of the grammar is read, unless the reply is one that slips. -/
theorem parseWords_reads_number {letters : String} {word id : Text} {items expiry : Option Text}
    (hWord : Says letters word) (hMem : letters.toList ∈ replyCommands)
    (hLetters : 'i' ∉ letters.toList ∧ 's' ∉ letters.toList) (hStatus : letters ≠ "status")
    (hId : IsId id) (hItems : ∀ list, items = some list → IsItemList list)
    (hExpiry : ∀ token, expiry = some token → isExpiry token = true)
    (hRead : ¬ Misread (word :: id :: (items.toList ++ expiry.toList))) :
    parseWords (word :: id :: (items.toList ++ expiry.toList)) =
      .ok (some (if letters = "undo" then .undo (decimalNumber id)
        else .decision letters.toList (decimalNumber id) (items.map itemValues) expiry)) := by
  have hFit := @fit_target word id items expiry (says_mem hWord hMem) (isTarget_of_isNumber hId.1)
    (fun list hList => (hItems list hList).isItems) hExpiry
  have hLowered : lowerMatched word = letters.toList := says_lowered hWord hLetters
  have hNotStatus : lowerMatched word ≠ "status".toList := by
    rw [hLowered]
    exact fun h => hStatus (String.toList_injective h)
  have hSlips : ¬ Slips ⟨word, false, some id, items, expiry⟩ := fun h => hRead (Or.inr ⟨_, hFit, h⟩)
  rw [Slips, if_neg hNotStatus] at hSlips
  simp only [not_and_or, not_or] at hSlips
  obtain ⟨hLong, hSlips⟩ := hSlips.resolve_left (not_not.mpr hId.1)
  have hUnreadable : ¬ Unreadable id := not_unreadable hId hLong
  replace hSlips := hSlips.resolve_left (not_not.mpr hId.2)
  rw [parseWords_decision hFit hNotStatus rfl hId.all]
  by_cases hUndo : letters = "undo"
  · subst hUndo
    rw [if_pos rfl, readDecision_undo hUnreadable hId.2 hLowered]
  · have hNotUndo : ¬ Says "undo" word := fun h => hUndo (says_unique hWord h)
    rw [if_neg hNotUndo, SlipsDecision, not_or, not_not] at hSlips
    have hAction : lowerMatched word ≠ "undo".toList := by
      rw [hLowered]
      exact fun h => hUndo (String.toList_injective h)
    rw [if_neg hUndo, readDecision_taken hUnreadable hId.2 hAction hSlips.1
      (IsItemList.positive hItems), hLowered]

/-- What the grammar has is read. -/
theorem parseWords_of_reads {ws : List Text} {parsed : Parsed} (h : Reads ws parsed)
    (hRead : ¬ Misread ws) : parseWords ws = .ok (some parsed) := by
  cases h with
  | @status word hWord =>
    have hFit := fit_alone (says_mem hWord (by decide))
    by_cases hLowered : lowerMatched word = "status".toList
    · rw [parseWords_fit hFit, readReply, if_pos hLowered]
    · refine absurd (Or.inr ⟨_, hFit, ?_⟩) hRead
      rw [Slips, if_neg hLowered]
      exact ⟨hWord, rfl, rfl⟩
  | approve hWord hId hItems hExpiry =>
    exact parseWords_reads_number hWord (by decide) (by decide) (by decide) hId hItems hExpiry hRead
  | @reject word id hWord hId =>
    exact @parseWords_reads_number _ word id none none hWord (by decide) (by decide) (by decide) hId
      (by simp) (by simp) hRead
  | @revoke word id hWord hId =>
    exact @parseWords_reads_number _ word id none none hWord (by decide) (by decide) (by decide) hId
      (by simp) (by simp) hRead
  | @undo word id hWord hId =>
    exact @parseWords_reads_number _ word id none none hWord (by decide) (by decide) (by decide) hId
      (by simp) (by simp) hRead
  | @revokeAll word target hWord hAll =>
    have hTarget := isRevokeTarget_all hAll
    obtain ⟨c, rest, rfl⟩ := List.exists_cons_of_ne_nil (l := target) (by
      rintro rfl
      cases hAll)
    have hc : isLetter c = true := by
      have hSame : sameLetter 'a' c = true := by
        rw [sameLetter, (List.cons_eq_cons.mp hAll).1]
        rfl
      exact isLetter_of_sameLetter (by decide) hSame
    rw [parseWords_name hWord (isName_of_isLetter hc hTarget) hTarget, readName,
      if_pos (lowered_all_iff.mpr hAll)]
  | @revokeInstance word target hWord hName =>
    obtain ⟨hTarget, hAll, hDecimal⟩ := hName
    cases target with
    | nil => cases hTarget
    | cons c rest =>
      have hFirst : startsTarget c = true := by
        rw [isRevokeTarget, Bool.and_eq_true] at hTarget
        exact hTarget.1
      by_cases hDigit : isDigit c = true
      · exact absurd (Or.inl ⟨hWord, ⟨hTarget, hAll, hDecimal⟩, hDigit⟩) hRead
      · rw [startsTarget, eq_false_of_ne_true hDigit, Bool.or_false] at hFirst
        rw [parseWords_name hWord (isName_of_isLetter hFirst hTarget) hTarget, readName,
          if_neg fun h => hAll (lowered_all_iff.mp h)]

theorem isNumber_of_isTarget {target : Text} (h : isTarget target = true)
    (hAll : target.all isDecimal = true) : isNumber target = true := by
  rw [isTarget, Bool.or_eq_true] at h
  exact h.resolve_right fun hName => isName_not_decimal hName hAll

/-- The reply a parsed number came from, and why. -/
theorem readDecision_some {action target : Text} {items expiry : Option Text} {parsed : Parsed}
    (h : readDecision action target items expiry = .ok (some parsed)) :
    ¬ Unreadable target ∧ 0 < decimalNumber target ∧
      (action = "undo".toList ∧ parsed = .undo (decimalNumber target) ∨
        action ≠ "undo".toList ∧ Readable items ∧ Positive items ∧
          parsed = .decision action (decimalNumber target) (items.map itemValues) expiry) := by
  have hTarget : ¬ Unreadable target := by
    intro hUnreadable
    obtain ⟨error, hError⟩ := @readDecision_long action target items expiry hUnreadable
    rw [hError] at h
    cases h
  have hId : 0 < decimalNumber target := by
    by_contra hZero
    rw [readDecision_zero hTarget hZero] at h
    cases h
  refine ⟨hTarget, hId, ?_⟩
  by_cases hUndo : action = "undo".toList
  · rw [readDecision_undo hTarget hId hUndo] at h
    cases h
    exact Or.inl ⟨hUndo, rfl⟩
  by_cases hItems : Readable items
  · by_cases hPositive : Positive items
    · rw [readDecision_taken hTarget hId hUndo hItems hPositive] at h
      cases h
      exact Or.inr ⟨hUndo, hItems, hPositive, rfl⟩
    · rw [readDecision_nonpositive hTarget hId hUndo hItems hPositive] at h
      cases h
  · obtain ⟨error, hError⟩ := @readDecision_unreadable action target items expiry hTarget hId hUndo hItems
    rw [hError] at h
    cases h

theorem readDecision_raises {action target : Text} {items expiry : Option Text} {error : NumberError}
    (h : readDecision action target items expiry = .error error) :
    Unreadable target ∨ 0 < decimalNumber target ∧ action ≠ "undo".toList ∧ ¬ Readable items := by
  by_cases hTarget : Unreadable target
  · exact Or.inl hTarget
  by_cases hId : 0 < decimalNumber target
  · by_cases hUndo : action = "undo".toList
    · rw [readDecision_undo hTarget hId hUndo] at h
      cases h
    · refine Or.inr ⟨hId, hUndo, fun hItems => ?_⟩
      by_cases hPositive : Positive items
      · rw [readDecision_taken hTarget hId hUndo hItems hPositive] at h
        cases h
      · rw [readDecision_nonpositive hTarget hId hUndo hItems hPositive] at h
        cases h
  · rw [readDecision_zero hTarget hId] at h
    cases h

/-- Nothing else has the word, the number and what follows it. -/
theorem reads_decision {ws : List Text} {word target : Text} {items expiry : Option Text}
    (hCommand : word.map foldLetter ∈ replyCommands)
    (hWords : ws = word :: target :: (items.toList ++ expiry.toList)) (hId : IsId target)
    (hUndo : lowerMatched word ≠ "undo".toList)
    (hPlain : ¬ (Says "status" word ∨ ¬ Says "approve" word ∧ (items ≠ none ∨ expiry ≠ none)))
    (hItems : ∀ list, items = some list → IsItemList list)
    (hExpiry : ∀ token, expiry = some token → isExpiry token = true) :
    Reads ws (.decision (lowerMatched word) (decimalNumber target) (items.map itemValues) expiry) := by
  subst hWords
  rw [not_or, not_and_or, not_or, not_not, ne_eq, ne_eq, not_not, not_not] at hPlain
  have hNotUndo : ¬ Says "undo" word := fun h => hUndo (says_lowered h (by decide))
  simp only [replyCommands, List.mem_cons, List.not_mem_nil, or_false] at hCommand
  rcases hCommand with hWord | hWord | hWord | hWord | hWord
  · rw [says_lowered hWord (by decide)]
    exact .approve hWord hId hItems hExpiry
  · obtain ⟨rfl, rfl⟩ := hPlain.2.resolve_left fun h => absurd (says_unique hWord h) (by decide)
    rw [says_lowered hWord (by decide)]
    exact .reject hWord hId
  · obtain ⟨rfl, rfl⟩ := hPlain.2.resolve_left fun h => absurd (says_unique hWord h) (by decide)
    rw [says_lowered hWord (by decide)]
    exact .revoke hWord hId
  · exact absurd hWord hNotUndo
  · exact absurd hWord hPlain.1

/-- A name read from the words is one of the grammar. -/
theorem reads_name {ws : List Text} {r : Reply} {target name : Text} (hFits : Fits ws r)
    (hTarget : r.target = some target) (hDecimal : ¬ target.all isDecimal = true)
    (hName : readRevokeTarget ws = some name) : Reads ws (readName name) := by
  obtain ⟨word, glued, _, items, expiry⟩ := r
  obtain ⟨hCommand, hWords, _, hTargets, _, _⟩ := hFits
  dsimp only at hCommand hTarget hTargets
  subst hTarget
  rcases ws with _ | ⟨first, _ | ⟨second, _ | ⟨next, others⟩⟩⟩
  · cases hName
  · cases hName
  · rw [readRevokeTarget] at hName
    split at hName
    · rename_i hBoth
      obtain ⟨hWord, hSecond⟩ := hBoth
      cases hName
      cases glued with
      | false =>
        have hSame : target = name := by
          rw [Reply.words, if_neg Bool.false_ne_true] at hWords
          exact ((List.cons_eq_cons.mp (List.cons_eq_cons.mp hWords).2).1).symm
        subst hSame
        rw [readName]
        split
        · rename_i hAll
          exact .revokeAll hWord (lowered_all_iff.mp hAll)
        · rename_i hAll
          exact .revokeInstance hWord ⟨hSecond, fun h => hAll (lowered_all_iff.mpr h), hDecimal⟩
      | true =>
        have hFirst : first = word ++ target := by
          rw [Reply.words, if_pos rfl] at hWords
          exact (List.cons_eq_cons.mp hWords).1
        have hPrefix : word.map foldLetter <+: "revoke".toList := by
          rw [← hWord, hFirst, List.map_append]
          exact List.prefix_append _ _
        have hSame := replyCommands_apart _ hCommand _ (by decide) hPrefix
        rw [Says, hFirst, List.map_append, hSame] at hWord
        have hNil : target = [] := by simpa using hWord
        subst hNil
        exact absurd rfl hDecimal
    · cases hName
  · cases hName

/-- What is read is in the grammar. -/
theorem reads_of_parseWords {ws : List Text} {parsed : Parsed}
    (h : parseWords ws = .ok (some parsed)) (hRead : ¬ Misread ws) : Reads ws parsed := by
  cases hFit : fit ws with
  | none =>
    rw [parseWords, hFit] at h
    cases h
  | some r =>
    have hFits := fit_fits hFit
    have hSlips : ¬ Slips r := fun h => hRead (Or.inr ⟨r, hFit, h⟩)
    rw [parseWords_fit hFit] at h
    obtain ⟨hCommand, hWords, hGlued, hTargets, hItems, hExpiry⟩ := id hFits
    by_cases hStatus : lowerMatched r.word = "status".toList
    · rw [readReply, if_pos hStatus] at h
      cases h
      rw [Slips, if_pos hStatus, not_or, not_or, ne_eq, ne_eq, ne_eq, not_not, not_not, not_not]
        at hSlips
      obtain ⟨hTarget, hNoItems, hNoExpiry⟩ := hSlips
      have hApart : ¬ r.glued = true := fun h => hGlued h hTarget
      rw [hWords, Reply.words, if_neg hApart, hTarget, hNoItems, hNoExpiry]
      exact .status (says_command hCommand (by decide) hStatus)
    rw [Slips, if_neg hStatus] at hSlips
    cases hTarget : r.target with
    | none =>
      rw [readReply, if_neg hStatus, hTarget] at h
      cases h
    | some target =>
      rw [hTarget] at hSlips
      by_cases hDecimal : target.all isDecimal = true
      · have hNumber := isNumber_of_isTarget (hTargets target hTarget) hDecimal
        rw [readReply_number hStatus hTarget hDecimal] at h
        obtain ⟨hTargetRead, hPositive, hParsed⟩ := readDecision_some h
        have hId : IsId target := ⟨hNumber, hPositive⟩
        simp only [not_and_or, not_or] at hSlips
        replace hSlips := (hSlips.resolve_left (not_not.mpr hNumber)).2.resolve_left
          (not_not.mpr hPositive)
        rcases hParsed with ⟨hUndo, rfl⟩ | ⟨hUndo, hReadable, hPositiveItems, rfl⟩
        · have hWord : Says "undo" r.word := says_command hCommand (by decide) hUndo
          rw [if_pos hWord, not_or, not_or, ne_eq, ne_eq, not_not, not_not] at hSlips
          rw [hWords, Reply.words, if_neg hSlips.1, hTarget, hSlips.2.1, hSlips.2.2]
          exact .undo hWord hId
        · rw [if_neg fun hWord => hUndo (says_lowered hWord (by decide)), SlipsDecision, not_or,
            not_not, not_and_or, not_or] at hSlips
          obtain ⟨hApart, hPlain⟩ := hSlips.2.resolve_left (not_not.mpr hPositiveItems)
          have hSpaced : ws = r.word :: target :: (r.items.toList ++ r.expiry.toList) := by
            rw [hWords, Reply.words, if_neg hApart, hTarget]
            rfl
          refine reads_decision hCommand hSpaced hId hUndo hPlain ?_ hExpiry
          intro list hList
          exact isItemList_of_isItems (hItems list hList) (hList ▸ hReadable)
            (hList ▸ hPositiveItems)
      · by_cases hRevoke : lowerMatched r.word = "revoke".toList
        · rw [readReply_name hRevoke hTarget hDecimal] at h
          cases hName : readRevokeTarget ws with
          | none =>
            rw [hName] at h
            cases h
          | some name =>
            rw [hName] at h
            cases h
            exact reads_name hFits hTarget hDecimal hName
        · rw [readReply, if_neg hStatus, hTarget] at h
          dsimp only at h
          rw [if_neg hDecimal, if_neg hRevoke] at h
          cases h

/-! ## What the parser misreads -/

/-- A number that is too long, or items that cannot all be read after a number that can. -/
def Raises (ws : List Text) : Prop :=
  ∃ r target, fit ws = some r ∧ r.target = some target ∧ lowerMatched r.word ≠ "status".toList ∧
    isNumber target = true ∧ (Json.maxIntDigits < target.length ∨
      0 < decimalNumber target ∧ ¬ Says "undo" r.word ∧ ¬ Readable r.items)

theorem raises_of_error {ws : List Text} {error : NumberError} (h : parseWords ws = .error error) :
    Raises ws := by
  cases hFit : fit ws with
  | none =>
    rw [parseWords, hFit] at h
    cases h
  | some r =>
    rw [parseWords_fit hFit] at h
    by_cases hStatus : lowerMatched r.word = "status".toList
    · rw [readReply, if_pos hStatus] at h
      cases h
    cases hTarget : r.target with
    | none =>
      rw [readReply, if_neg hStatus, hTarget] at h
      cases h
    | some target =>
      by_cases hDecimal : target.all isDecimal = true
      · have hNumber := isNumber_of_isTarget ((fit_fits hFit).target target hTarget) hDecimal
        rw [readReply_number hStatus hTarget hDecimal] at h
        refine ⟨r, target, hFit, hTarget, hStatus, hNumber, ?_⟩
        rcases readDecision_raises h with hUnreadable | ⟨hId, hUndo, hItems⟩
        · refine Or.inl (hUnreadable.resolve_left ?_)
          rintro rfl
          cases hNumber
        · exact Or.inr ⟨hId, fun hWord => hUndo (says_lowered hWord (by decide)), hItems⟩
      · rw [readReply, if_neg hStatus, hTarget] at h
        dsimp only at h
        rw [if_neg hDecimal] at h
        split at h <;> cases h

theorem error_of_raises {ws : List Text} (h : Raises ws) : ∃ error, parseWords ws = .error error := by
  obtain ⟨r, target, hFit, hTarget, hStatus, hNumber, h⟩ := h
  have hDecimal : target.all isDecimal = true := by
    rw [isNumber, Bool.and_eq_true] at hNumber
    exact hNumber.2
  rw [parseWords_decision hFit hStatus hTarget hDecimal]
  by_cases hLong : Json.maxIntDigits < target.length
  · exact readDecision_long (Or.inr hLong)
  · obtain ⟨hId, hUndo, hItems⟩ := h.resolve_left hLong
    exact readDecision_unreadable (not_unreadable ⟨hNumber, hId⟩ hLong) hId
      (fun h => hUndo (says_command (fit_fits hFit).command (by decide) h)) hItems

theorem misread_of_error {ws : List Text} {error : NumberError} (h : parseWords ws = .error error) :
    Misread ws := by
  obtain ⟨r, target, hFit, hTarget, hStatus, hNumber, h⟩ := raises_of_error h
  refine Or.inr ⟨r, hFit, ?_⟩
  rw [Slips, if_neg hStatus, hTarget]
  refine ⟨hNumber, h.imp id ?_⟩
  rintro ⟨hId, hUndo, hItems⟩
  refine ⟨hId, ?_⟩
  rw [if_neg hUndo]
  exact Or.inl hItems

theorem Reads.status_parts {ws : List Text} {r : Reply} (h : Reads ws .status)
    (hFit : fit ws = some r) : r.target = none ∧ r.items = none ∧ r.expiry = none := by
  cases h with
  | status hWord =>
    rw [fit_alone (says_mem hWord (by decide))] at hFit
    cases hFit
    exact ⟨rfl, rfl, rfl⟩

theorem fit_pair {letters : String} {word id : Text} {r : Reply} (hWord : Says letters word)
    (hMem : letters.toList ∈ replyCommands) (hId : IsId id) (hFit : fit [word, id] = some r) :
    r = ⟨word, false, some id, none, none⟩ := by
  have hPair := @fit_target word id none none (says_mem hWord hMem) (isTarget_of_isNumber hId.1)
    (by simp) (by simp)
  exact Option.some.inj (hFit.symm.trans hPair)

theorem Reads.undo_parts {ws : List Text} {rid : Nat} {r : Reply} (h : Reads ws (.undo rid))
    (hFit : fit ws = some r) : r.glued = false ∧ r.items = none ∧ r.expiry = none := by
  cases h with
  | undo hWord hId =>
    rw [fit_pair hWord (by decide) hId hFit]
    exact ⟨rfl, rfl, rfl⟩

theorem Reads.decision_parts {ws : List Text} {action : Text} {rid : Nat}
    {itemNumbers : Option (List Nat)} {expiry : Option Text} {r : Reply}
    (h : Reads ws (.decision action rid itemNumbers expiry)) (hFit : fit ws = some r) :
    r.glued = false ∧ ¬ Says "status" r.word ∧
      (Says "approve" r.word ∨ r.items = none ∧ r.expiry = none) := by
  cases h with
  | approve hWord hId hItems hExpiry =>
    rw [fit_target (says_mem hWord (by decide)) (isTarget_of_isNumber hId.1)
      (fun list hList => (hItems list hList).isItems) hExpiry] at hFit
    cases hFit
    exact ⟨rfl, fun h => absurd (says_unique hWord h) (by decide), Or.inl hWord⟩
  | reject hWord hId =>
    rw [fit_pair hWord (by decide) hId hFit]
    exact ⟨rfl, fun h => absurd (says_unique hWord h) (by decide), Or.inr ⟨rfl, rfl⟩⟩
  | revoke hWord hId =>
    rw [fit_pair hWord (by decide) hId hFit]
    exact ⟨rfl, fun h => absurd (says_unique hWord h) (by decide), Or.inr ⟨rfl, rfl⟩⟩

/-- A reply that slips is read as something the grammar does not have, or the other way round. -/
theorem inexact_of_slips {ws : List Text} {r : Reply} (hFit : fit ws = some r) (hSlips : Slips r)
    (hSome : ∀ parsed, parseWords ws = .ok (some parsed) ↔ Reads ws parsed)
    (hNone : ∀ error, parseWords ws ≠ .error error) : False := by
  have hFits := fit_fits hFit
  by_cases hStatus : lowerMatched r.word = "status".toList
  · rw [Slips, if_pos hStatus] at hSlips
    have hParsed : parseWords ws = .ok (some .status) := by
      rw [parseWords_fit hFit, readReply, if_pos hStatus]
    obtain ⟨hTarget, hItems, hExpiry⟩ := ((hSome _).mp hParsed).status_parts hFit
    rcases hSlips with h | h | h
    · exact h hTarget
    · exact h hItems
    · exact h hExpiry
  rw [Slips, if_neg hStatus] at hSlips
  cases hTarget : r.target with
  | none =>
    rw [hTarget] at hSlips
    obtain ⟨hWord, hItems, hExpiry⟩ := hSlips
    have hApart : ¬ r.glued = true := fun h => hFits.glued h hTarget
    have hWords : ws = [r.word] := by
      rw [hFits.words_eq, Reply.words, if_neg hApart, hTarget, hItems, hExpiry]
      rfl
    have hParsed := (hSome _).mpr (hWords ▸ Reads.status hWord)
    rw [parseWords_fit hFit, readReply, if_neg hStatus, hTarget] at hParsed
    cases hParsed
  | some target =>
    rw [hTarget] at hSlips
    obtain ⟨hNumber, hSlips⟩ := hSlips
    have hDecimal : target.all isDecimal = true := by
      rw [isNumber, Bool.and_eq_true] at hNumber
      exact hNumber.2
    have hParse := parseWords_decision hFit hStatus hTarget hDecimal
    by_cases hLong : Json.maxIntDigits < target.length
    · obtain ⟨error, hError⟩ := @readDecision_long (lowerMatched r.word) target r.items r.expiry
        (Or.inr hLong)
      exact hNone error (hParse.trans hError)
    obtain ⟨hPositive, hSlips⟩ := hSlips.resolve_left hLong
    have hId : IsId target := ⟨hNumber, hPositive⟩
    have hTargetRead := not_unreadable hId hLong
    by_cases hWord : Says "undo" r.word
    · rw [if_pos hWord] at hSlips
      rw [readDecision_undo hTargetRead hPositive (says_lowered hWord (by decide))] at hParse
      obtain ⟨hApart, hItems, hExpiry⟩ := ((hSome _).mp hParse).undo_parts hFit
      rcases hSlips with h | h | h
      · rw [hApart] at h
        cases h
      · exact h hItems
      · exact h hExpiry
    · rw [if_neg hWord] at hSlips
      have hUndo : lowerMatched r.word ≠ "undo".toList :=
        fun h => hWord (says_command hFits.command (by decide) h)
      by_cases hItems : Readable r.items
      · obtain ⟨hPositiveItems, hSlips⟩ := hSlips.resolve_left (not_not.mpr hItems)
        rw [readDecision_taken hTargetRead hPositive hUndo hItems hPositiveItems] at hParse
        obtain ⟨hApart, hNotStatus, hPlain⟩ := ((hSome _).mp hParse).decision_parts hFit
        rcases hSlips with h | h | ⟨hNotApprove, h⟩
        · rw [hApart] at h
          cases h
        · exact hNotStatus h
        · obtain ⟨hNoItems, hNoExpiry⟩ := hPlain.resolve_left hNotApprove
          rcases h with h | h
          · exact h hNoItems
          · exact h hNoExpiry
      · obtain ⟨error, hError⟩ := @readDecision_unreadable _ _ _ r.expiry hTargetRead hPositive hUndo
          hItems
        exact hNone error (hParse.trans hError)

theorem reads_of_namesDigits {ws : List Text} (h : NamesDigits ws) : ∃ parsed, Reads ws parsed := by
  rcases ws with _ | ⟨word, _ | ⟨target, _ | ⟨next, others⟩⟩⟩
  · cases h
  · cases h
  · obtain ⟨hWord, hName, _⟩ := h
    exact ⟨_, .revokeInstance hWord hName⟩
  · cases h

/-- Parsing follows the grammar on every reply but those it misreads. -/
theorem reads_exactly_iff (text : Text) : ReadsExactly text ↔ ¬ Misread (words text) := by
  rw [ReadsExactly, parseReply_words]
  constructor
  · rintro ⟨hSome, hNone⟩ (hDigits | ⟨r, hFit, hSlips⟩)
    · obtain ⟨parsed, hReads⟩ := reads_of_namesDigits hDigits
      have hParsed := (hSome parsed).mpr hReads
      rw [parseWords_digits hDigits] at hParsed
      cases hParsed
    · exact inexact_of_slips hFit hSlips hSome hNone
  · intro hRead
    refine ⟨fun parsed => ⟨fun h => reads_of_parseWords h hRead, fun h => parseWords_of_reads h hRead⟩,
      ?_⟩
    intro error hError
    exact hRead (misread_of_error hError)

theorem Reads.reject_items {ws : List Text} {action : Text} {rid : Nat}
    {itemNumbers : Option (List Nat)} {expiry : Option Text}
    (h : Reads ws (.decision action rid itemNumbers expiry)) (hAction : action = "reject".toList) :
    itemNumbers = none := by
  cases h with
  | approve => exact absurd hAction (by decide)
  | reject => rfl
  | revoke => rfl

/-- The items after `reject` are taken, and an empty item raises. -/
theorem replies_misread :
    ¬ ReadsExactly "reject 3 1,2".toList ∧ ¬ ReadsExactly "approve 3 ,".toList := by
  constructor
  · rintro ⟨hSome, _⟩
    have hParsed : parseReply "reject 3 1,2".toList =
        .ok (some (.decision "reject".toList 3 (some [1, 2]) none)) := by decide +kernel
    have hItems := ((hSome _).mp hParsed).reject_items rfl
    cases hItems
  · rintro ⟨_, hNone⟩
    have hRaised : parseReply "approve 3 ,".toList = .error (.invalidLiteral []) := by decide +kernel
    exact hNone _ hRaised

end AccessBroker.MatrixBot
