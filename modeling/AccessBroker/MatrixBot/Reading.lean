import AccessBroker.MatrixBot.Pattern

/-! # What the pattern reads

A reply is read from its words: the command, the target that follows it with or
without white space, the items and the expiry.
-/

namespace AccessBroker.MatrixBot
open Py Regex
set_option autoImplicit false

/-- What the four groups hold, and whether the target stands right after the word. -/
structure Reply where
  word : Text
  glued : Bool
  target : Option Text
  items : Option Text
  expiry : Option Text
  deriving DecidableEq

namespace Reply

def groups (r : Reply) : Groups :=
  withExpiry r.expiry (withItems r.items
    ((r.target.map fun target => (2, target)).toList ++ [(1, r.word)]))

/-- What the regular expression captured under each of its four groups. -/
theorem lookup_groups (r : Reply) :
    r.groups.lookup 1 = some r.word ∧ r.groups.lookup 2 = r.target ∧
      r.groups.lookup 3 = r.items ∧ r.groups.lookup 4 = r.expiry := by
  obtain ⟨word, glued, target, items, expiry⟩ := r
  rcases target with _ | target <;> rcases items with _ | items <;> rcases expiry with _ | expiry <;>
    exact ⟨rfl, rfl, rfl, rfl⟩

end Reply

/-! ## Commands -/

def replyCommands : List Text :=
  ["approve".toList, "reject".toList, "revoke".toList, "undo".toList, "status".toList]

/-- The command as it was typed, and what stands right after it. -/
def readCommand (first : Text) : Option (Text × Text) :=
  (replyCommands.findSome? fun letters => afterWord sameLetter letters first).map
    fun glue => (first.take (first.length - glue.length), glue)

theorem forall₂_fold {letters taken : Text}
    (h : List.Forall₂ (fun letter c => sameLetter letter c = true) letters taken) :
    taken.map foldLetter = letters := by
  induction h with
  | nil => rfl
  | cons hSame _ ih =>
    rw [sameLetter, beq_iff_eq] at hSame
    rw [List.map_cons, hSame, ih]

theorem afterWord_fold {letters text rest : Text}
    (h : afterWord sameLetter letters text = some rest) : letters <+: text.map foldLetter := by
  obtain ⟨taken, rfl, hTaken⟩ := afterWord_eq_some_iff.mp h
  rw [List.map_append, forall₂_fold hTaken]
  exact List.prefix_append letters _

theorem replyCommands_apart :
    ∀ letters ∈ replyCommands, ∀ others ∈ replyCommands, letters <+: others → letters = others := by
  decide

/-- At most one of the commands begins a text. -/
theorem afterWord_unique {text rest rest' letters others : Text} (hLetters : letters ∈ replyCommands)
    (hOthers : others ∈ replyCommands) (h : afterWord sameLetter letters text = some rest)
    (h' : afterWord sameLetter others text = some rest') : letters = others := by
  rcases List.prefix_or_prefix_of_prefix (afterWord_fold h) (afterWord_fold h') with hPrefix | hPrefix
  · exact replyCommands_apart letters hLetters others hOthers hPrefix
  · exact (replyCommands_apart others hOthers letters hLetters hPrefix).symm

theorem findSome_bind {α β γ : Type} {f : α → Option β} (g : β → Option γ) {xs : List α}
    (h : ∀ x ∈ xs, ∀ y ∈ xs, (f x).isSome → (f y).isSome → x = y) (hNodup : xs.Nodup) :
    (xs.findSome? fun x => (f x).bind g) = (xs.findSome? f).bind g := by
  induction xs with
  | nil => rfl
  | cons x xs ih =>
    obtain ⟨hx, hNodup⟩ := List.nodup_cons.mp hNodup
    rw [List.findSome?_cons, List.findSome?_cons]
    cases hf : f x with
    | none =>
      exact ih (fun y hy z hz => h y (List.mem_cons_of_mem x hy) z (List.mem_cons_of_mem x hz)) hNodup
    | some b =>
      rw [Option.bind_some]
      cases hg : g b with
      | some c => rfl
      | none =>
        dsimp only
        rw [List.findSome?_eq_none_iff]
        intro y hy
        cases hfy : f y with
        | none => rfl
        | some d =>
          have hSame := h x List.mem_cons_self y (List.mem_cons_of_mem x hy) (by rw [hf]; rfl)
            (by rw [hfy]; rfl)
          exact absurd (hSame ▸ hy) hx

theorem findSome_congr {α β : Type} {f g : α → Option β} {xs : List α} (h : ∀ x ∈ xs, f x = g x) :
    xs.findSome? f = xs.findSome? g := by
  induction xs with
  | nil => rfl
  | cons x xs ih =>
    obtain ⟨hx, hMore⟩ := List.forall_mem_cons.mp h
    rw [List.findSome?_cons, List.findSome?_cons, hx, ih hMore]

theorem sameLetter_space {letter c : Char} (hLetter : 'a' ≤ letter ∧ letter ≤ 'z')
    (hc : isSpace c = true) : sameLetter letter c = false := by
  rw [← Bool.not_eq_true]
  intro hSame
  rw [isSpace_of_isLetter (isLetter_of_sameLetter hLetter hSame)] at hc
  cases hc

def areLetters (letters : Text) : Bool :=
  letters.all fun letter => decide ('a' ≤ letter ∧ letter ≤ 'z')

theorem letter_of_areLetters {letters : Text} (h : areLetters letters = true) :
    ∀ letter ∈ letters, 'a' ≤ letter ∧ letter ≤ 'z' :=
  fun letter hLetter => of_decide_eq_true (List.all_eq_true.mp h letter hLetter)

theorem replyCommands_letters :
    ∀ letters ∈ replyCommands, ∀ letter ∈ letters, 'a' ≤ letter ∧ letter ≤ 'z' := by
  have hAll : ∀ letters ∈ replyCommands, areLetters letters = true := by decide
  exact fun letters hLetters => letter_of_areLetters (hAll letters hLetters)

/-- The command is read from the first word alone. -/
theorem afterWord_first {letters word rest : Text} (hLetters : letters ∈ replyCommands)
    (hRest : Parted rest) :
    afterWord sameLetter letters (word ++ rest) =
      (afterWord sameLetter letters word).map (· ++ rest) := by
  apply afterWord_append
  intro letter hLetter c more hMore
  exact sameLetter_space (replyCommands_letters letters hLetters letter hLetter) (hRest c more hMore)

/-! ## Targets -/

def targetPart : Regex :=
  .opt (.group 2 (.alt (.run isDecimal 1 none) (.seq (.char startsName) (.run isTargetChar 0 none))))

theorem replyRe_eq : replyRe = .sequence [
    .group 1 (.choice (commandWord "approve") [commandWord "reject", commandWord "revoke",
      commandWord "undo", commandWord "status"]),
    .run isSpace 0 none, targetPart, itemsPart, expiryPart] := rfl

def tailGroups (groups : Groups) (tail : Option Text × Option Text) : Groups :=
  withExpiry tail.2 (withItems tail.1 groups)

theorem target_unread {groups : Groups} {c : Char} (rest : Text) (hc : isSpace c = true) :
    targetPart.matchThen groups (c :: rest) matchTail = matchTail groups (c :: rest) := by
  have hDecimal : isDecimal c = false := by
    rw [← Bool.not_eq_true]
    intro hDecimal
    rw [isSpace_of_isDecimal hDecimal] at hc
    cases hc
  have hStart : startsName c = false := by
    rw [← Bool.not_eq_true]
    intro hStart
    rw [isSpace_of_isTargetChar (isTargetChar_of_startsName hStart)] at hc
    cases hc
  rw [targetPart, matchThen, group_append, matchThen, run_none (le_refl 1) hDecimal, matchThen,
    matchThen, hStart]
  rfl

theorem target_word {groups : Groups} {word more : Text} (hWord : Unspaced word)
    (hNonempty : word ≠ []) (hMore : Parted more) (hTrimmed : Trimmed more) :
    targetPart.matchThen groups (word ++ more) matchTail =
      if isTarget word then (fitTail (words more)).map (tailGroups ((2, word) :: groups))
      else none := by
  obtain ⟨c, others, rfl⟩ := List.exists_cons_of_ne_nil hNonempty
  obtain ⟨hc, hOthers⟩ := List.forall_mem_cons.mp hWord
  have hTarget : ∀ d, isTargetChar d = true → isSpace d = false := fun d => isSpace_of_isTargetChar
  have hDecimal : ∀ d, isDecimal d = true → isSpace d = false := fun d => isSpace_of_isDecimal
  have hTail := @tail_parted ((2, c :: others) :: groups) more hMore hTrimmed
  have hNumber : isNumber (c :: others) = (c :: others).all isDecimal := by simp [isNumber]
  have hName : isName (c :: others) = (startsName c && others.all isTargetChar) := rfl
  have hSome : 1 ≤ (c :: others).length := List.length_pos_iff.mpr hNonempty
  rw [targetPart, matchThen, group_append, matchThen, List.cons_append, tail_unparted _ hc,
    Option.or_none, ← List.cons_append, run_word hDecimal _ hWord hMore, take_taken, hTail, isTarget,
    hNumber, hName]
  · by_cases hAll : (c :: others).all isDecimal = true
    · have hStart : startsName c = false :=
        startsName_of_isDecimal (List.all_eq_true.mp hAll c List.mem_cons_self)
      rw [if_pos ⟨hSome, hAll⟩, hAll, Bool.true_or, if_pos rfl, List.cons_append, matchThen,
        matchThen, hStart, if_neg Bool.false_ne_true, Option.or_none]
      rfl
    · rw [if_neg fun h => hAll h.2, Option.none_or, eq_false_of_ne_true hAll,
        Bool.false_or, List.cons_append, matchThen, matchThen]
      by_cases hStart : startsName c = true
      · rw [if_pos hStart, run_word hTarget _ hOthers hMore, hStart, Bool.true_and]
        · refine if_congr (by simp) ?_ rfl
          rw [← List.cons_append, take_taken, hTail]
          rfl
        · intro d rest hd
          exact tail_unparted rest hd
      · rw [if_neg hStart, eq_false_of_ne_true hStart, Bool.false_and,
          if_neg Bool.false_ne_true]
  · intro d rest hd
    exact tail_unparted rest hd

/-! ## The white space after the command -/

theorem tryRun_const {β : Type} {text : Text} {k : Text → Option β} {v : Option β} (n : Nat)
    (hk : ∀ m, m < n + 1 → k (text.drop m) = v) :
    tryRun 0 text k (n + 1) = (k (text.drop (n + 1))).or v := by
  have hBelow : tryRun 0 text k n = v := by
    induction n with
    | zero =>
      have hZero := hk 0 (Nat.zero_lt_one)
      rw [List.drop_zero] at hZero
      rw [tryRun, if_pos rfl, hZero]
    | succ n ih =>
      rw [tryRun, if_pos (Nat.zero_le _), hk (n + 1) (Nat.lt_succ_self _),
        ih fun m hm => hk m (Nat.lt_succ_of_lt hm), Option.or_self]
  rw [tryRun, if_pos (Nat.zero_le _), hBelow]

def matchRest (groups : Groups) (rest : Text) : Option Groups :=
  (run isSpace 0 none).matchThen groups rest fun groups rest =>
    targetPart.matchThen groups rest matchTail

/-- What stands right after the command has to be its target. -/
theorem rest_glued {groups : Groups} {word more : Text} (hWord : Unspaced word)
    (hNonempty : word ≠ []) (hMore : Parted more) (hTrimmed : Trimmed more) :
    matchRest groups (word ++ more) =
      if isTarget word then (fitTail (words more)).map (tailGroups ((2, word) :: groups))
      else none := by
  rw [← target_word hWord hNonempty hMore hTrimmed, matchRest, matchThen]
  obtain ⟨c, others, rfl⟩ := List.exists_cons_of_ne_nil hNonempty
  have hc : isSpace c = false := hWord c List.mem_cons_self
  rw [List.cons_append, runLength, if_neg (by rw [hc]; exact Bool.false_ne_true), tryRun,
    if_pos rfl]

/-- After white space the target may be left out. -/
theorem rest_parted {groups : Groups} {blank word more : Text} (hBlank : Blank blank)
    (hSome : blank ≠ []) (hWord : Unspaced word) (hNonempty : word ≠ []) (hMore : Parted more)
    (hTrimmed : Trimmed (word ++ more)) :
    matchRest groups (blank ++ (word ++ more)) =
      (if isTarget word then (fitTail (words more)).map (tailGroups ((2, word) :: groups))
        else none).or
      ((fitTail (word :: words more)).map (tailGroups groups)) := by
  have hLength : runLength isSpace none (blank ++ (word ++ more)) = blank.length :=
    runLength_append hBlank (hWord.head hNonempty more)
  have hShort : ∀ m, m < blank.length →
      targetPart.matchThen groups ((blank ++ (word ++ more)).drop m) matchTail =
        (fitTail (word :: words more)).map (tailGroups groups) := by
    intro m hm
    have hDropBlank : Blank (blank.drop m) := fun c hc => hBlank c (List.mem_of_mem_drop hc)
    have hWords : words (blank.drop m ++ (word ++ more)) = word :: words more := by
      rw [words_blank_append hDropBlank, words_append_parted hWord hNonempty hMore]
    have hTail : Trimmed (blank.drop m ++ (word ++ more)) := by
      intro c hLast
      apply hTrimmed c
      rw [List.getLast?_append] at hLast
      have hEnd : (word ++ more).getLast? ≠ none := by simp [hNonempty]
      obtain ⟨d, hd⟩ := Option.ne_none_iff_exists'.mp hEnd
      rw [hd] at hLast ⊢
      exact hLast
    rw [List.drop_append_of_le_length (Nat.le_of_lt hm)]
    rw [List.drop_eq_getElem_cons hm] at hDropBlank hWords hTail ⊢
    obtain ⟨hc, _⟩ := List.forall_mem_cons.mp hDropBlank
    rw [List.cons_append] at hWords hTail ⊢
    rw [target_unread _ hc, tail_parted (fun d rest h => (List.cons_eq_cons.mp h).1 ▸ hc) hTail,
      hWords]
    rfl
  rw [matchRest, matchThen, hLength]
  obtain ⟨n, hn⟩ := Nat.exists_eq_succ_of_ne_zero (List.length_pos_iff.mpr hSome).ne'
  rw [hn, tryRun_const n fun m hm => hShort m (by omega), ← Nat.succ_eq_add_one, ← hn,
    List.drop_left, target_word hWord hNonempty hMore hTrimmed.of_append]

/-! ## Replies -/

def fitArguments (word glue : Text) (arguments : List Text) : Option Reply :=
  if glue ≠ [] then
    if isTarget glue then
      (fitTail arguments).map fun tail => ⟨word, true, some glue, tail.1, tail.2⟩
    else none
  else
    match arguments with
    | [] => some ⟨word, false, none, none, none⟩
    | target :: rest =>
      (if isTarget target then
          (fitTail rest).map fun tail => ⟨word, false, some target, tail.1, tail.2⟩
        else none).or
        ((fitTail arguments).map fun tail => ⟨word, false, none, tail.1, tail.2⟩)

def fit : List Text → Option Reply
  | [] => none
  | first :: arguments =>
    (readCommand first).bind fun read => fitArguments read.1 read.2 arguments

theorem matchRest_eq {word glue more : Text} (hGlue : Unspaced glue) (hMore : Parted more)
    (hTrimmed : Trimmed more) :
    matchRest [(1, word)] (glue ++ more) =
      (fitArguments word glue (words more)).map Reply.groups := by
  by_cases hGlued : glue = []
  · subst hGlued
    rw [List.nil_append, fitArguments.eq_def, if_neg (by simp)]
    rcases hMore.cases hTrimmed with
      rfl | ⟨blank, first, others, rfl, hBlank, hSome, hFirst, hNonempty, hOthers, hWords⟩
    · rfl
    · rw [rest_parted hBlank hSome hFirst hNonempty hOthers hTrimmed.of_append, hWords]
      dsimp only
      rw [Option.map_or]
      congr 1
      · split
        · rw [Option.map_map]
          rfl
        · rfl
      · rw [Option.map_map]
        rfl
  · rw [rest_glued hGlue hGlued hMore hTrimmed, fitArguments.eq_def, if_pos hGlued]
    split
    · rw [Option.map_map]
      rfl
    · rfl

theorem matchLine_replyRe (text : Text) :
    replyRe.matchLine text =
      (replyCommands.findSome? fun letters => afterWord sameLetter letters text).bind fun rest =>
        matchRest [(1, text.take (text.length - rest.length))] rest := by
  have hUnique : ∀ letters ∈ replyCommands, ∀ others ∈ replyCommands,
      (afterWord sameLetter letters text).isSome → (afterWord sameLetter others text).isSome →
        letters = others := by
    intro letters hLetters others hOthers h h'
    obtain ⟨rest, hRest⟩ := Option.isSome_iff_exists.mp h
    obtain ⟨rest', hRest'⟩ := Option.isSome_iff_exists.mp h'
    exact afterWord_unique hLetters hOthers hRest hRest'
  rw [← findSome_bind _ hUnique (by decide), replyRe_eq, matchLine_eq]
  change (group 1 _).matchThen [] text (fun groups rest => matchRest groups rest) = _
  rw [group_append, choice_matchThen]
  change ([_, _, _, _, _] : List Regex).findSome? _ = [_, _, _, _, _].findSome? _
  simp only [List.findSome?_cons, List.findSome?_nil, commandWord, word_matchThen]

/-- A reply is matched as its words are read. -/
theorem replyRe_words (text : Text) :
    replyRe.matchLine (strip text) = (fit (words text)).map Reply.groups := by
  rw [matchLine_replyRe, ← words_strip text]
  have hTrimmed := strip_trimmed text
  cases hText : strip text with
  | nil => rfl
  | cons c rest =>
    obtain ⟨first, more, hSplit, hFirst, hMore⟩ := exists_word rest (strip_head text hText)
    rw [hText, hSplit] at hTrimmed
    rw [hSplit, words_append_parted hFirst (List.cons_ne_nil _ _) hMore, fit, readCommand]
    have hFind : (replyCommands.findSome? fun letters =>
          afterWord sameLetter letters (c :: first ++ more)) =
        (replyCommands.findSome? fun letters =>
          afterWord sameLetter letters (c :: first)).map (· ++ more) := by
      rw [List.map_findSome?]
      apply findSome_congr
      intro letters hLetters
      exact afterWord_first hLetters hMore
    rw [hFind]
    cases hGlue : replyCommands.findSome? fun letters => afterWord sameLetter letters (c :: first) with
    | none => rfl
    | some glue =>
      obtain ⟨letters, _, hAfter⟩ := List.exists_of_findSome?_eq_some hGlue
      obtain ⟨taken, hTaken, _⟩ := afterWord_eq_some_iff.mp hAfter
      have hGlueWord : Unspaced glue := by
        intro d hd
        apply hFirst d
        rw [hTaken]
        exact List.mem_append_right taken hd
      rw [Option.map_some, Option.bind_some, Option.map_some, Option.bind_some,
        ← matchRest_eq hGlueWord hMore hTrimmed.of_append]
      congr 2
      rw [hTaken, List.append_assoc, take_taken, take_taken]

/-! ## What was read, and from what -/

namespace Reply

def words (r : Reply) : List Text :=
  (if r.glued then [r.word ++ r.target.getD []] else r.word :: r.target.toList) ++
    (r.items.toList ++ r.expiry.toList)

end Reply

/-- Each part of a reply is what the pattern wants there. -/
structure Fits (ws : List Text) (r : Reply) : Prop where
  command : r.word.map foldLetter ∈ replyCommands
  words_eq : ws = r.words
  glued : r.glued = true → r.target ≠ none
  target : ∀ word, r.target = some word → isTarget word = true
  items : ∀ word, r.items = some word → isItems word = true
  expiry : ∀ word, r.expiry = some word → isExpiry word = true

theorem afterWord_whole {letters word : Text} :
    afterWord sameLetter letters word = some [] ↔ word.map foldLetter = letters := by
  rw [afterWord_eq_some_iff]
  constructor
  · rintro ⟨taken, rfl, hTaken⟩
    rw [List.append_nil]
    exact forall₂_fold hTaken
  · rintro rfl
    refine ⟨word, (List.append_nil word).symm, ?_⟩
    rw [List.forall₂_map_left_iff, List.forall₂_same]
    intro c _
    exact beq_self_eq_true _

theorem readCommand_some {first word glue : Text} (h : readCommand first = some (word, glue)) :
    first = word ++ glue ∧ word.map foldLetter ∈ replyCommands := by
  rw [readCommand, Option.map_eq_some_iff] at h
  obtain ⟨rest, hFind, hRead⟩ := h
  obtain ⟨letters, hLetters, hAfter⟩ := List.exists_of_findSome?_eq_some hFind
  obtain ⟨taken, rfl, hTaken⟩ := afterWord_eq_some_iff.mp hAfter
  rw [take_taken] at hRead
  cases hRead
  exact ⟨rfl, (forall₂_fold hTaken).symm ▸ hLetters⟩

theorem readCommand_whole {word : Text} (h : word.map foldLetter ∈ replyCommands) :
    readCommand word = some (word, []) := by
  have hAfter := afterWord_whole.mpr (Eq.refl (word.map foldLetter))
  cases hFind : replyCommands.findSome? fun letters => afterWord sameLetter letters word with
  | none =>
    rw [List.findSome?_eq_none_iff.mp hFind _ h] at hAfter
    cases hAfter
  | some glue =>
    obtain ⟨letters, hLetters, hRead⟩ := List.exists_of_findSome?_eq_some hFind
    rw [afterWord_unique hLetters h hRead hAfter, hAfter] at hRead
    cases hRead
    rw [readCommand, hFind, Option.map_some, List.length_nil, Nat.sub_zero, List.take_length]

theorem fitTail_some {arguments : List Text} {items expiry : Option Text}
    (h : fitTail arguments = some (items, expiry)) :
    arguments = items.toList ++ expiry.toList ∧
      (∀ word, items = some word → isItems word = true) ∧
        ∀ word, expiry = some word → isExpiry word = true := by
  rcases arguments with _ | ⟨word, _ | ⟨last, _ | ⟨next, others⟩⟩⟩
  · cases h
    exact ⟨rfl, by simp, by simp⟩
  · rw [fitTail] at h
    split at h
    · rename_i hItems
      cases h
      exact ⟨rfl, by simpa using hItems, by simp⟩
    split at h
    · rename_i hExpiry
      cases h
      exact ⟨rfl, by simp, by simpa using hExpiry⟩
    · cases h
  · rw [fitTail] at h
    split at h
    · rename_i hBoth
      rw [Bool.and_eq_true] at hBoth
      cases h
      exact ⟨rfl, by simpa using hBoth.1, by simpa using hBoth.2⟩
    · cases h
  · cases h

theorem fitTail_append {items expiry : Option Text}
    (hItems : ∀ word, items = some word → isItems word = true)
    (hExpiry : ∀ word, expiry = some word → isExpiry word = true) :
    fitTail (items.toList ++ expiry.toList) = some (items, expiry) := by
  rcases items with _ | word <;> rcases expiry with _ | last
  · rfl
  · have hLast := hExpiry last rfl
    have hNot := isItems_of_isExpiry hLast
    simp [fitTail, hLast, hNot]
  · have hWord := hItems word rfl
    simp [fitTail, hWord]
  · have hWord := hItems word rfl
    have hLast := hExpiry last rfl
    simp [fitTail, hWord, hLast]

theorem fit_fits {ws : List Text} {r : Reply} (h : fit ws = some r) : Fits ws r := by
  cases ws with
  | nil => cases h
  | cons first arguments =>
    rw [fit, Option.bind_eq_some_iff] at h
    obtain ⟨⟨word, glue⟩, hRead, h⟩ := h
    obtain ⟨rfl, hCommand⟩ := readCommand_some hRead
    dsimp only at h
    rw [fitArguments.eq_def] at h
    split at h
    · split at h
      · rename_i hTarget
        rw [Option.map_eq_some_iff] at h
        obtain ⟨⟨items, expiry⟩, hTail, rfl⟩ := h
        obtain ⟨rfl, hItems, hExpiry⟩ := fitTail_some hTail
        exact ⟨hCommand, rfl, by simp, by simpa using hTarget, hItems, hExpiry⟩
      · cases h
    rename_i hGlue
    rw [ne_eq, not_not] at hGlue
    subst hGlue
    rw [List.append_nil]
    cases arguments with
    | nil =>
      cases h
      exact ⟨hCommand, rfl, by simp, by simp, by simp, by simp⟩
    | cons target rest =>
      dsimp only at h
      rw [Option.or_eq_some_iff] at h
      rcases h with h | ⟨_, h⟩
      · split at h
        · rename_i hTarget
          rw [Option.map_eq_some_iff] at h
          obtain ⟨⟨items, expiry⟩, hTail, rfl⟩ := h
          obtain ⟨rfl, hItems, hExpiry⟩ := fitTail_some hTail
          exact ⟨hCommand, rfl, by simp, by simpa using hTarget, hItems, hExpiry⟩
        · cases h
      · rw [Option.map_eq_some_iff] at h
        obtain ⟨⟨items, expiry⟩, hTail, rfl⟩ := h
        obtain ⟨hRest, hItems, hExpiry⟩ := fitTail_some hTail
        rw [hRest]
        exact ⟨hCommand, rfl, by simp, by simp, hItems, hExpiry⟩

theorem fit_alone {word : Text} (hWord : word.map foldLetter ∈ replyCommands) :
    fit [word] = some ⟨word, false, none, none, none⟩ := by
  rw [fit, readCommand_whole hWord]
  rfl

/-- A command and its target as words of their own. -/
theorem fit_target {word target : Text} {items expiry : Option Text}
    (hWord : word.map foldLetter ∈ replyCommands) (hTarget : isTarget target = true)
    (hItems : ∀ list, items = some list → isItems list = true)
    (hExpiry : ∀ token, expiry = some token → isExpiry token = true) :
    fit (word :: target :: (items.toList ++ expiry.toList)) =
      some ⟨word, false, some target, items, expiry⟩ := by
  rw [fit, readCommand_whole hWord, Option.bind_some, fitArguments.eq_def, if_neg (by simp)]
  dsimp only
  rw [if_pos hTarget, fitTail_append hItems hExpiry]
  rfl

/-! ## `revoke` and a name -/

def Says (letters : String) (word : Text) : Prop := word.map foldLetter = letters.toList

instance (letters : String) (word : Text) : Decidable (Says letters word) :=
  inferInstanceAs (Decidable (_ = _))

def startsTarget (c : Char) : Bool := isLetter c || isDigit c

def isRevokeTarget (word : Text) : Bool := word.head?.any startsTarget && word.tail.all isTargetChar

theorem isTargetChar_of_startsTarget {c : Char} (hc : startsTarget c = true) :
    isTargetChar c = true := by
  rw [startsTarget, Bool.or_eq_true] at hc
  rcases hc with hc | hc <;> simp [isTargetChar, hc]

theorem isRevokeTarget_all {word : Text} (h : Says "all" word) : isRevokeTarget word = true := by
  have hLetters : ∀ c ∈ word, isLetter c = true := by
    intro c hc
    have hMem : foldLetter c ∈ "all".toList := h ▸ List.mem_map_of_mem hc
    rw [isLetter, Bool.and_eq_true, decide_eq_true_eq, decide_eq_true_eq]
    have hRange : ∀ d ∈ "all".toList, 'a' ≤ d ∧ d ≤ 'z' := letter_of_areLetters (by decide)
    exact hRange _ hMem
  cases word with
  | nil => cases h
  | cons c rest =>
    obtain ⟨hc, hRest⟩ := List.forall_mem_cons.mp hLetters
    simp only [isRevokeTarget, List.head?_cons, Option.any_some, List.tail_cons, Bool.and_eq_true,
      List.all_eq_true]
    refine ⟨by simp [startsTarget, hc], fun d hd => ?_⟩
    simp [isTargetChar, hRest d hd]

def readRevokeTarget : List Text → Option Text
  | [word, target] =>
    if Says "revoke" word ∧ isRevokeTarget target = true then some target else none
  | _ => none

def namePart : Regex :=
  .group 1 (.alt (commandWord "all") (.group 2 (.seq (.char startsTarget) (.run isTargetChar 0 none))))

theorem revokeTargetRe_eq :
    revokeTargetRe = .sequence [commandWord "revoke", .run isSpace 1 none, namePart] := rfl

/-- The name and then the end of the line. -/
theorem namePart_matchThen {word more : Text} (hWord : Unspaced word) (hNonempty : word ≠ [])
    (hMore : Parted more) (hTrimmed : Trimmed more) :
    (namePart.matchThen [] (word ++ more) atEnd).map (fun groups => (groups.lookup 1).getD []) =
      if more = [] ∧ isRevokeTarget word = true then some word else none := by
  have hTarget : ∀ c, isTargetChar c = true → isSpace c = false := fun c => isSpace_of_isTargetChar
  have hAll : ∀ letter ∈ "all".toList, ∀ c rest, more = c :: rest → sameLetter letter c = false := by
    intro letter hLetter c rest h
    have hRange : ∀ letter ∈ "all".toList, 'a' ≤ letter ∧ letter ≤ 'z' :=
      letter_of_areLetters (by decide)
    exact sameLetter_space (hRange letter hLetter) (hMore c rest h)
  rw [namePart, group_append, matchThen, commandWord, word_matchThen, afterWord_append hAll,
    Option.map_or]
  have hName : ((group 2 (.seq (.char startsTarget) (.run isTargetChar 0 none))).matchThen []
      (word ++ more) fun groups rest =>
        atEnd ((1, (word ++ more).take ((word ++ more).length - rest.length)) :: groups) rest).map
          (fun groups => (groups.lookup 1).getD []) =
      if more = [] ∧ isRevokeTarget word = true then some word else none := by
    obtain ⟨c, others, rfl⟩ := List.exists_cons_of_ne_nil hNonempty
    obtain ⟨hc, hOthers⟩ := List.forall_mem_cons.mp hWord
    rw [group_append, matchThen, List.cons_append, matchThen, isRevokeTarget, List.head?_cons,
      Option.any_some, List.tail_cons]
    by_cases hStart : startsTarget c = true
    · rw [if_pos hStart, run_word hTarget _ hOthers hMore, ← List.cons_append, take_taken, hStart,
        Bool.true_and]
      · rw [trimmed_atEnd hTrimmed]
        by_cases hEnd : more = []
        · subst hEnd
          by_cases hChars : others.all isTargetChar = true
          · rw [if_pos ⟨Nat.zero_le _, hChars⟩, if_pos rfl, if_pos ⟨rfl, hChars⟩]
            rfl
          · rw [if_neg fun h => hChars h.2, if_neg fun h => hChars h.2]
            rfl
        · rw [if_neg hEnd, ite_self, if_neg fun h => hEnd h.1]
          rfl
      · intro d rest hd
        exact unparted_atEnd rest hd
    · rw [if_neg hStart, if_neg]
      · rfl
      · rintro ⟨_, h⟩
        rw [Bool.and_eq_true] at h
        exact hStart h.1
  rw [hName]
  cases hGlue : afterWord sameLetter "all".toList word with
  | none => rw [Option.map_none, Option.bind_none, Option.map_none, Option.none_or]
  | some glue =>
    rw [Option.map_some, Option.bind_some]
    have hGlueWord : Unspaced glue := by
      obtain ⟨taken, hTaken, _⟩ := afterWord_eq_some_iff.mp hGlue
      intro d hd
      apply hWord d
      rw [hTaken]
      exact List.mem_append_right taken hd
    cases glue with
    | nil =>
      rw [List.nil_append, trimmed_atEnd hTrimmed]
      have hSays : Says "all" word := afterWord_whole.mp hGlue
      by_cases hEnd : more = []
      · rw [if_pos hEnd, if_pos ⟨hEnd, isRevokeTarget_all hSays⟩, take_taken]
        rfl
      · rw [if_neg hEnd, if_neg fun h => hEnd h.1]
        rfl
    | cons d rest =>
      rw [List.cons_append, unparted_atEnd _ (hGlueWord d List.mem_cons_self), Option.map_none,
        Option.none_or]

/-- The target is read from the words as well. -/
theorem revokeTargetRe_words (text : Text) :
    (revokeTargetRe.matchLine (strip text)).map (fun groups => (groups.lookup 1).getD []) =
      readRevokeTarget (words text) := by
  rw [← words_strip text, revokeTargetRe_eq, matchLine_eq]
  change (Option.map _ ((commandWord "revoke").matchThen [] (strip text) fun groups rest =>
    (run isSpace 1 none).matchThen groups rest fun groups rest =>
      namePart.matchThen groups rest atEnd)) = _
  rw [commandWord, word_matchThen]
  have hTrimmed := strip_trimmed text
  cases hText : strip text with
  | nil => rfl
  | cons c rest =>
    obtain ⟨first, more, hSplit, hFirst, hMore⟩ := exists_word rest (strip_head text hText)
    rw [hText, hSplit] at hTrimmed
    have hMoreTrimmed : Trimmed more := hTrimmed.of_append
    rw [hSplit, words_append_parted hFirst (List.cons_ne_nil _ _) hMore,
      afterWord_first (by decide) hMore]
    cases hGlue : afterWord sameLetter "revoke".toList (c :: first) with
    | none =>
      rw [Option.map_none, Option.bind_none, Option.map_none]
      rcases hWords : words more with _ | ⟨target, _ | ⟨next, others⟩⟩
      · rfl
      · rw [readRevokeTarget, if_neg]
        rintro ⟨hSays, _⟩
        rw [afterWord_whole.mpr hSays] at hGlue
        cases hGlue
      · rfl
    | some glue =>
      rw [Option.map_some, Option.bind_some]
      cases glue with
      | cons d glue =>
        have hd : isSpace d = false := by
          obtain ⟨taken, hTaken, _⟩ := afterWord_eq_some_iff.mp hGlue
          apply hFirst d
          rw [hTaken]
          exact List.mem_append_right taken List.mem_cons_self
        rw [List.cons_append, run_none (le_refl 1) hd, Option.map_none]
        rcases hWords : words more with _ | ⟨target, _ | ⟨next, others⟩⟩
        · rfl
        · rw [readRevokeTarget, if_neg]
          rintro ⟨hSays, _⟩
          rw [afterWord_whole.mpr hSays] at hGlue
          cases hGlue
        · rfl
      | nil =>
        have hSays : Says "revoke" (c :: first) := afterWord_whole.mp hGlue
        rw [List.nil_append]
        rcases hMore.cases hMoreTrimmed with
          rfl | ⟨blank, word, others, rfl, hBlank, hSome, hWord, hNonempty, hOthers, hWords⟩
        · rfl
        have hTail : Trimmed others := hMoreTrimmed.of_append.of_append
        rw [run_append _ hBlank (hWord.head hNonempty others),
          if_pos ⟨List.length_pos_iff.mpr hSome, rfl⟩,
          namePart_matchThen hWord hNonempty hOthers hTail, hWords]
        · by_cases hEnd : others = []
          · subst hEnd
            rw [words_nil, readRevokeTarget]
            exact if_congr (and_congr_left fun _ => iff_of_true rfl hSays) rfl rfl
          · have hMany : words others ≠ [] := fun h => hEnd (hOthers.eq_nil_of_words hTail h)
            obtain ⟨next, rest, hNext⟩ := List.exists_cons_of_ne_nil hMany
            rw [if_neg fun h => hEnd h.1, hNext]
            rfl
        · intro d rest hd
          have hLetter : sameLetter 'a' d = false := sameLetter_space (by decide) hd
          have hStart : startsTarget d = false := by
            rw [← Bool.not_eq_true]
            intro hStart
            rw [isSpace_of_isTargetChar (isTargetChar_of_startsTarget hStart)] at hd
            cases hd
          change (if sameLetter 'a' d = true then _ else none).or
            (if startsTarget d = true then _ else none) = none
          rw [hLetter, hStart]
          rfl

/-! ## Parsing -/

def readName (name : Text) : Parsed :=
  if lowerMatched name = "all".toList then .revokeAll else .revokeInstance (lowerMatched name)

def readDecision (action target : Text) (items expiry : Option Text) :
    Except NumberError (Option Parsed) := do
  let rid ← readInt target
  if rid = 0 then return none
  else if action = "undo".toList then return some (.undo rid)
  else
    let itemNumbers ← readItemNumbers items
    if itemNumbers.any (·.any (· = 0)) then return none
    else return some (.decision action rid itemNumbers expiry)

def readReply (name : Option Text) (r : Reply) : Except NumberError (Option Parsed) :=
  if lowerMatched r.word = "status".toList then .ok (some .status)
  else
    match r.target with
    | none => .ok none
    | some target =>
      if target.all isDecimal then readDecision (lowerMatched r.word) target r.items r.expiry
      else if lowerMatched r.word = "revoke".toList then .ok (name.map readName) else .ok none

def parseWords (ws : List Text) : Except NumberError (Option Parsed) :=
  (fit ws).elim (.ok none) (readReply (readRevokeTarget ws))

theorem parseRevokeTarget_words (text : Text) :
    parseRevokeTarget (strip text) = (readRevokeTarget (words text)).map readName := by
  rw [← revokeTargetRe_words, Option.map_map]
  rfl

/-- Parsing a reply is parsing its words. -/
theorem parseReply_words (text : Text) : parseReply text = parseWords (words text) := by
  rw [parseReply, replyRe_words, parseWords]
  cases fit (words text) with
  | none => rfl
  | some r =>
    rw [Option.map_some, Option.elim_some, readReply]
    obtain ⟨hWord, hTarget, hItems, hExpiry⟩ := r.lookup_groups
    simp only [hWord, hTarget, hItems, hExpiry, Option.getD_some, parseRevokeTarget_words]
    refine if_congr Iff.rfl rfl ?_
    cases r.target with
    | none => rfl
    | some target =>
      dsimp only
      by_cases hNumber : target.all isDecimal = true
      · rw [hNumber]
        rfl
      · rw [if_neg hNumber, eq_false_of_ne_true hNumber]
        rfl

end AccessBroker.MatrixBot
