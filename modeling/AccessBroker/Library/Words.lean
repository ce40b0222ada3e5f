import AccessBroker.Library.Text

/-! # Words

`str.split()`: the words of a text are its maximal runs of characters that are no
white space. A text is read word by word, from a word to the white space after it.
-/

namespace Py
set_option autoImplicit false

def words (text : Text) : List Text := (text.splitOnP isSpace).filter (· ≠ [])

def Unspaced (text : Text) : Prop := ∀ c ∈ text, isSpace c = false

def Blank (text : Text) : Prop := ∀ c ∈ text, isSpace c = true

/-- Nothing, or white space first. -/
def Parted (text : Text) : Prop := ∀ c rest, text = c :: rest → isSpace c = true

def Trimmed (text : Text) : Prop := ∀ c, text.getLast? = some c → isSpace c = false

@[simp] theorem words_nil : words [] = [] := rfl

theorem words_append_space (text rest : Text) {c : Char} (hSpace : isSpace c = true) :
    words (text ++ c :: rest) = words text ++ words rest := by
  simp only [words, List.splitOnP_append_cons text rest hSpace, List.filter_append]

theorem words_cons_space (rest : Text) {c : Char} (hSpace : isSpace c = true) :
    words (c :: rest) = words rest := words_append_space [] rest hSpace

theorem words_of_unspaced {word : Text} (hWord : Unspaced word) (hNonempty : word ≠ []) :
    words word = [word] := by
  rw [words, List.splitOnP_eq_singleton hWord]
  simp [hNonempty]

theorem words_blank_append {blank : Text} (hBlank : Blank blank) (text : Text) :
    words (blank ++ text) = words text := by
  induction blank with
  | nil => rfl
  | cons c blank ih =>
    obtain ⟨hSpace, hBlank⟩ := List.forall_mem_cons.mp hBlank
    rw [List.cons_append, words_cons_space _ hSpace]
    exact ih hBlank

theorem words_append_blank (text : Text) {blank : Text} (hBlank : Blank blank) :
    words (text ++ blank) = words text := by
  cases blank with
  | nil => rw [List.append_nil]
  | cons c blank =>
    obtain ⟨hSpace, hBlank⟩ := List.forall_mem_cons.mp hBlank
    have hRest : words blank = [] := by
      have hAppend := words_blank_append hBlank []
      rwa [List.append_nil] at hAppend
    rw [words_append_space _ _ hSpace, hRest, List.append_nil]

theorem words_append_parted {word rest : Text} (hWord : Unspaced word) (hNonempty : word ≠ [])
    (hRest : Parted rest) : words (word ++ rest) = word :: words rest := by
  cases rest with
  | nil => rw [List.append_nil, words_of_unspaced hWord hNonempty, words_nil]
  | cons c rest =>
    have hSpace : isSpace c = true := hRest c rest rfl
    rw [words_append_space _ _ hSpace, words_of_unspaced hWord hNonempty,
      words_cons_space _ hSpace, List.singleton_append]

theorem Unspaced.head {word : Text} (hWord : Unspaced word) (hNonempty : word ≠ []) (more : Text)
    (c : Char) (rest : Text) (h : word ++ more = c :: rest) : isSpace c = false := by
  obtain ⟨d, others, rfl⟩ := List.exists_cons_of_ne_nil hNonempty
  obtain ⟨rfl, _⟩ := List.cons_eq_cons.mp h
  exact hWord d List.mem_cons_self

theorem parted_dropWhile (text : Text) : Parted (text.dropWhile fun c => !isSpace c) := by
  intro c rest hRest
  have hHead := List.head?_dropWhile_not (fun c => !isSpace c) text
  rw [hRest] at hHead
  simpa using hHead

theorem unspaced_takeWhile (text : Text) : Unspaced (text.takeWhile fun c => !isSpace c) := by
  intro c hc
  simpa using List.mem_takeWhile_imp hc

/-- What begins with no white space is a word and the parted rest. -/
theorem exists_word {c : Char} (text : Text) (hc : isSpace c = false) :
    ∃ word rest, c :: text = c :: word ++ rest ∧ Unspaced (c :: word) ∧ Parted rest := by
  refine ⟨text.takeWhile fun d => !isSpace d, text.dropWhile fun d => !isSpace d, ?_, ?_,
    parted_dropWhile text⟩
  · rw [List.cons_append, List.takeWhile_append_dropWhile]
  · exact List.forall_mem_cons.mpr ⟨hc, unspaced_takeWhile text⟩

/-- White space, and then nothing or something else. -/
theorem exists_blank (text : Text) :
    ∃ blank rest, text = blank ++ rest ∧ Blank blank ∧
      ∀ c more, rest = c :: more → isSpace c = false := by
  refine ⟨text.takeWhile isSpace, text.dropWhile isSpace,
    List.takeWhile_append_dropWhile.symm, fun c hc => List.mem_takeWhile_imp hc, ?_⟩
  intro c more hRest
  have hHead := List.head?_dropWhile_not isSpace text
  rw [hRest] at hHead
  simpa using hHead

theorem Trimmed.of_append {head text : Text} (h : Trimmed (head ++ text)) : Trimmed text := by
  intro c hLast
  apply h c
  rw [List.getLast?_append, hLast]
  rfl

theorem Trimmed.nil_of_blank {text : Text} (h : Trimmed text) (hBlank : Blank text) : text = [] := by
  cases hLast : text.getLast? with
  | none => exact List.getLast?_eq_none_iff.mp hLast
  | some c =>
    have hSpace := hBlank c (List.mem_of_getLast? hLast)
    rw [h c hLast] at hSpace
    cases hSpace

/-- Parted text is empty, or white space before a word. -/
theorem Parted.cases {text : Text} (hParted : Parted text) (hTrimmed : Trimmed text) :
    text = [] ∨ ∃ blank word more, text = blank ++ (word ++ more) ∧ Blank blank ∧ blank ≠ [] ∧
      Unspaced word ∧ word ≠ [] ∧ Parted more ∧ words text = word :: words more := by
  obtain ⟨blank, rest, rfl, hBlank, hRest⟩ := exists_blank text
  cases rest with
  | nil =>
    rw [List.append_nil] at hTrimmed ⊢
    exact Or.inl (hTrimmed.nil_of_blank hBlank)
  | cons c rest =>
    have hc : isSpace c = false := hRest c rest rfl
    obtain ⟨word, more, hWord, hUnspaced, hMore⟩ := exists_word rest hc
    refine Or.inr ⟨blank, c :: word, more, by rw [hWord], hBlank, ?_, hUnspaced,
      List.cons_ne_nil c word, hMore, ?_⟩
    · rintro rfl
      have hSpace := hParted c rest rfl
      rw [hc] at hSpace
      cases hSpace
    · rw [words_blank_append hBlank, hWord,
        words_append_parted hUnspaced (List.cons_ne_nil c word) hMore]

theorem Parted.eq_nil_of_words {text : Text} (hParted : Parted text) (hTrimmed : Trimmed text)
    (h : words text = []) : text = [] := by
  rcases hParted.cases hTrimmed with hNil | ⟨_, _, _, _, _, _, _, _, _, hWords⟩
  · exact hNil
  · rw [hWords] at h
    cases h

/-! ## `str.strip` -/

theorem strip_split (text : Text) :
    ∃ before after, text = before ++ (strip text ++ after) ∧ Blank before ∧ Blank after := by
  refine ⟨text.takeWhile isSpace,
    ((text.dropWhile isSpace).reverse.takeWhile isSpace).reverse, ?_, ?_, ?_⟩
  · rw [strip, ← List.reverse_append, List.takeWhile_append_dropWhile, List.reverse_reverse,
      List.takeWhile_append_dropWhile]
  · exact fun c hc => List.mem_takeWhile_imp hc
  · exact fun c hc => List.mem_takeWhile_imp (List.mem_reverse.mp hc)

theorem words_strip (text : Text) : words (strip text) = words text := by
  obtain ⟨before, after, hText, hBefore, hAfter⟩ := strip_split text
  have hWords : words text = words (before ++ (strip text ++ after)) := congrArg words hText
  rw [hWords, words_blank_append hBefore, words_append_blank _ hAfter]

theorem strip_trimmed (text : Text) : Trimmed (strip text) := by
  intro c hLast
  rw [strip, List.getLast?_reverse] at hLast
  have hHead := List.head?_dropWhile_not isSpace (text.dropWhile isSpace).reverse
  rw [hLast] at hHead
  simpa using hHead

theorem strip_head (text : Text) {c : Char} {rest : Text} (h : strip text = c :: rest) :
    isSpace c = false := by
  have hSuffix : (strip text).reverse <:+ (text.dropWhile isSpace).reverse := by
    rw [strip, List.reverse_reverse]
    exact List.dropWhile_suffix isSpace
  have hPrefix : strip text <+: text.dropWhile isSpace := List.reverse_suffix.mp hSuffix
  rw [h] at hPrefix
  obtain ⟨more, hMore⟩ := hPrefix
  have hHead := List.head?_dropWhile_not isSpace text
  rw [← hMore] at hHead
  simpa using hHead

/-- A text that neither begins nor ends with a space is kept. -/
theorem strip_of_trimmed {text : Text} (hFirst : ∀ c rest, text = c :: rest → isSpace c = false)
    (hTrimmed : Trimmed text) : strip text = text := by
  have hFront : text.dropWhile isSpace = text := by
    cases text with
    | nil => rfl
    | cons c rest => rw [List.dropWhile_cons, hFirst c rest rfl, if_neg Bool.false_ne_true]
  have hBack : text.reverse.dropWhile isSpace = text.reverse := by
    cases hReverse : text.reverse with
    | nil => rfl
    | cons c rest =>
      have hLast : text.getLast? = some c := by rw [← List.head?_reverse, hReverse]; rfl
      rw [List.dropWhile_cons, hTrimmed c hLast, if_neg Bool.false_ne_true]
  rw [strip, hFront, hBack, List.reverse_reverse]

theorem strip_of_unspaced {word : Text} (h : Unspaced word) : strip word = word := by
  apply strip_of_trimmed
  · rintro c rest rfl
    exact h c List.mem_cons_self
  · exact fun c hLast => h c (List.mem_of_getLast? hLast)

theorem strip_strip (text : Text) : strip (strip text) = strip text :=
  strip_of_trimmed (fun _ _ h => strip_head text h) (strip_trimmed text)

theorem isBlank_strip (text : Text) : isBlank (strip text) = isBlank text := by
  obtain ⟨before, after, hText, hBefore, hAfter⟩ := strip_split text
  have hBlank : isBlank text = isBlank (before ++ (strip text ++ after)) := congrArg isBlank hText
  rw [hBlank, isBlank, isBlank, List.all_append, List.all_append, List.all_eq_true.mpr hBefore,
    List.all_eq_true.mpr hAfter, Bool.true_and, Bool.and_true]

/-- The last word of a trimmed text is where the text ends. -/
theorem words_getLast {text : Text} (h : Trimmed text) :
    (words text).getLast?.bind List.getLast? = text.getLast? := by
  have hSplit : text = (text.reverse.dropWhile fun c => !isSpace c).reverse ++
      (text.reverse.takeWhile fun c => !isSpace c).reverse := by
    rw [← List.reverse_append, List.takeWhile_append_dropWhile, List.reverse_reverse]
  have hWord : Unspaced (text.reverse.takeWhile fun c => !isSpace c).reverse :=
    fun c hc => unspaced_takeWhile text.reverse c (List.mem_reverse.mp hc)
  have hBefore := parted_dropWhile text.reverse
  generalize (text.reverse.takeWhile fun c => !isSpace c).reverse = word at hSplit hWord
  generalize text.reverse.dropWhile (fun c => !isSpace c) = before at hSplit hBefore
  subst hSplit
  by_cases hNonempty : word = []
  · subst hNonempty
    rw [List.append_nil] at h ⊢
    cases before with
    | nil => rfl
    | cons c before =>
      have hSpace := hBefore c before rfl
      rw [h c (by simp)] at hSpace
      cases hSpace
  · have hWords : (words (before.reverse ++ word)).getLast? = some word := by
      cases before with
      | nil =>
        rw [List.reverse_nil, List.nil_append, words_of_unspaced hWord hNonempty]
        rfl
      | cons c before =>
        rw [List.reverse_cons, List.append_assoc, List.singleton_append,
          words_append_space _ _ (hBefore c before rfl), words_of_unspaced hWord hNonempty,
          List.getLast?_concat]
    obtain ⟨c, hLast⟩ :=
      Option.ne_none_iff_exists'.mp fun hNone => hNonempty (List.getLast?_eq_none_iff.mp hNone)
    rw [hWords, Option.bind_some, List.getLast?_append, hLast]
    rfl

end Py
