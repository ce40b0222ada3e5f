import AccessBroker.WebdavAdapter.Following

/-! # Errors without the password

Two passwords that the keyword rule and the cut leave whole give the same error, and nothing of
them is in it. No template that shows a hole gives the same error for all passwords.
-/

namespace AccessBroker.WebdavAdapter
open Py Py.Template Nextcloud MatrixBot
set_option autoImplicit false

/-! ## Passwords -/

/-- An app password, of which the text of the template knows nothing. -/
structure Admissible (t : Template) (value : Text) : Prop where
  long : 8 ≤ value.length
  opening : '[' ∉ value
  closing : ']' ∉ value
  elsewhere : ¬ value.map some <:+: t

/-- The text before the first hole. -/
def lead : Template → Text
  | some c :: t => c :: lead t
  | _ => []

theorem lead_hole {t : Template} (h : none ∈ t) :
    ∃ more, t = (lead t).map some ++ none :: more := by
  induction t with
  | nil => cases h
  | cons a t ih =>
    cases a with
    | none => exact ⟨t, rfl⟩
    | some c =>
      obtain ⟨more, hMore⟩ := ih (by simpa using h)
      refine ⟨more, ?_⟩
      rw [lead, List.map_cons, List.cons_append, ← hMore]

theorem lead_prefix_self (t : Template) : (lead t).map some <+: t := by
  induction t with
  | nil => exact List.nil_prefix
  | cons a t ih =>
    cases a with
    | none => exact List.nil_prefix
    | some c => exact (List.prefix_cons_inj _).mpr ih

theorem lead_no_hole {t : Template} (h : none ∉ t) : t = (lead t).map some := by
  induction t with
  | nil => rfl
  | cons a t ih =>
    rw [List.mem_cons, not_or] at h
    cases a with
    | none => exact absurd rfl h.1
    | some c => rw [lead, List.map_cons, ← ih h.2]

variable {value : Text}

/-! ## Templates that show a hole -/

/-- A password with a keyword in it is not found in the message. -/
theorem scrubbed_message_of_token (status : Int) {t : Template} (h : "token".toList <:+: value) :
    (scrubbed status t value).message = (sanitized (fill value t)).take 300 := by
  have hValue : value ≠ [] := by
    rintro rfl
    exact absurd (List.eq_nil_of_infix_nil h) (by decide)
  rw [scrubbed, scrub_init hValue, sanitize_eq]
  refine replace_eq_self _ fun hInfix => ?_
  exact token_not_infix _ ((h.trans hInfix).trans (List.take_prefix _ _).isInfix)

/-- A password that begins like this and holds a keyword. -/
def padded (start : Text) (size : Nat) : Text := start ++ ("token".toList ++ List.replicate size 'y')

theorem token_infix_padded (start : Text) (size : Nat) :
    "token".toList <:+: padded start size := ⟨start, List.replicate size 'y', by simp [padded]⟩

theorem admissible_padded {t : Template} {start : Text} {size : Nat} (hOpening : '[' ∉ start)
    (hClosing : ']' ∉ start) (hSize : t.length + 8 ≤ size) : Admissible t (padded start size) := by
  have hLength : size ≤ (padded start size).length := by
    simp only [padded, List.length_append, List.length_replicate]
    omega
  refine ⟨by omega, ?_, ?_, fun hInfix => ?_⟩
  · simpa [padded, List.mem_replicate] using hOpening
  · simpa [padded, List.mem_replicate] using hClosing
  · have hLe := hInfix.length_le
    rw [List.length_map] at hLe
    omega

theorem getElem_of_take {before x y : Text} {a b : Char} {room : Nat}
    (hRoom : before.length < room) (h : (before ++ a :: x).take room = (before ++ b :: y).take room) :
    a = b := by
  have hAt := congrArg (fun text => text[before.length]?) h
  simp only [List.getElem?_take_of_lt hRoom] at hAt
  simpa using hAt

/-- Two passwords of one length whose errors differ where the settled text ends. -/
theorem differ_of_starts (status : Int) {t : Template} (start start' : Text) (size size' : Nat)
    (hSame : start.length + size = start'.length + size')
    (hSize : t.length + 8 ≤ size) (hSize' : t.length + 8 ≤ size')
    (hStart : '[' ∉ start ∧ ']' ∉ start) (hStart' : '[' ∉ start' ∧ ']' ∉ start')
    {before : Text} {a b : Char} (hDiffer : a ≠ b) (hRoom : before.length < 300)
    (hx : ∃ x, sanitized (fill (padded start size) t) = before ++ a :: x)
    (hy : ∃ y, sanitized (fill (padded start' size') t) = before ++ b :: y) :
    ∃ p q, Admissible t p ∧ Admissible t q ∧ p.length = q.length ∧
      scrubbed status t p ≠ scrubbed status t q := by
  obtain ⟨x, hx⟩ := hx
  obtain ⟨y, hy⟩ := hy
  refine ⟨padded start size, padded start' size', admissible_padded hStart.1 hStart.2 hSize,
    admissible_padded hStart'.1 hStart'.2 hSize', ?_, fun hEqual => ?_⟩
  · simp only [padded, List.length_append, List.length_replicate]
    omega
  · have hMessage := congrArg WebDavError.message hEqual
    rw [scrubbed_message_of_token status (token_infix_padded start size),
      scrubbed_message_of_token status (token_infix_padded start' size'), hx, hy] at hMessage
    exact hDiffer (getElem_of_take hRoom hMessage)

/-- Where the message shows a hole, some two passwords tell their errors apart. -/
theorem differ_of_hole (status : Int) {t : Template} (hHole : none ∈ t)
    (hShort : (settled (lead t)).length < 300) :
    ∃ p q, Admissible t p ∧ Admissible t q ∧ p.length = q.length ∧
      scrubbed status t p ≠ scrubbed status t q := by
  obtain ⟨more, hMore⟩ := lead_hole hHole
  have hFill : ∀ start size, fill (padded start size) t = lead t ++ (start ++
      ("token".toList ++ List.replicate size 'y' ++ fill (padded start size) more)) := by
    intro start size
    conv_lhs => rw [hMore]
    simp [padded]
  rcases goesOn (lead t) with ⟨u, hNonempty, hNone, hPending, hGoes⟩ | hGoes
  · obtain ⟨rest, hRest, hLetters, hFold⟩ := pending_rest hPending
    obtain ⟨c, u, rfl⟩ := List.exists_cons_of_ne_nil hNonempty
    have hBrackets : ∀ letters ∈ keywords, '[' ∉ letters ∧ ']' ∉ letters := by decide
    obtain ⟨hOpening, hClosing⟩ := hBrackets _ hLetters
    rw [List.map_cons, List.cons_append, List.mem_cons, List.mem_append, not_or, not_or] at hOpening
    rw [List.mem_append, not_or] at hClosing
    have hHead : '[' ≠ c := by
      rintro rfl
      exact hOpening.1 (by decide)
    have hLength : 0 < rest.length := List.length_pos_iff.mpr hRest
    refine differ_of_starts status rest [' '] (t.length + 8) (t.length + 8 + (rest.length - 1)) ?_
      le_rfl (Nat.le_add_right _ _) ⟨hOpening.2.2, hClosing.2⟩ (by decide) hHead hShort ?_ ?_
    · rw [List.length_singleton]
      omega
    · have hMark : ∀ w, ∃ x, sanitized (c :: (u ++ rest ++ w)) = '[' :: x := fun w =>
        ⟨_, sanitized_keyword (keyword_of_mem sameLetter_unique hLetters
          (afterLetters_of_fold hFold w))⟩
      rw [hFill, hGoes, ← List.append_assoc (c :: u), List.cons_append, List.cons_append]
      obtain ⟨x, hx⟩ := hMark ("token".toList ++ List.replicate (t.length + 8) 'y' ++
        fill (padded rest (t.length + 8)) more)
      exact ⟨x, congrArg _ hx⟩
    · rw [hFill, hGoes, List.singleton_append]
      exact ⟨_, congrArg _ (sanitized_plain (keyword_blank hNone _))⟩
  · refine differ_of_starts status [' '] ['\t'] (t.length + 8) (t.length + 8) rfl le_rfl le_rfl
      (by decide) (by decide) (by decide : ' ' ≠ '\t') hShort ?_ ?_
    · rw [hFill, List.singleton_append, hGoes _ _ (by decide), sanitized_plain rfl]
      exact ⟨_, rfl⟩
    · rw [hFill, List.singleton_append, hGoes _ _ (by decide), sanitized_plain rfl]
      exact ⟨_, rfl⟩

/-! ## Templates that show no hole -/

/-- What is settled before the first hole fills the message. -/
def NoHoleShown (t : Template) : Prop := none ∈ t → 300 ≤ (settled (lead t)).length

/-- The message then. -/
def leadShown (t : Template) : Text := (sanitized (lead t)).take 300

theorem take_sanitized_append {text : Text} (h : 300 ≤ (settled text).length) (w : Text) :
    (sanitized (text ++ w)).take 300 = (settled text).take 300 := by
  obtain ⟨more, hMore⟩ := settled_prefix text w
  rw [← hMore, List.take_append_of_le_length h]

theorem sanitize_lead {t : Template} (h : NoHoleShown t) (value : Text) :
    sanitize (fill value t) = leadShown t := by
  rw [sanitize_eq, ← sanitized, leadShown]
  by_cases hHole : none ∈ t
  · obtain ⟨more, hMore⟩ := lead_hole hHole
    have hFill : fill value t = lead t ++ (value ++ fill value more) := by
      conv_lhs => rw [hMore]
      simp
    have hSettled := take_sanitized_append (h hHole) []
    rw [List.append_nil] at hSettled
    rw [hFill, take_sanitized_append (h hHole), hSettled]
  · conv_lhs => rw [lead_no_hole hHole, fill_text]

/-- The only password that such a message can have in it is the word of the mark. -/
theorem Admissible.found {t : Template} (h : Admissible t value) (hInfix : value <:+: leadShown t) :
    value = "redacted".toList := by
  rcases infix_sanitized h.opening h.closing (hInfix.trans (List.take_prefix _ _).isInfix) with
    hText | hMark
  · exact absurd ((hText.map some).trans (lead_prefix_self t).isInfix) h.elsewhere
  · exact hMark.eq_of_length (le_antisymm hMark.length_le h.long)

/-- No mark is shown, or its word is no password, or it is the only one of its length: that is so of a
template that has every other text of eight letters in it, as there are finitely many. -/
def MarkUntold (t : Template) : Prop :=
  "redacted".toList <:+: leadShown t → Admissible t "redacted".toList →
    ∀ value, Admissible t value → value.length = 8 → value = "redacted".toList

theorem scrubbed_lead (status : Int) {t : Template} (hNoHole : NoHoleShown t)
    (hValue : Admissible t value) :
    scrubbed status t value = ⟨status, replace value redacted (leadShown t),
      exceptionText status (replace value redacted (leadShown t))⟩ := by
  have hNonempty : value ≠ [] := by
    rintro rfl
    exact absurd hValue.long (by decide)
  rw [scrubbed, scrub_init hNonempty, sanitize_lead hNoHole]

theorem MarkUntold.same {t : Template} (h : MarkUntold t) {p q : Text} (hp : Admissible t p)
    (hq : Admissible t q) (hLength : p.length = q.length) (hFound : p <:+: leadShown t) : p = q := by
  obtain rfl := hp.found hFound
  exact (h hFound hp q hq hLength.symm).symm

/-! ## Two passwords -/

theorem independent_iff (status : Int) (t : Template) :
    (∀ p q, Admissible t p → Admissible t q → p.length = q.length →
      scrubbed status t p = scrubbed status t q) ↔ NoHoleShown t ∧ MarkUntold t := by
  constructor
  · intro hSame
    have hNoHole : NoHoleShown t := by
      intro hHole
      by_contra hShort
      obtain ⟨p, q, hp, hq, hLength, hDiffer⟩ := differ_of_hole status hHole (not_le.mp hShort)
      exact hDiffer (hSame p q hp hq hLength)
    refine ⟨hNoHole, fun hMark hWord q hq hLength => ?_⟩
    by_contra hOther
    have hLonger : (leadShown t).length <
        (replace "redacted".toList redacted (leadShown t)).length :=
      length_lt_replace (by decide) (by decide) hMark
    have hEqual := congrArg WebDavError.message (hSame _ q hWord hq hLength.symm)
    rw [scrubbed_lead status hNoHole hWord, scrubbed_lead status hNoHole hq,
      replace_eq_self redacted fun hInfix => hOther (hq.found hInfix)] at hEqual
    dsimp only at hEqual
    rw [hEqual] at hLonger
    exact absurd hLonger (lt_irrefl _)
  · rintro ⟨hNoHole, hUntold⟩ p q hp hq hLength
    by_cases hFound : p <:+: leadShown t
    · rw [hUntold.same hp hq hLength hFound]
    by_cases hFound' : q <:+: leadShown t
    · rw [hUntold.same hq hp hLength.symm hFound']
    rw [scrubbed_lead status hNoHole hp, scrubbed_lead status hNoHole hq,
      replace_eq_self redacted hFound, replace_eq_self redacted hFound']

/-- Passwords that are left whole give the same error, with nothing in it but the template's own
characters and marks. All passwords give the same error exactly if the message shows no hole, and
no password that is the word of the mark tells itself by it. -/
theorem scrubbed_independent (status : Int) (t : Template) :
    (∀ p q, Admissible t p → Admissible t q → p.length = q.length → Whole p t → Whole q t →
      scrubbed status t p = scrubbed status t q ∧
        scrubbed status t p =
          ⟨status, shown p.length t, exceptionText status (shown p.length t)⟩) ∧
      ((∀ p q, Admissible t p → Admissible t q → p.length = q.length →
        scrubbed status t p = scrubbed status t q) ↔ NoHoleShown t ∧ MarkUntold t) := by
  refine ⟨?_, independent_iff status t⟩
  intro p q hp hq hLength hWhole hWhole'
  have hNonempty : ∀ {value : Text}, Admissible t value → value ≠ [] := by
    rintro value hValue rfl
    exact absurd hValue.long (by decide)
  have hP := scrubbed_eq status (hNonempty hp) hWhole
  have hQ := scrubbed_eq status (hNonempty hq) hWhole'
  refine ⟨?_, hP⟩
  rw [hP, hQ, hLength]

def denied : Template := "401: ".toList.map some ++ [none]

theorem whole_denied {c : Char} (hForeign : foreign c = true) (hc : some c ∉ denied) :
    Whole (List.replicate 8 c) denied := by
  have hSanitized : sanitizedTemplate denied = denied := by decide
  refine whole_of_foreign (fun d hd => ?_) ?_ (Uncut.of_short ?_)
  · rw [List.eq_of_mem_replicate (n := 8) hd]
    exact hForeign
  · rw [hSanitized]
    exact hc
  · rw [hSanitized, List.length_replicate]
    decide

/-- The server's answer to a bad password. -/
theorem scrubbed_independent_denied :
    scrubbed 401 denied "qqqqqqqq".toList = scrubbed 401 denied "zzzzzzzz".toList ∧
      scrubbed 401 denied "qqqqqqqq".toList =
        ⟨401, "401: [redacted]".toList, "webdav error 401: 401: [redacted]".toList⟩ := by
  have hFirst : Admissible denied "qqqqqqqq".toList := ⟨by decide, by decide, by decide, by decide⟩
  have hSecond : Admissible denied "zzzzzzzz".toList := ⟨by decide, by decide, by decide, by decide⟩
  have hWhole : Whole "qqqqqqqq".toList denied := whole_denied (by decide) (by decide)
  have hWhole' : Whole "zzzzzzzz".toList denied := whole_denied (by decide) (by decide)
  have hLength : "qqqqqqqq".toList.length = "zzzzzzzz".toList.length := by decide
  have hBoth := (scrubbed_independent 401 denied).1 "qqqqqqqq".toList "zzzzzzzz".toList hFirst hSecond
    hLength hWhole hWhole'
  refine ⟨hBoth.1, hBoth.2.trans ?_⟩
  decide +kernel

/-- A password that a keyword begins within shows what stands before it. -/
theorem keyword_inside :
    (Admissible [none] "abtokencd".toList ∧ Admissible [none] "xytokencd".toList) ∧
      scrubbed 500 [none] "abtokencd".toList =
        ⟨500, "ab[redacted]".toList, "webdav error 500: ab[redacted]".toList⟩ ∧
      scrubbed 500 [none] "xytokencd".toList =
        ⟨500, "xy[redacted]".toList, "webdav error 500: xy[redacted]".toList⟩ ∧
      scrubbed 500 [none] "abtokencd".toList ≠ scrubbed 500 [none] "xytokencd".toList := by
  refine ⟨⟨⟨by decide, by decide, by decide, by decide⟩, ⟨by decide, by decide, by decide, by decide⟩⟩,
    ?_, ?_, ?_⟩
  · decide +kernel
  · decide +kernel
  · decide +kernel

end AccessBroker.WebdavAdapter
