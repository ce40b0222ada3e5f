import AccessBroker.WebdavAdapter.Sanitizing

/-! # Templates and the keyword rule

Where the rule comes to in a template, it finds the same in the filled text, unless a keyword
reaches into a hole or begins in one. A password that is left whole is then told by its mark.
-/

namespace AccessBroker.WebdavAdapter
open Py Py.Template Nextcloud MatrixBot
set_option autoImplicit false

/-! ## Keywords in a template -/

def symbolSame (letter : Char) (a : Option Char) : Bool := a.any (sameLetter letter)

def symbolBlank (a : Option Char) : Bool := a.any isSpace

/-- A hole is no letter of a keyword, and no blank. -/
def onTemplate : Matcher (Option Char) := credential symbolSame symbolBlank

def sanitizedTemplate (t : Template) : Template :=
  onTemplate.substitute (fun _ => redacted.map some) t

variable {value : Text}

theorem afterLetters_fill {letters : Text} {t rest : Template}
    (h : afterLetters symbolSame letters t = some rest) :
    afterLetters sameLetter letters (fill value t) = some (fill value rest) := by
  induction letters generalizing t with
  | nil =>
    cases h
    rfl
  | cons letter letters ih =>
    cases t with
    | nil => cases h
    | cons a t =>
      rw [afterLetters] at h
      cases a with
      | none => cases h
      | some c =>
        split at h
        · rename_i hSame
          have hLetter : sameLetter letter c = true := hSame
          rw [fill_char, afterLetters, if_pos hLetter]
          exact ih h
        · cases h

theorem keyword_fill {t rest : Template} (h : keyword symbolSame t = some rest) :
    keyword sameLetter (fill value t) = some (fill value rest) := by
  obtain ⟨letters, hLetters, hAfter⟩ := List.exists_of_findSome?_eq_some h
  exact keyword_of_mem sameLetter_unique hLetters (afterLetters_fill hAfter)

/-- A run goes through a hole, if what fills it has no blank. -/
theorem dropWhile_fill {t : Template}
    (h : none ∈ t.takeWhile (fun a => !symbolBlank a) → ∀ c ∈ value, isSpace c = false) :
    (fill value t).dropWhile (fun c => !isSpace c) =
      fill value (t.dropWhile fun a => !symbolBlank a) := by
  induction t with
  | nil => rfl
  | cons a t ih =>
    cases a with
    | none =>
      have hValue : ∀ c ∈ value, isSpace c = false := h (by simp [symbolBlank])
      have hBlank : (!symbolBlank none) = true := rfl
      rw [fill_hole, List.dropWhile_append_of_pos (by simpa using hValue), List.dropWhile_cons,
        if_pos hBlank, ih fun _ => hValue]
    | some c =>
      rw [fill_char, List.dropWhile_cons, List.dropWhile_cons]
      cases hSpace : isSpace c with
      | true =>
        have hBlank : symbolBlank (some c) = true := hSpace
        simp [hBlank]
      | false =>
        have hBlank : symbolBlank (some c) = false := hSpace
        rw [List.takeWhile_cons, hBlank] at h
        simp only [Bool.not_false, if_true, hBlank]
        exact ih fun hMem => h (List.mem_cons_of_mem _ hMem)

/-! ## The places that matter -/

/-- The substitution comes to a place of the template while there is room in the message. -/
inductive Reaches (size : Nat) : Nat → Template → Template → Prop where
  | here {room : Nat} {t : Template} (hRoom : 0 < room) : Reaches size room t t
  | char {room : Nat} {c : Char} {t u : Template} (hRun : onTemplate.run (some c :: t) = none)
      (more : Reaches size (room - 1) t u) : Reaches size room (some c :: t) u
  | hole {room : Nat} {t u : Template} (more : Reaches size (room - size) t u) :
      Reaches size room (none :: t) u
  | found {room : Nat} {a : Option Char} {t after u : Template} {group : Template}
      (hRun : onTemplate.run (a :: t) = some (group, after))
      (more : Reaches size (room - redacted.length) after u) : Reaches size room (a :: t) u

/-- The keyword rule finds in the filled template what it finds in the template: where it comes
to, no keyword reaches into a hole or begins in one, and what a run goes through has no blank. -/
structure Followed (value : Text) (room : Nat) (t : Template) : Prop where
  text : ∀ {c u}, Reaches value.length room t (some c :: u) →
    keyword symbolSame (some c :: u) = none → keyword sameLetter (fill value (some c :: u)) = none
  hole : ∀ {u}, Reaches value.length room t (none :: u) → ∀ {w}, w ≠ [] → w <:+ value →
    keyword sameLetter (w ++ fill value u) = none
  run : ∀ {u rest}, Reaches value.length room t u → keyword symbolSame u = some rest →
    none ∈ rest.takeWhile (fun a => !symbolBlank a) → ∀ c ∈ value, isSpace c = false

theorem Followed.mono {room room' : Nat} {t t' : Template} (h : Followed value room t)
    (hReaches : ∀ {u}, Reaches value.length room' t' u → Reaches value.length room t u) :
    Followed value room' t' where
  text hu := h.text (hReaches hu)
  hole hu := h.hole (hReaches hu)
  run hu := h.run (hReaches hu)

theorem onTemplate_run_eq_none {t : Template} :
    onTemplate.run t = none ↔ keyword symbolSame t = none := Option.map_eq_none_iff

theorem onTemplate_run_eq_some {t group after : Template}
    (h : onTemplate.run t = some (group, after)) :
    ∃ rest, keyword symbolSame t = some rest ∧ after = rest.dropWhile fun a => !symbolBlank a := by
  obtain ⟨rest, hKeyword, hEq⟩ := Option.map_eq_some_iff.mp h
  cases hEq
  exact ⟨rest, hKeyword, rfl⟩

/-- As far as the message goes, the filled template is sanitized as the template is. -/
theorem substitute_fill {t : Template} {room : Nat} (h : Followed value room t) :
    (onText.substitute (fun _ => redacted) (fill value t)).take room =
      (fill value (sanitizedTemplate t)).take room := by
  refine onTemplate.pieces_induction (P := fun t parts => ∀ room, Followed value room t →
    (onText.substitute (fun _ => redacted) (fill value t)).take room =
      (fill value (sanitizedTemplate t)).take room) (fun _ _ => rfl) ?_ ?_ t room h
  · intro a t group after hRun ih room h
    rcases Nat.eq_zero_or_pos room with rfl | hRoom
    · rfl
    obtain ⟨rest, hKeyword, rfl⟩ := onTemplate_run_eq_some hRun
    have hFilled : onText.run (fill value (a :: t)) =
        some ([], fill value (rest.dropWhile fun a => !symbolBlank a)) := by
      have hRest := dropWhile_fill (h.run (.here hRoom) hKeyword)
      change (keyword sameLetter (fill value (a :: t))).map _ = _
      rw [keyword_fill hKeyword, Option.map_some, hRest]
    have hAfter := ih (room - redacted.length) (h.mono (.found hRun))
    cases a with
    | none => cases hKeyword
    | some c =>
      rw [fill_char] at hFilled ⊢
      rw [Matcher.substitute_found _ hFilled, sanitizedTemplate, Matcher.substitute_found _ hRun,
        fill_append, fill_text, List.take_append, List.take_append, hAfter]
      rfl
  · intro a t hRun ih room h
    rcases Nat.eq_zero_or_pos room with rfl | hRoom
    · rfl
    cases a with
    | none =>
      have hAfter := ih (room - value.length) (h.mono .hole)
      have hNone : ∀ u, u ≠ [] → u <:+ value → onText.run (u ++ fill value t) = none :=
        fun u hNonempty hSuffix => onText_run_eq_none.mpr (h.hole (.here hRoom) hNonempty hSuffix)
      rw [fill_hole, Matcher.substitute_append _ hNone, sanitizedTemplate,
        Matcher.substitute_plain _ hRun, fill_hole, List.take_append, List.take_append, hAfter]
      rfl
    | some c =>
      have hNone : onText.run (c :: fill value t) = none :=
        onText_run_eq_none.mpr (h.text (.here hRoom) (onTemplate_run_eq_none.mp hRun))
      obtain ⟨room, rfl⟩ := Nat.exists_eq_add_of_lt hRoom
      have hAfter := ih room (h.mono fun hu => .char hRun (by simpa using hu))
      rw [fill_char, Matcher.substitute_plain _ hNone, sanitizedTemplate,
        Matcher.substitute_plain _ hRun, fill_char]
      simp only [Nat.zero_add, List.take_succ_cons, hAfter]
      rfl

/-! ## Passwords that are left whole -/

/-- The password is left whole: by the keyword rule, by the cut, and at every place the message has
it in. -/
structure Whole (value : Text) (t : Template) : Prop where
  followed : Followed value 300 t
  uncut : Uncut value.length 300 (sanitizedTemplate t)
  alone : OnlyHoles value (cut value.length 300 (sanitizedTemplate t))

/-- What the message shows of the template, with a mark at each hole. -/
def shown (size : Nat) (t : Template) : Text := fill redacted (cut size 300 (sanitizedTemplate t))

def scrubbed (status : Int) (t : Template) (value : Text) : WebDavError :=
  (WebDavError.init status (fill value t)).scrub value

theorem scrubbed_eq (status : Int) {t : Template} (hValue : value ≠ []) (h : Whole value t) :
    scrubbed status t value =
      ⟨status, shown value.length t, exceptionText status (shown value.length t)⟩ := by
  have hSanitize : sanitize (fill value t) =
      fill value (cut value.length 300 (sanitizedTemplate t)) := by
    rw [sanitize_eq, substitute_fill h.followed, take_fill h.uncut]
  rw [scrubbed, scrub_init hValue, hSanitize, replace_fill redacted hValue h.alone]
  rfl

/-! ### Foreign characters -/

def foreign (c : Char) : Bool :=
  !isSpace c && keywords.all fun letters => letters.all fun letter => !sameLetter letter c

theorem foreign_iff {c : Char} : foreign c = true ↔
    isSpace c = false ∧ ∀ letters ∈ keywords, ∀ letter ∈ letters, sameLetter letter c = false := by
  simp [foreign, List.all_eq_true]

theorem afterLetters_foreign (hValue : value ≠ []) (h : ∀ c ∈ value, foreign c = true)
    {letters : Text} (hLetters : ∀ letter ∈ letters, ∀ c, foreign c = true → sameLetter letter c = false)
    {t : Template} (hNone : afterLetters symbolSame letters t = none) :
    afterLetters sameLetter letters (fill value t) = none := by
  induction letters generalizing t with
  | nil => cases hNone
  | cons letter letters ih =>
    obtain ⟨hLetter, hMore⟩ := List.forall_mem_cons.mp hLetters
    cases t with
    | nil => rfl
    | cons a t =>
      cases a with
      | none =>
        obtain ⟨c, rest, rfl⟩ := List.exists_cons_of_ne_nil hValue
        have hDiffer := hLetter c (h c List.mem_cons_self)
        rw [fill_hole, List.cons_append, afterLetters, if_neg (by simp [hDiffer])]
      | some c =>
        rw [fill_char, afterLetters]
        split
        · rename_i hSame
          have hSymbol : symbolSame letter (some c) = true := hSame
          rw [afterLetters, if_pos hSymbol] at hNone
          exact ih hMore hNone
        · rfl

/-- The rule does not notice a password of such characters. -/
theorem followed_of_foreign (hValue : value ≠ []) (h : ∀ c ∈ value, foreign c = true) (room : Nat)
    (t : Template) : Followed value room t where
  text _ hNone := by
    rw [keyword, List.findSome?_eq_none_iff] at hNone ⊢
    intro letters hLetters
    exact afterLetters_foreign hValue h
      (fun letter hLetter c hc => (foreign_iff.mp hc).2 letters hLetters letter hLetter)
      (hNone letters hLetters)
  hole := by
    intro u _ w hNonempty hSuffix
    obtain ⟨c, rest, rfl⟩ := List.exists_cons_of_ne_nil hNonempty
    have hc := (foreign_iff.mp (h c (hSuffix.subset List.mem_cons_self))).2
    have hNonempty : ∀ letters ∈ keywords, letters ≠ [] := by decide
    rw [keyword, List.findSome?_eq_none_iff]
    intro letters hLetters
    obtain ⟨letter, more, rfl⟩ := List.exists_cons_of_ne_nil (hNonempty letters hLetters)
    have hDiffer := hc _ hLetters letter List.mem_cons_self
    rw [List.cons_append, afterLetters, if_neg (by simp [hDiffer])]
  run _ _ _ c hc := (foreign_iff.mp (h c hc)).1

/-- A password of such characters is left whole, if it begins with one that the message does not
have elsewhere and the cut falls into no hole. -/
theorem whole_of_foreign {t : Template} {first : Char} {rest : Text}
    (h : ∀ c ∈ first :: rest, foreign c = true) (hFirst : some first ∉ sanitizedTemplate t)
    (hUncut : Uncut (rest.length + 1) 300 (sanitizedTemplate t)) : Whole (first :: rest) t where
  followed := followed_of_foreign (List.cons_ne_nil _ _) h 300 t
  uncut := hUncut
  alone := by
    intro c u hSuffix hPrefix
    have hMem : some c ∈ sanitizedTemplate t :=
      (cut_prefix_self _ _ _).subset (hSuffix.subset List.mem_cons_self)
    rw [fill_char] at hPrefix
    rw [(List.cons_prefix_cons.mp hPrefix).1] at hFirst
    exact hFirst hMem

end AccessBroker.WebdavAdapter
