import Mathlib.Data.List.Infix

/-! # Substitution by matches

A matcher stands for a pattern with one group. `re.sub` and `re.split` go through a
text from the left and take the matches they find, none overlapping another. The
elements need not be characters: a text whose elements are printed as several
characters each is matched as its print is, where the print keeps what the matcher
looks for.
-/

namespace Py
set_option autoImplicit false

/-- What a pattern takes at the front of a text: its group, and what follows the match. -/
structure Matcher (α : Type) where
  run : List α → Option (List α × List α)
  consumes : ∀ {c rest group after}, run (c :: rest) = some (group, after) → after <:+ rest

inductive Piece (α : Type) where
  | plain (a : α)
  | found (group : List α)

namespace Matcher

variable {α β : Type}

/-- `skip` counts the elements of the last match that are still to be passed over. -/
def piecesFrom (m : Matcher α) : Nat → List α → List (Piece α)
  | _, [] => []
  | skip + 1, _ :: rest => piecesFrom m skip rest
  | 0, c :: rest =>
    match m.run (c :: rest) with
    | some (group, after) => .found group :: piecesFrom m (rest.length - after.length) rest
    | none => .plain c :: piecesFrom m 0 rest

def pieces (m : Matcher α) (text : List α) : List (Piece α) := m.piecesFrom 0 text

/-- `re.sub` with a function of the group. -/
def substitute (m : Matcher α) (replacement : List α → List α) (text : List α) : List α :=
  (m.pieces text).flatMap fun
    | .plain c => [c]
    | .found group => replacement group

def splitPieces : List (Piece α) → List (List α)
  | [] => [[]]
  | .plain c :: rest =>
    match splitPieces rest with
    | [] => [[c]]
    | first :: others => (c :: first) :: others
  | .found group :: rest => [] :: group :: splitPieces rest

/-- `re.split` by a pattern that is one group: what stands before, between and after the
matches, and the matches in between. -/
def split (m : Matcher α) (text : List α) : List (List α) := splitPieces (m.pieces text)

/-! ## Going through a text -/

theorem piecesFrom_skip (m : Matcher α) (skip : Nat) (text : List α) :
    m.piecesFrom skip text = m.pieces (text.drop skip) := by
  induction skip generalizing text with
  | zero => rfl
  | succ skip ih =>
    cases text with
    | nil => rfl
    | cons c rest => rw [piecesFrom, ih, List.drop_succ_cons]

theorem pieces_found {m : Matcher α} {c : α} {rest group after : List α}
    (h : m.run (c :: rest) = some (group, after)) :
    m.pieces (c :: rest) = .found group :: m.pieces after := by
  have hAfter : rest.drop (rest.length - after.length) = after :=
    List.suffix_iff_eq_drop.mp (m.consumes h) ▸ rfl
  rw [pieces, piecesFrom, h]
  dsimp only
  rw [piecesFrom_skip, hAfter]

theorem pieces_plain {m : Matcher α} {c : α} {rest : List α} (h : m.run (c :: rest) = none) :
    m.pieces (c :: rest) = .plain c :: m.pieces rest := by
  rw [pieces, piecesFrom, h]
  rfl

theorem substitute_found {m : Matcher α} (replacement : List α → List α) {c : α}
    {rest group after : List α} (h : m.run (c :: rest) = some (group, after)) :
    m.substitute replacement (c :: rest) = replacement group ++ m.substitute replacement after := by
  rw [substitute, pieces_found h, List.flatMap_cons]
  rfl

theorem substitute_plain {m : Matcher α} (replacement : List α → List α) {c : α} {rest : List α}
    (h : m.run (c :: rest) = none) :
    m.substitute replacement (c :: rest) = c :: m.substitute replacement rest := by
  rw [substitute, pieces_plain h, List.flatMap_cons]
  rfl

/-- Where no match begins, the text stays. -/
theorem pieces_append {m : Matcher α} {text rest : List α}
    (h : ∀ u, u ≠ [] → u <:+ text → m.run (u ++ rest) = none) :
    m.pieces (text ++ rest) = text.map .plain ++ m.pieces rest := by
  induction text with
  | nil => rfl
  | cons c text ih =>
    have hHere := h (c :: text) (List.cons_ne_nil c text) List.suffix_rfl
    rw [List.cons_append] at hHere
    rw [List.cons_append, pieces_plain hHere,
      ih fun u hNonempty hSuffix => h u hNonempty (hSuffix.trans (List.suffix_cons c text))]
    rfl

theorem substitute_append {m : Matcher α} (replacement : List α → List α) {text rest : List α}
    (h : ∀ u, u ≠ [] → u <:+ text → m.run (u ++ rest) = none) :
    m.substitute replacement (text ++ rest) = text ++ m.substitute replacement rest := by
  rw [substitute, substitute, pieces_append h, List.flatMap_append, List.flatMap_map]
  congr 1
  exact List.flatMap_singleton' text

/-- What holds of the pieces of every text, by the piece the text begins with. -/
theorem pieces_induction (m : Matcher α) {P : List α → List (Piece α) → Prop} (nil : P [] [])
    (found : ∀ c rest group after, m.run (c :: rest) = some (group, after) →
      P after (m.pieces after) → P (c :: rest) (.found group :: m.pieces after))
    (plain : ∀ c rest, m.run (c :: rest) = none →
      P rest (m.pieces rest) → P (c :: rest) (.plain c :: m.pieces rest)) (text : List α) :
    P text (m.pieces text) := by
  induction hLength : text.length using Nat.strong_induction_on generalizing text with
  | _ length ih =>
    subst hLength
    cases text with
    | nil => exact nil
    | cons c rest =>
      cases hRun : m.run (c :: rest) with
      | none =>
        rw [pieces_plain hRun]
        exact plain c rest hRun (ih _ (Nat.lt_succ_self _) rest rfl)
      | some taken =>
        obtain ⟨group, after⟩ := taken
        rw [pieces_found hRun]
        have hShorter : after.length < (c :: rest).length :=
          Nat.lt_succ_of_le (m.consumes hRun).length_le
        exact found c rest group after hRun (ih _ hShorter after rfl)

/-- A pattern whose group is the whole match splits a text into its parts. -/
theorem split_flatten (m : Matcher α)
    (hWhole : ∀ {text group after}, m.run text = some (group, after) → text = group ++ after)
    (text : List α) : (m.split text).flatten = text := by
  have hFlatten (c : α) (parts : List (Piece α)) :
      (splitPieces (.plain c :: parts)).flatten = c :: (splitPieces parts).flatten := by
    rw [splitPieces]
    split
    · rename_i hNil
      rw [hNil]
      rfl
    · rename_i first others hParts
      rw [hParts]
      rfl
  refine m.pieces_induction (P := fun text parts => (splitPieces parts).flatten = text) rfl ?_ ?_ text
  · intro c rest group after hRun ih
    rw [splitPieces, List.flatten_cons, List.flatten_cons, ih, List.nil_append]
    exact (hWhole hRun).symm
  · intro c rest _ ih
    rw [hFlatten, ih]

/-! ## Delimiters -/

/-- What follows `n` delimiters, if the text begins with them. -/
def dropMarks (mark : α → Bool) : Nat → List α → Option (List α)
  | 0, text => some text
  | _ + 1, [] => none
  | n + 1, c :: rest => if mark c then dropMarks mark n rest else none

/-- The shortest beginning that `n` delimiters follow, and what follows these. -/
def upTo (mark : α → Bool) (n : Nat) : List α → Option (List α × List α)
  | [] => none
  | c :: rest =>
    match dropMarks mark n (c :: rest) with
    | some after => some ([], after)
    | none => (upTo mark n rest).map fun (taken, after) => (c :: taken, after)

theorem dropMarks_length {mark : α → Bool} {n : Nat} {text after : List α}
    (h : dropMarks mark n text = some after) : ∃ marks, text = marks ++ after ∧
      marks.length = n ∧ ∀ c ∈ marks, mark c = true := by
  induction n generalizing text with
  | zero =>
    cases h
    exact ⟨[], rfl, rfl, fun _ h => by cases h⟩
  | succ n ih =>
    cases text with
    | nil => cases h
    | cons c rest =>
      rw [dropMarks] at h
      split at h
      · rename_i hMark
        obtain ⟨marks, rfl, rfl, hMarks⟩ := ih h
        exact ⟨c :: marks, rfl, rfl, List.forall_mem_cons.mpr ⟨hMark, hMarks⟩⟩
      · cases h

theorem upTo_eq_append {mark : α → Bool} {n : Nat} {text taken after : List α}
    (h : upTo mark n text = some (taken, after)) : ∃ marks, text = taken ++ (marks ++ after) ∧
      marks.length = n ∧ ∀ c ∈ marks, mark c = true := by
  induction text generalizing taken with
  | nil => cases h
  | cons c rest ih =>
    rw [upTo] at h
    split at h
    · rename_i hMarks
      cases h
      exact dropMarks_length hMarks
    · obtain ⟨⟨taken', after'⟩, hRest, hTaken⟩ := Option.map_eq_some_iff.mp h
      cases hTaken
      obtain ⟨marks, rfl, hLength, hAll⟩ := ih hRest
      exact ⟨marks, rfl, hLength, hAll⟩

theorem upTo_suffix {mark : α → Bool} {n : Nat} {text taken after : List α}
    (h : upTo mark n text = some (taken, after)) : after <:+ text := by
  obtain ⟨marks, rfl, _, _⟩ := upTo_eq_append h
  exact (List.suffix_append marks after).trans (List.suffix_append taken _)

/-! ## Printed texts -/

/-- A delimiter is printed as a delimiter, and anything else without one. -/
structure Carries (f : α → List β) (mark : α → Bool) (mark' : β → Bool) : Prop where
  marked : ∀ {a}, mark a = true → ∃ b, f a = [b] ∧ mark' b = true
  other : ∀ {a}, mark a = false → f a ≠ [] ∧ ∀ b ∈ f a, mark' b = false

section Printed

variable {f : α → List β} {mark : α → Bool} {mark' : β → Bool}

theorem dropMarks_flatMap (hf : Carries f mark mark') (n : Nat) (text : List α) :
    dropMarks mark' n (text.flatMap f) = (dropMarks mark n text).map (·.flatMap f) := by
  induction n generalizing text with
  | zero => rfl
  | succ n ih =>
    cases text with
    | nil => rfl
    | cons a rest =>
      rw [dropMarks, List.flatMap_cons]
      cases hMark : mark a with
      | true =>
        obtain ⟨b, hb, hMark'⟩ := hf.marked hMark
        rw [hb, List.singleton_append, dropMarks, if_pos hMark', if_pos rfl, ih]
      | false =>
        obtain ⟨hNonempty, hOther⟩ := hf.other hMark
        obtain ⟨b, bs, hb⟩ := List.exists_cons_of_ne_nil hNonempty
        have hMark' : mark' b = false := hOther b (hb ▸ List.mem_cons_self)
        rw [hb, List.cons_append, dropMarks, hMark']
        rfl

theorem upTo_append {n : Nat} {before after : List β} (h : ∀ b ∈ before, mark' b = false) :
    upTo mark' (n + 1) (before ++ after) =
      (upTo mark' (n + 1) after).map fun (taken, rest) => (before ++ taken, rest) := by
  induction before with
  | nil => simp
  | cons b before ih =>
    obtain ⟨hb, hBefore⟩ := List.forall_mem_cons.mp h
    rw [List.cons_append, upTo, dropMarks, hb, ih hBefore, Option.map_map]
    rfl

theorem upTo_flatMap (hf : Carries f mark mark') (n : Nat) (text : List α) :
    upTo mark' (n + 1) (text.flatMap f) =
      (upTo mark (n + 1) text).map fun (taken, rest) => (taken.flatMap f, rest.flatMap f) := by
  induction text with
  | nil => rfl
  | cons a rest ih =>
    cases hMark : mark a with
    | true =>
      obtain ⟨b, hb, hMark'⟩ := hf.marked hMark
      have hDrop := dropMarks_flatMap hf (n + 1) (a :: rest)
      rw [List.flatMap_cons, hb, List.singleton_append] at hDrop ⊢
      rw [upTo, upTo, hDrop]
      cases dropMarks mark (n + 1) (a :: rest) with
      | some after => rfl
      | none =>
        dsimp only [Option.map_none]
        rw [ih, Option.map_map, Option.map_map]
        congr 1
        funext ⟨taken, after⟩
        simp [hb]
    | false =>
      rw [List.flatMap_cons, upTo_append (hf.other hMark).2, ih, upTo, dropMarks, hMark]
      dsimp only
      rw [if_neg Bool.false_ne_true, Option.map_map, Option.map_map]
      congr 1

end Printed

/-- The matcher takes of a printed text what the other takes of the text, and no match begins
inside the print of an element. -/
structure Lifts (f : α → List β) (m : Matcher α) (m' : Matcher β) : Prop where
  nonempty : ∀ a, f a ≠ []
  run : ∀ text, m'.run (text.flatMap f) =
    (m.run text).map fun (group, after) => (group.flatMap f, after.flatMap f)
  inside : ∀ a, ∀ b ∈ (f a).tail, ∀ rest, m'.run (b :: rest) = none

def printPiece (f : α → List β) : Piece α → List (Piece β)
  | .plain a => (f a).map .plain
  | .found group => [.found (group.flatMap f)]

theorem pieces_flatMap {f : α → List β} {m : Matcher α} {m' : Matcher β} (h : Lifts f m m')
    (text : List α) : m'.pieces (text.flatMap f) = (m.pieces text).flatMap (printPiece f) := by
  refine m.pieces_induction
    (P := fun text parts => m'.pieces (text.flatMap f) = parts.flatMap (printPiece f)) rfl ?_ ?_ text
  · intro c rest group after hRun ih
    have hPrinted := h.run (c :: rest)
    rw [hRun] at hPrinted
    rw [List.flatMap_cons] at hPrinted ⊢
    obtain ⟨b, bs, hb⟩ := List.exists_cons_of_ne_nil (h.nonempty c)
    rw [hb, List.cons_append] at hPrinted ⊢
    rw [pieces_found hPrinted, ih, List.flatMap_cons]
    rfl
  · intro c rest hRun ih
    have hPrinted := h.run (c :: rest)
    rw [hRun] at hPrinted
    rw [List.flatMap_cons] at hPrinted ⊢
    obtain ⟨b, bs, hb⟩ := List.exists_cons_of_ne_nil (h.nonempty c)
    have hInside := h.inside c
    rw [hb, List.tail_cons] at hInside
    have hNone : ∀ u, u ≠ [] → u <:+ bs → m'.run (u ++ rest.flatMap f) = none := by
      intro u hNonempty hSuffix
      obtain ⟨d, more, rfl⟩ := List.exists_cons_of_ne_nil hNonempty
      exact hInside d (hSuffix.subset List.mem_cons_self) _
    rw [hb, List.cons_append] at hPrinted ⊢
    rw [pieces_plain hPrinted, pieces_append hNone, ih, List.flatMap_cons, printPiece, hb]
    rfl

theorem substitute_flatMap {f : α → List β} {m : Matcher α} {m' : Matcher β} (h : Lifts f m m')
    (replacement : List β → List β) (text : List α) :
    m'.substitute replacement (text.flatMap f) = (m.pieces text).flatMap fun
      | .plain a => f a
      | .found group => replacement (group.flatMap f) := by
  rw [substitute, pieces_flatMap h, List.flatMap_assoc]
  congr 1
  funext piece
  cases piece with
  | plain a =>
    rw [printPiece, List.flatMap_map]
    exact List.flatMap_singleton' _
  | found group => exact List.flatMap_singleton _ _

end Matcher

end Py
