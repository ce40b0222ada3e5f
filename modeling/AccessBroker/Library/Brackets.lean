import Mathlib.Data.List.Infix

/-! # Matching closing brackets with what precedes them

A word has closing letters, and all its other letters open. A closing letter is matched with
the nearest opening one before it that is not matched yet, so what stands between the two is
balanced. A stack machine that pops at each closing letter keeps exactly the openings that are
not matched, and fails exactly if some prefix closes more than it opens.
-/

namespace Brackets
set_option autoImplicit false

variable {α : Type} (closing : α → Bool)

def openings (word : List α) : Nat := word.countP fun a => !closing a

def closings (word : List α) : Nat := word.countP closing

/-- No prefix closes more than it opens, and the whole word closes all it opens. -/
structure Balanced (word : List α) : Prop where
  sane : ∀ head, head <+: word → closings closing head ≤ openings closing head
  settled : closings closing word = openings closing word

/-- After `depth` further openings some prefix of the word closes more than was opened. -/
def Overdrawn (depth : Nat) (word : List α) : Prop :=
  ∃ head, head <+: word ∧ openings closing head + depth < closings closing head

/-- The opening that the word follows is matched in it. -/
def Closed (word : List α) : Prop :=
  ∃ mid close after, word = mid ++ close :: after ∧ closing close = true ∧ Balanced closing mid

def overdraws : Nat → List α → Bool
  | _, [] => false
  | 0, a :: word => closing a || overdraws 1 word
  | depth + 1, a :: word =>
    if closing a then overdraws depth word else overdraws (depth + 2) word

variable {closing}

/-! ## Counting -/

@[simp] theorem openings_nil : openings closing [] = 0 := rfl

@[simp] theorem closings_nil : closings closing [] = 0 := rfl

theorem openings_cons (a : α) (word : List α) :
    openings closing (a :: word) = openings closing word + if closing a then 0 else 1 := by
  cases h : closing a <;> simp [openings, h]

theorem closings_cons (a : α) (word : List α) :
    closings closing (a :: word) = closings closing word + if closing a then 1 else 0 := by
  cases h : closing a <;> simp [closings, h]

theorem openings_append (word other : List α) :
    openings closing (word ++ other) = openings closing word + openings closing other :=
  List.countP_append

theorem closings_append (word other : List α) :
    closings closing (word ++ other) = closings closing word + closings closing other :=
  List.countP_append

/-! ## Overdrawing -/

theorem not_overdrawn_nil (depth : Nat) : ¬ Overdrawn closing depth ([] : List α) := by
  rintro ⟨head, hHead, hMore⟩
  rw [List.prefix_nil.mp hHead] at hMore
  simp at hMore

theorem overdrawn_opening {a : α} (ha : closing a = false) (depth : Nat) (word : List α) :
    Overdrawn closing depth (a :: word) ↔ Overdrawn closing (depth + 1) word := by
  constructor
  · rintro ⟨head, hHead, hMore⟩
    rcases List.prefix_cons_iff.mp hHead with rfl | ⟨rest, rfl, hRest⟩
    · simp at hMore
    · refine ⟨rest, hRest, ?_⟩
      simp only [openings_cons, closings_cons, ha, Bool.false_eq_true, if_false] at hMore
      omega
  · rintro ⟨head, hHead, hMore⟩
    refine ⟨a :: head, (List.prefix_cons_inj a).mpr hHead, ?_⟩
    simp only [openings_cons, closings_cons, ha, Bool.false_eq_true, if_false]
    omega

theorem overdrawn_closing {a : α} (ha : closing a = true) (depth : Nat) (word : List α) :
    Overdrawn closing (depth + 1) (a :: word) ↔ Overdrawn closing depth word := by
  constructor
  · rintro ⟨head, hHead, hMore⟩
    rcases List.prefix_cons_iff.mp hHead with rfl | ⟨rest, rfl, hRest⟩
    · simp at hMore
    · refine ⟨rest, hRest, ?_⟩
      simp only [openings_cons, closings_cons, ha, if_true] at hMore
      omega
  · rintro ⟨head, hHead, hMore⟩
    refine ⟨a :: head, (List.prefix_cons_inj a).mpr hHead, ?_⟩
    simp only [openings_cons, closings_cons, ha, if_true]
    omega

theorem overdrawn_at_once {a : α} (ha : closing a = true) (word : List α) :
    Overdrawn closing 0 (a :: word) :=
  ⟨[a], ⟨word, rfl⟩, by simp [openings_cons, closings_cons, ha]⟩

theorem overdraws_iff {depth : Nat} {word : List α} :
    overdraws closing depth word = true ↔ Overdrawn closing depth word := by
  induction word generalizing depth with
  | nil => exact iff_of_false (by simp [overdraws]) (not_overdrawn_nil depth)
  | cons a word ih =>
    cases ha : closing a with
    | true =>
      cases depth with
      | zero => exact iff_of_true (by simp [overdraws, ha]) (overdrawn_at_once ha word)
      | succ depth => rw [overdraws, if_pos ha, ih, overdrawn_closing ha]
    | false =>
      rw [overdrawn_opening ha, ← ih]
      cases depth <;> simp [overdraws, ha]

instance (depth : Nat) (word : List α) : Decidable (Overdrawn closing depth word) :=
  decidable_of_iff _ overdraws_iff

theorem Overdrawn.mono {depth less : Nat} {word : List α} (h : Overdrawn closing depth word)
    (hLess : less ≤ depth) : Overdrawn closing less word := by
  obtain ⟨head, hHead, hMore⟩ := h
  exact ⟨head, hHead, by omega⟩

theorem overdrawn_openings {front : List α} (h : ∀ a ∈ front, closing a = false) (depth : Nat)
    (word : List α) :
    Overdrawn closing depth (front ++ word) ↔ Overdrawn closing (depth + front.length) word := by
  induction front generalizing depth with
  | nil => rfl
  | cons a front ih =>
    obtain ⟨ha, hFront⟩ := List.forall_mem_cons.mp h
    rw [List.cons_append, overdrawn_opening ha, ih hFront, List.length_cons]
    rw [show depth + 1 + front.length = depth + (front.length + 1) by omega]

/-- An opening that is closed at once does not count. -/
theorem overdrawn_splice {a close : α} (ha : closing a = false) (hClose : closing close = true)
    (depth : Nat) (mid word : List α) :
    Overdrawn closing depth (mid ++ a :: close :: word) ↔ Overdrawn closing depth (mid ++ word) := by
  induction mid generalizing depth with
  | nil => rw [List.nil_append, List.nil_append, overdrawn_opening ha, overdrawn_closing hClose]
  | cons b mid ih =>
    rw [List.cons_append, List.cons_append]
    cases hb : closing b with
    | false => rw [overdrawn_opening hb, overdrawn_opening hb, ih]
    | true =>
      cases depth with
      | zero => exact iff_of_true (overdrawn_at_once hb _) (overdrawn_at_once hb _)
      | succ depth => rw [overdrawn_closing hb, overdrawn_closing hb, ih]

/-- The letter that closes the word for the first time. -/
theorem Overdrawn.first {depth : Nat} {word : List α} (h : Overdrawn closing depth word) :
    ∃ mid close after, word = mid ++ close :: after ∧ closing close = true ∧
      (∀ head, head <+: mid → closings closing head ≤ openings closing head + depth) ∧
      closings closing mid = openings closing mid + depth := by
  have hEmpty (depth : Nat) (head : List α) (hHead : head <+: []) :
      closings closing head ≤ openings closing head + depth := by
    rw [List.prefix_nil.mp hHead]
    exact Nat.zero_le _
  induction word generalizing depth with
  | nil => exact absurd h (not_overdrawn_nil depth)
  | cons a word ih =>
    cases ha : closing a with
    | false =>
      obtain ⟨mid, close, after, rfl, hClose, hSane, hSettled⟩ := ih ((overdrawn_opening ha _ _).mp h)
      refine ⟨a :: mid, close, after, rfl, hClose, fun head hHead => ?_, ?_⟩
      · rcases List.prefix_cons_iff.mp hHead with rfl | ⟨rest, rfl, hRest⟩
        · exact Nat.zero_le _
        · have hBound := hSane rest hRest
          simp only [openings_cons, closings_cons, ha, Bool.false_eq_true, if_false]
          omega
      · simp only [openings_cons, closings_cons, ha, Bool.false_eq_true, if_false]
        omega
    | true =>
      cases depth with
      | zero => exact ⟨[], a, word, rfl, ha, hEmpty 0, rfl⟩
      | succ depth =>
        obtain ⟨mid, close, after, rfl, hClose, hSane, hSettled⟩ :=
          ih ((overdrawn_closing ha _ _).mp h)
        refine ⟨a :: mid, close, after, rfl, hClose, fun head hHead => ?_, ?_⟩
        · rcases List.prefix_cons_iff.mp hHead with rfl | ⟨rest, rfl, hRest⟩
          · exact Nat.zero_le _
          · have hBound := hSane rest hRest
            simp only [openings_cons, closings_cons, ha, if_true]
            omega
        · simp only [openings_cons, closings_cons, ha, if_true]
          omega

/-- An opening is matched exactly if what follows closes more than it opens. -/
theorem closed_iff {word : List α} : Closed closing word ↔ Overdrawn closing 0 word := by
  constructor
  · rintro ⟨mid, close, after, rfl, hClose, hMid⟩
    refine ⟨mid ++ [close], ⟨after, by simp⟩, ?_⟩
    have hSettled := hMid.settled
    simp only [openings_append, closings_append, openings_cons, closings_cons, hClose, openings_nil,
      closings_nil, if_true]
    omega
  · intro h
    obtain ⟨mid, close, after, hWord, hClose, hSane, hSettled⟩ := h.first
    exact ⟨mid, close, after, hWord, hClose, hSane, hSettled⟩

instance (word : List α) : Decidable (Closed closing word) := decidable_of_iff _ closed_iff.symm

/-! ## The machine -/

variable (closing) in
/-- The openings of the word that no closing letter of it is matched with. -/
def unmatched : List α → List α
  | [] => []
  | a :: word =>
    if closing a = true ∨ Closed closing word then unmatched word else a :: unmatched word

variable (closing) in
/-- The stack machine; the top of the stack is its last element. -/
def reduce : List α → List α → Option (List α)
  | stack, [] => some stack
  | stack, a :: word =>
    if closing a then if stack = [] then none else reduce stack.dropLast word
    else reduce (stack ++ [a]) word

theorem unmatched_splice {a close : α} (ha : closing a = false) (hClose : closing close = true)
    (mid word : List α) :
    unmatched closing (mid ++ a :: close :: word) = unmatched closing (mid ++ word) := by
  induction mid with
  | nil =>
    have hClosed : Closed closing (close :: word) := closed_iff.mpr (overdrawn_at_once hClose word)
    rw [List.nil_append, unmatched, if_pos (Or.inr hClosed), unmatched,
      if_pos (Or.inl hClose)]
    rfl
  | cons b mid ih =>
    rw [List.cons_append, unmatched, List.cons_append, unmatched, ih]
    simp only [closed_iff, overdrawn_splice ha hClose]

/-- Openings before a word that closes no more than it opens stay. -/
theorem unmatched_openings_append {front : List α} (h : ∀ a ∈ front, closing a = false)
    {word : List α} (hWord : ¬ Overdrawn closing 0 word) :
    unmatched closing (front ++ word) = front ++ unmatched closing word := by
  induction front with
  | nil => rfl
  | cons a front ih =>
    obtain ⟨ha, hFront⟩ := List.forall_mem_cons.mp h
    have hOpen : ¬ Closed closing (front ++ word) := fun hClosed =>
      hWord (((overdrawn_openings hFront _ _).mp (closed_iff.mp hClosed)).mono (Nat.zero_le _))
    rw [List.cons_append, unmatched, if_neg (by simp [ha, hOpen]), ih hFront, List.cons_append]

theorem mem_unmatched {word : List α} {a : α} (h : a ∈ unmatched closing word) :
    a ∈ word ∧ closing a = false := by
  induction word with
  | nil => cases h
  | cons b word ih =>
    rw [unmatched] at h
    split at h
    · exact ⟨List.mem_cons_of_mem b (ih h).1, (ih h).2⟩
    · rename_i hKept
      rcases List.mem_cons.mp h with rfl | hRest
      · exact ⟨List.mem_cons_self, by simpa using (not_or.mp hKept).1⟩
      · exact ⟨List.mem_cons_of_mem b (ih hRest).1, (ih hRest).2⟩

/-- The machine fails exactly on words that are overdrawn, and keeps what is not matched. -/
theorem reduce_eq {stack : List α} (hStack : ∀ a ∈ stack, closing a = false) (word : List α) :
    reduce closing stack word = if Overdrawn closing stack.length word then none
      else some (unmatched closing (stack ++ word)) := by
  induction word generalizing stack with
  | nil =>
    rw [reduce, if_neg (not_overdrawn_nil _),
      unmatched_openings_append hStack (not_overdrawn_nil 0), unmatched, List.append_nil]
  | cons a word ih =>
    rw [reduce]
    cases ha : closing a with
    | false =>
      have hPushed : ∀ b ∈ stack ++ [a], closing b = false := by
        rw [List.forall_mem_append]
        exact ⟨hStack, by simpa using ha⟩
      rw [if_neg (by decide), ih hPushed, List.length_append, List.length_singleton,
        List.append_assoc, List.singleton_append]
      simp only [overdrawn_opening ha]
    | true =>
      rw [if_pos rfl]
      rcases List.eq_nil_or_concat stack with rfl | ⟨front, top, rfl⟩
      · rw [if_pos rfl, List.length_nil, if_pos (overdrawn_at_once ha word)]
      · rw [List.concat_eq_append] at hStack ⊢
        obtain ⟨hFront, hTop⟩ := List.forall_mem_append.mp hStack
        have hTop : closing top = false := hTop top (by simp)
        rw [if_neg (by simp), List.dropLast_concat, ih hFront, List.length_append,
          List.length_singleton, List.append_assoc, List.singleton_append,
          unmatched_splice hTop ha]
        simp only [overdrawn_closing ha]

end Brackets
