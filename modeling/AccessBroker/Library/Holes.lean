import AccessBroker.Library.Redaction

/-! # Texts with holes

A template is a text in which a value is still to be filled in. What is cut off or replaced of a
filled template is followed on the template, as long as no step takes a hole apart.
-/

namespace Py
set_option autoImplicit false

/-- `none` is a hole. -/
abbrev Template := List (Option Char)

namespace Template

def fill (value : Text) (t : Template) : Text :=
  t.flatMap fun
    | none => value
    | some c => [c]

variable {value : Text}

@[simp] theorem fill_nil : fill value [] = [] := rfl

@[simp] theorem fill_hole (t : Template) : fill value (none :: t) = value ++ fill value t := rfl

@[simp] theorem fill_char (c : Char) (t : Template) :
    fill value (some c :: t) = c :: fill value t := rfl

@[simp] theorem fill_append (t u : Template) :
    fill value (t ++ u) = fill value t ++ fill value u := List.flatMap_append

@[simp] theorem fill_text (text : Text) : fill value (text.map some) = text := by
  induction text with
  | nil => rfl
  | cons c text ih => rw [List.map_cons, fill_char, ih]

/-! ## Cutting -/

/-- What fits into the room, if each hole takes `size` characters. -/
def cut (size : Nat) : Nat → Template → Template
  | _, [] => []
  | 0, some _ :: _ => []
  | room + 1, some c :: t => some c :: cut size room t
  | room, none :: t => if size ≤ room then none :: cut size (room - size) t else []

theorem cut_prefix_self (size room : Nat) (t : Template) : cut size room t <+: t := by
  fun_induction cut size room t with
  | case1 => exact List.prefix_rfl
  | case2 => exact List.nil_prefix
  | case3 room c t ih => exact (List.prefix_cons_inj _).mpr ih
  | case4 room t hRoom ih => exact (List.prefix_cons_inj _).mpr ih
  | case5 room t hRoom => exact List.nil_prefix

/-- The end of the room falls into no hole. -/
def Uncut (size room : Nat) (t : Template) : Prop :=
  ∀ before after, t = before ++ none :: after →
    (fill (List.replicate size ' ') before).length + size ≤ room ∨
      room ≤ (fill (List.replicate size ' ') before).length

theorem Uncut.char {size room : Nat} {c : Char} {t : Template} (h : Uncut size (room + 1) (some c :: t)) :
    Uncut size room t := by
  rintro before after rfl
  have hCut := h (some c :: before) after rfl
  rw [fill_char, List.length_cons] at hCut
  omega

theorem Uncut.hole {size room : Nat} {t : Template} (h : Uncut size room (none :: t))
    (hRoom : size ≤ room) : Uncut size (room - size) t := by
  rintro before after rfl
  have hCut := h (none :: before) after rfl
  rw [fill_hole, List.length_append, List.length_replicate] at hCut
  omega

/-- Nothing is cut off a template that fits. -/
theorem Uncut.of_short {size room : Nat} {t : Template}
    (h : (fill (List.replicate size ' ') t).length ≤ room) : Uncut size room t := by
  rintro before after rfl
  rw [fill_append, fill_hole, List.length_append, List.length_append, List.length_replicate] at h
  omega

theorem take_fill {room : Nat} {t : Template} (h : Uncut value.length room t) :
    (fill value t).take room = fill value (cut value.length room t) := by
  generalize hSize : value.length = size at h ⊢
  fun_induction cut size room t with
  | case1 => simp
  | case2 => simp
  | case3 room c t ih =>
    rw [fill_char, fill_char, List.take_succ_cons, ih h.char]
  | case4 room t hRoom ih =>
    rw [fill_hole, fill_hole, List.take_append, hSize, ih (h.hole hRoom),
      List.take_of_length_le (by omega)]
  | case5 room t hRoom =>
    have hStart := h [] t rfl
    rw [fill_nil, List.length_nil] at hStart
    have hNoRoom : room = 0 := by omega
    rw [hNoRoom]
    rfl

/-! ## Replacing -/

/-- The value begins nowhere but at the holes. -/
def OnlyHoles (value : Text) (t : Template) : Prop :=
  ∀ c u, some c :: u <:+ t → ¬ value <+: fill value (some c :: u)

theorem OnlyHoles.tail {a : Option Char} {t : Template} (h : OnlyHoles value (a :: t)) :
    OnlyHoles value t :=
  fun c u hSuffix => h c u (hSuffix.trans (List.suffix_cons a t))

/-- Replacing the value fills the holes with the other text. -/
theorem replace_fill (new : Text) (hValue : value ≠ []) {t : Template} (h : OnlyHoles value t) :
    replace value new (fill value t) = fill new t := by
  rw [replace]
  induction t with
  | nil => rfl
  | cons a t ih =>
    cases a with
    | some c =>
      have hHere := h c t List.suffix_rfl
      rw [fill_char] at hHere
      rw [fill_char, fill_char, replaceFrom, if_neg, ih h.tail]
      rw [List.isPrefixOf_iff_prefix]
      exact hHere
    | none =>
      obtain ⟨c, rest, hCons⟩ := List.exists_cons_of_ne_nil hValue
      have hMatch : value.isPrefixOf (c :: (rest ++ fill value t)) = true := by
        rw [List.isPrefixOf_iff_prefix, hCons]
        exact List.prefix_append (c :: rest) _
      have hDrop : (rest ++ fill value t).drop (value.length - 1) = fill value t := by
        rw [hCons, List.length_cons, Nat.add_sub_cancel, List.drop_left]
      have hShape : value ++ fill value t = c :: (rest ++ fill value t) := by
        rw [← List.cons_append, ← hCons]
      rw [fill_hole, fill_hole, hShape, replaceFrom, if_pos hMatch, replaceFrom_skip, hDrop,
        ih h.tail]

end Template

end Py
