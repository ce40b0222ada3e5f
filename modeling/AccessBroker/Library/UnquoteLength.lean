import AccessBroker.Library.Unquote

/-! # What one pass of percent-decoding does to the length

An escape becomes one byte and a byte becomes at most one character, so a pass makes a text
shorter if it holds an escape, and leaves it as it is otherwise.
-/

namespace Py
set_option autoImplicit false

theorem utf8Decode_length (bytes : List Nat) : (utf8Decode bytes).length ≤ bytes.length := by
  fun_induction utf8Decode bytes <;> simp only [List.length_cons, List.length_nil] at * <;> omega

theorem utf8Decode_ascii {bytes : List Nat} (h : ∀ b ∈ bytes, b < 0x80) :
    utf8Decode bytes = bytes.map Char.ofNat := by
  induction bytes with
  | nil => rw [utf8Decode, List.map_nil]
  | cons b rest ih =>
    obtain ⟨hb, hRest⟩ := List.forall_mem_cons.mp h
    rw [utf8Decode.eq_def]
    dsimp only
    rw [if_pos hb, ih hRest, List.map_cons]

theorem unquoteFrom_length (pending : List Nat) (text : Text) :
    (unquoteFrom pending text).length ≤ pending.length + text.length := by
  have hDecoded : ∀ pending : List Nat, (utf8Decode pending.reverse).length ≤ pending.length := by
    intro pending
    have hLength := utf8Decode_length pending.reverse
    rwa [List.length_reverse] at hLength
  fun_induction unquoteFrom pending text with
  | case1 pending => exact hDecoded pending
  | case2 pending high low rest h l hLow hHigh ih =>
    simp only [List.length_cons] at ih ⊢
    omega
  | case3 pending high low rest hNone ih =>
    simp only [List.length_cons] at ih ⊢
    omega
  | case4 pending short hShort ih =>
    simp only [List.length_cons] at ih ⊢
    omega
  | case5 pending c rest hPercent hAscii ih =>
    simp only [List.length_cons] at ih ⊢
    omega
  | case6 pending c rest hPercent hAscii ih =>
    have hPending := hDecoded pending
    simp only [List.length_append, List.length_cons, List.length_nil] at ih ⊢
    omega

/-- Unless an escape was decoded, a pass puts back what it read. -/
theorem unquoteFrom_cases {pending : List Nat} (text : Text) (h : ∀ b ∈ pending, b < 0x80) :
    unquoteFrom pending text = pending.reverse.map Char.ofNat ++ text ∨
      (unquoteFrom pending text).length < pending.length + text.length := by
  have hDecoded : ∀ pending : List Nat, (∀ b ∈ pending, b < 0x80) →
      utf8Decode pending.reverse = pending.reverse.map Char.ofNat := by
    intro pending hPending
    exact utf8Decode_ascii fun b hb => hPending b (List.mem_reverse.mp hb)
  fun_induction unquoteFrom pending text with
  | case1 pending =>
    rw [List.append_nil]
    exact Or.inl (hDecoded pending h)
  | case2 pending high low rest hi lo hLow hHigh ih =>
    right
    have hLength := unquoteFrom_length ((16 * hi + lo) :: pending) rest
    simp only [List.length_cons] at hLength ⊢
    omega
  | case3 pending high low rest hNone ih =>
    refine (ih (List.forall_mem_cons.mpr ⟨by decide, h⟩)).imp (fun hSame => ?_) fun hShort => ?_
    · rw [hSame, List.reverse_cons, List.map_append, List.append_assoc]
      rfl
    · simp only [List.length_cons] at hShort ⊢
      omega
  | case4 pending short hShort ih =>
    refine (ih (List.forall_mem_cons.mpr ⟨by decide, h⟩)).imp (fun hSame => ?_) fun hLess => ?_
    · rw [hSame, List.reverse_cons, List.map_append, List.append_assoc]
      rfl
    · simp only [List.length_cons] at hLess ⊢
      omega
  | case5 pending c rest hPercent hAscii ih =>
    refine (ih (List.forall_mem_cons.mpr ⟨hAscii, h⟩)).imp (fun hSame => ?_) fun hShort => ?_
    · rw [hSame, List.reverse_cons, List.map_append, List.append_assoc, List.map_singleton,
        Char.ofNat_toNat]
      rfl
    · simp only [List.length_cons] at hShort ⊢
      omega
  | case6 pending c rest hPercent hAscii ih =>
    refine (ih (by simp)).imp (fun hSame => ?_) fun hShort => ?_
    · rw [hDecoded pending h, hSame]
      rfl
    · rw [hDecoded pending h]
      simp only [List.length_append, List.length_map, List.length_reverse, List.length_cons,
        List.length_nil] at hShort ⊢
      omega

theorem unquote_cases (text : Text) : unquote text = text ∨ (unquote text).length < text.length := by
  have hCases := @unquoteFrom_cases [] text (by simp)
  rwa [List.reverse_nil, List.map_nil, List.nil_append, List.length_nil, Nat.zero_add] at hCases

theorem unquote_length (text : Text) : (unquote text).length ≤ text.length := by
  rcases unquote_cases text with hSame | hShort
  · rw [hSame]
  · omega

/-! ## Escapes -/

/-- The text holds a percent sign that two hexadecimal digits follow. -/
def Escaped (text : Text) : Prop :=
  ∃ high low, (hexValue high).isSome = true ∧ (hexValue low).isSome = true ∧
    ['%', high, low] <:+: text

/-- An escape stands at the head of the text. -/
def EscapeFirst : Text → Prop
  | c :: high :: low :: _ =>
    c = '%' ∧ (hexValue high).isSome = true ∧ (hexValue low).isSome = true
  | _ => False

theorem not_escaped_nil : ¬ Escaped [] := by
  rintro ⟨high, low, _, _, hInfix⟩
  cases List.infix_nil.mp hInfix

theorem escaped_cons {c : Char} {rest : Text} :
    Escaped (c :: rest) ↔ EscapeFirst (c :: rest) ∨ Escaped rest := by
  constructor
  · rintro ⟨high, low, hHigh, hLow, hInfix⟩
    rcases List.infix_cons_iff.mp hInfix with ⟨after, hHead⟩ | hRest
    · cases hHead
      exact Or.inl ⟨rfl, hHigh, hLow⟩
    · exact Or.inr ⟨high, low, hHigh, hLow, hRest⟩
  · rintro (hFirst | ⟨high, low, hHigh, hLow, hRest⟩)
    · match rest, hFirst with
      | high :: low :: after, ⟨hPercent, hHigh, hLow⟩ =>
        exact ⟨high, low, hHigh, hLow, hPercent ▸ (List.prefix_append _ after).isInfix⟩
    · exact ⟨high, low, hHigh, hLow, hRest.trans (List.suffix_cons c rest).isInfix⟩

theorem escaped_of_ne {c : Char} (h : c ≠ '%') (rest : Text) : Escaped (c :: rest) ↔ Escaped rest := by
  rw [escaped_cons, or_iff_right]
  intro hFirst
  match rest, hFirst with
  | _ :: _ :: _, hPercent => exact h hPercent.1

/-- Escapes do not reach over a character that has no part in them. -/
theorem escaped_append_cons {sep : Char} (hPercent : sep ≠ '%') (hDigit : hexValue sep = none)
    (text rest : Text) : Escaped (text ++ sep :: rest) ↔ Escaped text ∨ Escaped rest := by
  induction text with
  | nil =>
    rw [List.nil_append, escaped_of_ne hPercent]
    exact (or_iff_right not_escaped_nil).symm
  | cons c text ih =>
    have hFirst : EscapeFirst (c :: (text ++ sep :: rest)) ↔ EscapeFirst (c :: text) := by
      match text with
      | [] | [high] => cases rest <;> simp [EscapeFirst, hDigit]
      | high :: low :: after => rfl
    rw [List.cons_append, escaped_cons, escaped_cons, hFirst, ih, or_assoc]

theorem unquoteFrom_eq_iff {pending : List Nat} (text : Text) (h : ∀ b ∈ pending, b < 0x80) :
    unquoteFrom pending text = pending.reverse.map Char.ofNat ++ text ↔ ¬ Escaped text := by
  have hPushed (pending : List Nat) (b : Nat) (text : Text) :
      (b :: pending).reverse.map Char.ofNat ++ text =
        pending.reverse.map Char.ofNat ++ Char.ofNat b :: text := by
    rw [List.reverse_cons, List.map_append, List.append_assoc]
    rfl
  have hDecoded (pending : List Nat) (h : ∀ b ∈ pending, b < 0x80) :
      utf8Decode pending.reverse = pending.reverse.map Char.ofNat :=
    utf8Decode_ascii fun b hb => h b (List.mem_reverse.mp hb)
  fun_induction unquoteFrom pending text with
  | case1 pending =>
    rw [List.append_nil]
    exact iff_of_true (hDecoded pending h) not_escaped_nil
  | case2 pending high low rest hi lo hLow hHigh ih =>
    refine iff_of_false (fun hSame => ?_) (not_not_intro ?_)
    · have hLength := unquoteFrom_length ((16 * hi + lo) :: pending) rest
      rw [hSame] at hLength
      simp at hLength
      omega
    · exact escaped_cons.mpr (Or.inl ⟨rfl, by simp [hHigh], by simp [hLow]⟩)
  | case3 pending high low rest hNone ih =>
    have hFirst : ¬ EscapeFirst ('%' :: high :: low :: rest) := by
      rintro ⟨_, hHigh, hLow⟩
      obtain ⟨hi, hHi⟩ := Option.isSome_iff_exists.mp hHigh
      obtain ⟨lo, hLo⟩ := Option.isSome_iff_exists.mp hLow
      exact hNone hi lo hHi hLo
    have hRest := ih (List.forall_mem_cons.mpr ⟨by decide, h⟩)
    rw [hPushed] at hRest
    rw [escaped_cons, or_iff_right hFirst]
    exact hRest
  | case4 pending short hShort ih =>
    have hFirst : ¬ EscapeFirst ('%' :: short) := by
      match short, hShort with
      | [], _ | [_], _ => exact id
      | high :: low :: rest, hShort => exact absurd rfl (hShort high low rest)
    have hRest := ih (List.forall_mem_cons.mpr ⟨by decide, h⟩)
    rw [hPushed] at hRest
    rw [escaped_cons, or_iff_right hFirst]
    exact hRest
  | case5 pending c rest hPercent hAscii ih =>
    have hRest := ih (List.forall_mem_cons.mpr ⟨hAscii, h⟩)
    rw [hPushed, Char.ofNat_toNat] at hRest
    rw [escaped_of_ne hPercent]
    exact hRest
  | case6 pending c rest hPercent hAscii ih =>
    have hRest := ih (by simp)
    rw [List.reverse_nil, List.map_nil, List.nil_append] at hRest
    rw [escaped_of_ne hPercent, hDecoded pending h, List.append_right_inj, List.cons_inj_right]
    exact hRest

theorem unquote_eq_iff (text : Text) : unquote text = text ↔ ¬ Escaped text :=
  @unquoteFrom_eq_iff [] text (by simp)

end Py
