import Mathlib.Data.List.Infix
import AccessBroker.Library.Text

/-! # HTML without attributes

Escaped text between tags. The printed text determines what it was printed from, so
that its tags can be spoken of.
-/

namespace Html
open Py
set_option autoImplicit false

structure Name where
  text : Text
  nonempty : text ≠ []
  plain : (text.all fun c => c ≠ '>' && c ≠ '/') = true
  deriving DecidableEq

inductive Tag where
  | opening (name : Name)
  | closing (name : Name)
  /-- `<name/>`. -/
  | void (name : Name)
  deriving DecidableEq

def Tag.inner : Tag → Text
  | opening name => name.text
  | closing name => '/' :: name.text
  | void name => name.text ++ ['/']

def Tag.text (tag : Tag) : Text := '<' :: (tag.inner ++ ['>'])

/-- `html.escape` with `quote=False`, of one character. -/
def escapeChar (c : Char) : Text :=
  if c = '&' then "&amp;".toList
  else if c = '<' then "&lt;".toList
  else if c = '>' then "&gt;".toList
  else [c]

def escape (text : Text) : Text := text.flatMap escapeChar

inductive Token where
  | tag (t : Tag)
  | char (c : Char)
  deriving DecidableEq

def Token.text : Token → Text
  | tag t => t.text
  | char c => escapeChar c

def render (tokens : List Token) : Text := tokens.flatMap Token.text

def tags (tokens : List Token) : List Tag :=
  tokens.filterMap fun
    | .tag t => some t
    | .char _ => none

def chars (tokens : List Token) : Text :=
  tokens.filterMap fun
    | .tag _ => none
    | .char c => some c

def isSpecial (c : Char) : Bool := c == '&' || c == '<' || c == '>'

def isAngle (c : Char) : Bool := c == '<' || c == '>'

theorem render_cons (t : Token) (tokens : List Token) :
    render (t :: tokens) = t.text ++ render tokens := rfl

theorem render_append (tokens more : List Token) :
    render (tokens ++ more) = render tokens ++ render more := List.flatMap_append

theorem escape_eq_render (text : Text) : escape text = render (text.map .char) := by
  rw [escape, render, List.flatMap_map]
  rfl

/-! ## Reading a rendered text -/

/-- What a character is printed as tells it apart from every tag and every other character. -/
theorem escapeChar_cases (c : Char) :
    (isSpecial c = true ∧ ∃ name, escapeChar c = '&' :: name ∧ isAngle '&' = false ∧
        name.all (fun d => !isAngle d) = true) ∨
      (isSpecial c = false ∧ escapeChar c = [c]) := by
  unfold escapeChar
  split
  · rename_i h
    exact Or.inl ⟨by rw [h]; rfl, _, rfl, rfl, rfl⟩
  split
  · rename_i h
    exact Or.inl ⟨by rw [h]; rfl, _, rfl, rfl, rfl⟩
  split
  · rename_i h
    exact Or.inl ⟨by rw [h]; rfl, _, rfl, rfl, rfl⟩
  · rename_i hAmp hLt hGt
    exact Or.inr ⟨by simp [isSpecial, hAmp, hLt, hGt], rfl⟩

theorem escapeChar_angle (c : Char) : ∀ d ∈ escapeChar c, isAngle d = false := by
  rcases escapeChar_cases c with ⟨_, name, hName, hAmp, hPlain⟩ | ⟨hPlain, hName⟩ <;> rw [hName]
  · refine List.forall_mem_cons.mpr ⟨hAmp, fun d hd => ?_⟩
    simpa using List.all_eq_true.mp hPlain d hd
  · intro d hd
    rw [List.mem_singleton.mp hd]
    simp only [isSpecial, Bool.or_eq_false_iff] at hPlain
    simp [isAngle, hPlain]

theorem escapeChar_ne_nil (c : Char) : escapeChar c ≠ [] := by
  rcases escapeChar_cases c with ⟨_, name, hName, _⟩ | ⟨_, hName⟩ <;> rw [hName] <;> nofun

theorem escapeChar_of_plain {c : Char} (h : isSpecial c = false) : escapeChar c = [c] := by
  rcases escapeChar_cases c with ⟨hSpecial, _⟩ | ⟨_, hChar⟩
  · rw [h] at hSpecial
    cases hSpecial
  · exact hChar

/-- The special characters, and what their entities are made of. -/
def entityChars : Text := "<>&amp;lt;gt;".toList

theorem mem_entityChars {c : Char} (h : isSpecial c = true) :
    c ∈ entityChars ∧ ∀ d ∈ escapeChar c, d ∈ entityChars := by
  have hAll (name : Text) (hName : (name.all fun d => entityChars.contains d) = true) :
      ∀ d ∈ name, d ∈ entityChars :=
    fun d hd => List.contains_iff_mem.mp (List.all_eq_true.mp hName d hd)
  simp only [isSpecial, Bool.or_eq_true, beq_iff_eq] at h
  rcases h with (rfl | rfl) | rfl
  · exact ⟨by decide, hAll _ (by decide)⟩
  · exact ⟨by decide, hAll _ (by decide)⟩
  · exact ⟨by decide, hAll _ (by decide)⟩

/-- No print of a character begins another. -/
theorem escapeChar_cancel {c d : Char} {x y : Text}
    (h : escapeChar c ++ x = escapeChar d ++ y) : c = d ∧ x = y := by
  have hEntities (c d : Char) (hc : isSpecial c = true) (hd : isSpecial d = true)
      (h : escapeChar c ++ x = escapeChar d ++ y) : c = d ∧ x = y := by
    simp only [isSpecial, Bool.or_eq_true, beq_iff_eq] at hc hd
    -- the entities differ in their second letter
    rcases hc with (rfl | rfl) | rfl <;> rcases hd with (rfl | rfl) | rfl <;>
      first
      | exact ⟨rfl, List.append_cancel_left h⟩
      | exact absurd (List.cons.inj (List.cons.inj h).2).1 (by decide)
  rcases escapeChar_cases c with ⟨hc, name, hName, _⟩ | ⟨hc, hName⟩ <;>
    rcases escapeChar_cases d with ⟨hd, name', hName', _⟩ | ⟨hd, hName'⟩
  · exact hEntities c d hc hd h
  · rw [hName, hName'] at h
    have hAmp : '&' = d := (List.cons.inj h).1
    rw [← hAmp] at hd
    cases hd
  · rw [hName, hName'] at h
    have hAmp : c = '&' := (List.cons.inj h).1
    rw [hAmp] at hc
    cases hc
  · rw [hName, hName'] at h
    exact List.cons.inj h

theorem Tag.inner_plain (t : Tag) : '>' ∉ t.inner := by
  have hName (name : Name) : '>' ∉ name.text := fun hMem => by
    have hPlain := List.all_eq_true.mp name.plain '>' hMem
    cases hPlain
  cases t with
  | opening name => exact hName name
  | closing name => exact fun hMem => (List.mem_cons.mp hMem).elim (by decide) (hName name)
  | void name =>
    exact fun hMem => (List.mem_append.mp hMem).elim (hName name) (by decide)

theorem Name.ext_text {name name' : Name} (h : name.text = name'.text) : name = name' := by
  cases name
  cases name'
  cases h
  rfl

theorem Name.no_slash (name : Name) : '/' ∉ name.text := fun hMem => by
  have hPlain := List.all_eq_true.mp name.plain '/' hMem
  cases hPlain

theorem Tag.inner_injective {t t' : Tag} (h : t.inner = t'.inner) : t = t' := by
  -- only an opening tag is without a slash, and only a closing one begins with it
  have hSlash (name name' : Name) : '/' :: name.text ≠ name'.text ++ ['/'] := fun hEq => by
    obtain ⟨c, rest, hText⟩ := List.exists_cons_of_ne_nil name'.nonempty
    rw [hText, List.cons_append] at hEq
    exact name'.no_slash (hText ▸ (List.cons.inj hEq).1 ▸ List.mem_cons_self)
  have hOpening (name : Name) {inner : Text} (hMem : '/' ∈ inner) : name.text ≠ inner :=
    fun hEq => name.no_slash (hEq.symm ▸ hMem)
  have hVoid (name : Name) : '/' ∈ name.text ++ ['/'] := List.mem_append_right _ (by decide)
  cases t with
  | opening name =>
    cases t' with
    | opening name' => exact congrArg opening (Name.ext_text h)
    | closing name' => exact absurd h (hOpening name List.mem_cons_self)
    | void name' => exact absurd h (hOpening name (hVoid name'))
  | closing name =>
    cases t' with
    | opening name' => exact absurd h.symm (hOpening name' List.mem_cons_self)
    | closing name' => exact congrArg closing (Name.ext_text (List.cons.inj h).2)
    | void name' => exact absurd h (hSlash name name')
  | void name =>
    cases t' with
    | opening name' => exact absurd h.symm (hOpening name' (hVoid name))
    | closing name' => exact absurd h.symm (hSlash name' name)
    | void name' => exact congrArg void (Name.ext_text (List.append_cancel_right h))

/-- Where `c` occurs first. -/
theorem append_cons_cancel {c : Char} {x y u v : Text} (hx : c ∉ x) (hy : c ∉ y)
    (h : x ++ c :: u = y ++ c :: v) : x = y ∧ u = v := by
  have hShort {x y u v : Text} (hy : c ∉ y) {more : Text} (hMore : y = x ++ more)
      (h : c :: u = more ++ c :: v) : x = y ∧ u = v := by
    cases more with
    | nil => exact ⟨by rw [hMore, List.append_nil], (List.cons.inj h).2⟩
    | cons d more =>
      have hd : c = d := (List.cons.inj h).1
      exact absurd (hMore ▸ List.mem_append_right x (hd ▸ List.mem_cons_self)) hy
  rcases List.append_eq_append_iff.mp h with ⟨more, hMore, hRest⟩ | ⟨more, hMore, hRest⟩
  · exact hShort hy hMore hRest
  · exact (hShort hx hMore hRest).imp Eq.symm Eq.symm

theorem Tag.text_cancel {t t' : Tag} {x y : Text} (h : t.text ++ x = t'.text ++ y) :
    t = t' ∧ x = y := by
  have hInner : t.inner ++ '>' :: x = t'.inner ++ '>' :: y := by
    simpa [Tag.text] using h
  obtain ⟨hSame, hRest⟩ := append_cons_cancel t.inner_plain t'.inner_plain hInner
  exact ⟨Tag.inner_injective hSame, hRest⟩

theorem Token.text_cancel {t t' : Token} {x y : Text} (h : t.text ++ x = t'.text ++ y) :
    t = t' ∧ x = y := by
  have hApart (t : Tag) (c : Char) (x y : Text) : t.text ++ x ≠ escapeChar c ++ y := fun hEq => by
    obtain ⟨d, rest, hd⟩ := List.exists_cons_of_ne_nil (escapeChar_ne_nil c)
    rw [hd, Tag.text] at hEq
    have hAngle := escapeChar_angle c d (hd ▸ List.mem_cons_self)
    rw [← (List.cons.inj hEq).1] at hAngle
    cases hAngle
  cases t with
  | tag t =>
    cases t' with
    | tag t' =>
      obtain ⟨rfl, hRest⟩ := Tag.text_cancel h
      exact ⟨rfl, hRest⟩
    | char c => exact absurd h (hApart t c x y)
  | char c =>
    cases t' with
    | tag t' => exact absurd h.symm (hApart t' c y x)
    | char d =>
      obtain ⟨rfl, hRest⟩ := escapeChar_cancel h
      exact ⟨rfl, hRest⟩

theorem Token.text_ne_nil (t : Token) : t.text ≠ [] := by
  cases t with
  | tag t => nofun
  | char c => exact escapeChar_ne_nil c

theorem render_injective {tokens tokens' : List Token} (h : render tokens = render tokens') :
    tokens = tokens' := by
  induction tokens generalizing tokens' with
  | nil =>
    cases tokens' with
    | nil => rfl
    | cons t' tokens' =>
      exact absurd (List.append_eq_nil_iff.mp h.symm).1 t'.text_ne_nil
  | cons t tokens ih =>
    cases tokens' with
    | nil => exact absurd (List.append_eq_nil_iff.mp h).1 t.text_ne_nil
    | cons t' tokens' =>
      obtain ⟨rfl, hRest⟩ := Token.text_cancel h
      rw [ih hRest]

/-- An angle bracket of a rendered text belongs to one of the tags. -/
theorem render_angle {tokens : List Token} {before after : Text} {c : Char}
    (hAngle : isAngle c = true) (h : render tokens = before ++ c :: after) :
    ∃ pre t post start rest, tokens = pre ++ .tag t :: post ∧ t.text = start ++ c :: rest ∧
      before = render pre ++ start ∧ after = rest ++ render post := by
  induction tokens generalizing before with
  | nil => cases List.append_eq_nil_iff.mp h.symm with | intro _ hNil => cases hNil
  | cons t tokens ih =>
    have hText : t.text ++ render tokens = before ++ c :: after := h
    rcases List.append_eq_append_iff.mp hText with ⟨more, rfl, hMore⟩ | ⟨more, hMore, hRest⟩
    · obtain ⟨pre, tag, post, start, rest, rfl, hTag, rfl, rfl⟩ := ih hMore
      exact ⟨t :: pre, tag, post, start, rest, rfl, hTag, (List.append_assoc _ _ _).symm, rfl⟩
    · cases more with
      | nil =>
        obtain ⟨pre, tag, post, start, rest, rfl, hTag, hStart, rfl⟩ := @ih [] hRest.symm
        refine ⟨t :: pre, tag, post, start, rest, rfl, hTag, ?_, rfl⟩
        rw [List.append_nil] at hMore
        obtain ⟨hPre, rfl⟩ := List.append_eq_nil_iff.mp hStart.symm
        rw [← hMore, List.append_nil]
        exact (List.append_right_eq_self.mpr hPre).symm
      | cons d more =>
        obtain ⟨rfl, rfl⟩ := List.cons.inj hRest
        cases t with
        | tag t => exact ⟨[], t, tokens, before, more, rfl, hMore, rfl, rfl⟩
        | char d =>
          have hMem : c ∈ escapeChar d := by
            have hText : escapeChar d = before ++ c :: more := hMore
            rw [hText]
            exact List.mem_append_right _ List.mem_cons_self
          have hPlain := escapeChar_angle d c hMem
          rw [hAngle] at hPlain
          cases hPlain

/-! ## Nesting -/

/-- The elements that are open after the tags, the innermost first, or `none` if a tag closes
another one than that. -/
def closes : List Name → List Tag → Option (List Name)
  | stack, [] => some stack
  | stack, .opening name :: rest => closes (name :: stack) rest
  | stack, .void _ :: rest => closes stack rest
  | [], .closing _ :: _ => none
  | name :: stack, .closing name' :: rest => if name = name' then closes stack rest else none

/-- Every tag closes what was opened last, and nothing is left open. -/
def WellFormed (text : Text) : Prop := ∃ tokens, text = render tokens ∧ closes [] (tags tokens) = some []

theorem wellFormed_render_iff {tokens : List Token} :
    WellFormed (render tokens) ↔ closes [] (tags tokens) = some [] := by
  constructor
  · rintro ⟨tokens', hRender, hCloses⟩
    rw [render_injective hRender]
    exact hCloses
  · exact fun h => ⟨tokens, rfl, h⟩

theorem tags_append (tokens more : List Token) : tags (tokens ++ more) = tags tokens ++ tags more :=
  List.filterMap_append

theorem chars_append (tokens more : List Token) :
    chars (tokens ++ more) = chars tokens ++ chars more := List.filterMap_append

theorem closes_append (stack : List Name) (tags more : List Tag) :
    closes stack (tags ++ more) = (closes stack tags).bind fun stack' => closes stack' more := by
  induction tags generalizing stack with
  | nil => rfl
  | cons t tags ih =>
    cases t with
    | opening name => exact ih _
    | void name => exact ih _
    | closing name =>
      cases stack with
      | nil => rfl
      | cons top stack =>
        rw [List.cons_append, closes, closes]
        split
        · exact ih _
        · rfl

end Html
