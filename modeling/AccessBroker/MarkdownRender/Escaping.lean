import AccessBroker.MarkdownRender.Markup

/-! # What a converted text keeps

Characters are only ever dropped that need no escaping: markers, line breaks and the
lines of a fence. So every angle bracket that is printed belongs to a tag of the
converter's own.
-/

namespace AccessBroker.MarkdownRender
open Py Html Matcher
set_option autoImplicit false

/-- Nothing is added or moved, and no special character is lost. -/
structure Kept (kept text : Text) : Prop where
  sublist : kept.Sublist text
  special : kept.filter isSpecial = text.filter isSpecial

theorem Kept.refl (text : Text) : Kept text text := ⟨List.Sublist.refl text, rfl⟩

theorem Kept.append {kept kept' text text' : Text} (h : Kept kept text) (h' : Kept kept' text') :
    Kept (kept ++ kept') (text ++ text') := by
  refine ⟨h.sublist.append h'.sublist, ?_⟩
  rw [List.filter_append, List.filter_append, h.special, h'.special]

theorem Kept.trans {kept between text : Text} (h : Kept kept between) (h' : Kept between text) :
    Kept kept text :=
  ⟨h.sublist.trans h'.sublist, h.special.trans h'.special⟩

theorem Kept.dropped {text : Text} (h : ∀ c ∈ text, isSpecial c = false) : Kept [] text := by
  refine ⟨List.nil_sublist text, (List.filter_eq_nil_iff.mpr fun c hc => ?_).symm⟩
  rw [h c hc]
  decide

theorem Kept.after {dropped kept text : Text} (hDropped : ∀ c ∈ dropped, isSpecial c = false)
    (h : Kept kept text) : Kept kept (dropped ++ text) := (Kept.dropped hDropped).append h

/-! ## Inline text -/

def markChars (ms : List Mark) : Text :=
  ms.filterMap fun
    | .char c => some c
    | _ => none

theorem markChars_append (ms more : List Mark) :
    markChars (ms ++ more) = markChars ms ++ markChars more := List.filterMap_append

theorem markChars_map (text : Text) : markChars (text.map .char) = text := by
  rw [markChars, List.filterMap_map]
  exact List.filterMap_some

theorem markChars_marks (text : Text) : Kept (markChars (marks text)) text := by
  have hTick : ∀ c ∈ ['`'], isSpecial c = false := by simp [isSpecial]
  refine codeRe.pieces_induction
    (P := fun text parts => Kept (markChars (parts.flatMap marksOf)) text) (Kept.refl []) ?_ ?_ text
  · intro c rest group after hRun ih
    have hText : c :: rest = ['`'] ++ (group ++ (['`'] ++ after)) := codeRe_eq_some hRun
    have hChars : markChars (marksOf (.found group)) = group := by
      have hEnter : markChars [Mark.enter] = [] := rfl
      have hLeave : markChars [Mark.leave] = [] := rfl
      rw [marksOf, ← List.singleton_append, markChars_append, markChars_append, markChars_map, hEnter,
        hLeave, List.append_nil, List.nil_append]
    rw [hText, List.flatMap_cons, markChars_append, hChars]
    exact ((Kept.refl group).append (ih.after hTick)).after hTick
  · intro c rest _ ih
    exact (Kept.refl [c]).append ih

theorem chars_token (m : Mark) : Kept (chars [m.token]) (markChars [m]) := by
  cases m with
  | enter | leave => exact Kept.refl []
  | char c =>
    rw [Mark.token_char]
    split
    · rename_i hNewline
      refine Kept.dropped fun d hd => ?_
      rw [List.mem_singleton.mp hd, beq_iff_eq.mp hNewline]
      rfl
    · exact Kept.refl [c]

theorem chars_tokens (ms : List Mark) : Kept (chars (ms.map Mark.token)) (markChars ms) := by
  induction ms with
  | nil => exact Kept.refl []
  | cons m ms ih =>
    have hTokens : chars ((m :: ms).map Mark.token) =
        chars [m.token] ++ chars (ms.map Mark.token) := chars_append [m.token] _
    have hMarks : markChars (m :: ms) = markChars [m] ++ markChars ms := markChars_append [m] ms
    rw [hTokens, hMarks]
    exact (chars_token m).append ih

theorem markChars_stars {ms : List Mark} (h : ∀ m ∈ ms, m.isStar = true) :
    ∀ c ∈ markChars ms, isSpecial c = false := by
  intro c hc
  obtain ⟨m, hm, hChar⟩ := List.mem_filterMap.mp hc
  have hStar := h m hm
  cases m with
  | enter | leave => cases hStar
  | char d =>
    cases hChar
    rw [beq_iff_eq.mp hStar]
    rfl

theorem chars_inlineTokens (text : Text) : Kept (chars (inlineTokens text)) text := by
  refine Kept.trans ?_ (markChars_marks text)
  refine (boldRe Mark.isStar).pieces_induction
    (P := fun ms parts => Kept (chars (parts.flatMap tokensOf)) (markChars ms)) (Kept.refl []) ?_ ?_ _
  · intro m rest run after hRun ih
    obtain ⟨left, right, hText, hLeft, hRight⟩ := boldRe_eq_some hRun
    have hChars : chars (tokensOf (.found run)) = chars (run.map Mark.token) := by
      have hOpen : chars [.tag (.opening strong)] = [] := rfl
      have hClose : chars [.tag (.closing strong)] = [] := rfl
      rw [tokensOf, ← List.singleton_append, chars_append, chars_append, hOpen, hClose,
        List.append_nil, List.nil_append]
    rw [hText, List.flatMap_cons, chars_append, hChars, markChars_append, markChars_append,
      markChars_append]
    exact ((chars_tokens run).append (ih.after (markChars_stars hRight))).after
      (markChars_stars hLeft)
  · intro m rest _ ih
    have hMarks : markChars (m :: rest) = markChars [m] ++ markChars rest := markChars_append [m] rest
    rw [List.flatMap_cons, chars_append, hMarks]
    exact (chars_token m).append ih

/-! ## Fences -/

section Conversion

variable (nonAscii : Char → Bool)

def fenceBody (part : Text) : Text := dropClosing (dropOpening nonAscii part)

def fenceTokens (part : Text) : List Token :=
  .tag (.opening pre) :: .tag (.opening code) ::
    ((fenceBody nonAscii part).map .char ++ [.tag (.closing code), .tag (.closing pre)])

theorem fenceToHtml_eq (part : Text) :
    fenceToHtml nonAscii part = render (fenceTokens nonAscii part) := by
  have hOpen : Token.text (.tag (.opening pre)) ++ Token.text (.tag (.opening code)) =
      "<pre><code>".toList := by
    simp [Token.text, Tag.text, Tag.inner, pre, code]
  have hClose : render [.tag (.closing code), .tag (.closing pre)] = "</code></pre>".toList := by
    simp [render, Token.text, Tag.text, Tag.inner, pre, code]
  rw [fenceTokens, render_cons, render_cons, render_append, hClose, ← escape_eq_render,
    ← List.append_assoc, ← List.append_assoc, hOpen]
  rfl

variable {nonAscii}

theorem ticks_plain {marks : Text} (h : ∀ c ∈ marks, isTick c = true) :
    ∀ c ∈ marks, isSpecial c = false := by
  intro c hc
  rw [beq_iff_eq.mp (h c hc)]
  rfl

theorem isWord_plain {c : Char} (h : isWord nonAscii c = true) : isSpecial c = false := by
  cases hSpecial : isSpecial c with
  | false => rfl
  | true =>
    simp only [isSpecial, Bool.or_eq_true, beq_iff_eq] at hSpecial
    rcases hSpecial with (rfl | rfl) | rfl <;> exact absurd h (by simp [isWord])

theorem isSpace_plain {c : Char} (h : isSpace c = true) : isSpecial c = false := by
  cases hSpecial : isSpecial c with
  | false => rfl
  | true =>
    simp only [isSpecial, Bool.or_eq_true, beq_iff_eq] at hSpecial
    rcases hSpecial with (rfl | rfl) | rfl <;> exact absurd h (by decide)

theorem dropOpening_kept (body : Text) : Kept (dropOpening nonAscii body) body := by
  rw [dropOpening]
  split
  · rename_i rest hMarks
    obtain ⟨marks, rfl, _, hTicks⟩ := dropMarks_length hMarks
    split
    · rename_i c after hDrop
      split
      · rename_i hNewline
        have hRest : rest = rest.takeWhile (isWord nonAscii) ++ ([c] ++ after) := by
          rw [List.singleton_append, ← hDrop, List.takeWhile_append_dropWhile]
        have hc : ∀ d ∈ [c], isSpecial d = false := by
          rw [List.forall_mem_singleton, beq_iff_eq.mp hNewline]
          rfl
        rw [hRest]
        refine Kept.after (ticks_plain hTicks) (Kept.after (fun d hd => ?_) ((Kept.refl after).after hc))
        exact isWord_plain (List.mem_takeWhile_imp hd)
      · exact Kept.refl _
    · exact Kept.refl _
  · exact Kept.refl _

theorem closingRe_eq_some {text group after : Text} (h : closingRe.run text = some (group, after)) :
    ∃ marks blank, text = '\n' :: (marks ++ blank) ∧ after = [] ∧
      (∀ c ∈ marks, isTick c = true) ∧ ∀ c ∈ blank, isSpace c = true := by
  cases text with
  | nil => cases h
  | cons c rest =>
    unfold closingRe at h
    dsimp only at h
    split at h
    · rename_i blank hMarks
      split at h
      · rename_i hEnd
        cases h
        rw [Bool.and_eq_true] at hEnd
        obtain ⟨marks, rfl, _, hTicks⟩ := dropMarks_length hMarks
        exact ⟨marks, blank, by rw [beq_iff_eq.mp hEnd.1], rfl, hTicks,
          List.all_eq_true.mp hEnd.2⟩
      · cases h
    · cases h

theorem dropClosing_kept (body : Text) : Kept (dropClosing body) body := by
  rw [dropClosing, substitute]
  refine closingRe.pieces_induction (P := fun text parts => Kept (parts.flatMap _) text)
    (Kept.refl []) ?_ ?_ body
  · intro c rest group after hRun _
    obtain ⟨marks, blank, hText, rfl, hTicks, hBlank⟩ := closingRe_eq_some hRun
    have hLine : Kept [] (marks ++ blank) :=
      (Kept.dropped fun d hd => isSpace_plain (hBlank d hd)).after (ticks_plain hTicks)
    rw [hText]
    exact (Kept.refl ['\n']).append hLine
  · intro c rest _ ih
    exact (Kept.refl [c]).append ih

theorem chars_fenceTokens (part : Text) : Kept (chars (fenceTokens nonAscii part)) part := by
  have hChars : chars (fenceTokens nonAscii part) = fenceBody nonAscii part := by
    have hBody (body : Text) : chars (body.map .char) = body := by
      rw [chars, List.filterMap_map]
      exact List.filterMap_some
    have hOpen (tokens : List Token) :
        chars (.tag (.opening pre) :: .tag (.opening code) :: tokens) = chars tokens := rfl
    have hClose : chars [.tag (.closing code), .tag (.closing pre)] = [] := rfl
    rw [fenceTokens, hOpen, chars_append, hClose, hBody, List.append_nil]
  rw [hChars]
  exact (dropClosing_kept _).trans (dropOpening_kept part)

/-! ## The whole text -/

variable (nonAscii)

def partTokens (fenced : Bool) (part : Text) : List Token :=
  if fenced then fenceTokens nonAscii part else inlineTokens part

def partsTokens : Bool → List Text → List Token
  | _, [] => []
  | fenced, part :: parts => partTokens nonAscii fenced part ++ partsTokens (!fenced) parts

def htmlTokens (text : Text) : List Token := partsTokens nonAscii false (fenceRe.split text)

theorem textToHtml_eq (text : Text) :
    textToHtml nonAscii text = render (htmlTokens nonAscii text) := by
  rw [textToHtml, htmlTokens]
  generalize fenceRe.split text = parts
  generalize false = fenced
  induction parts generalizing fenced with
  | nil => rfl
  | cons part parts ih =>
    rw [partsToHtml, partsTokens, render_append, ih, partTokens]
    cases fenced with
    | true => exact congrArg (· ++ _) (fenceToHtml_eq nonAscii part)
    | false => exact congrArg (· ++ _) (inlineToHtml_eq part)

theorem fenceRe_eq_append {text group after : Text} (h : fenceRe.run text = some (group, after)) :
    text = group ++ after := by
  have hTicks {marks : Text} (hLength : marks.length = 3) (h : ∀ c ∈ marks, isTick c = true) :
      marks = ticks :=
    (List.eq_replicate_iff (a := '`')).mpr ⟨hLength, fun c hc => beq_iff_eq.mp (h c hc)⟩
  unfold fenceRe at h
  dsimp only at h
  split at h
  · rename_i rest hMarks
    obtain ⟨marks, rfl, hLength, hAll⟩ := dropMarks_length hMarks
    split at h
    · rename_i c body hDrop
      obtain ⟨⟨inside, after'⟩, hInside, hGroup⟩ := Option.map_eq_some_iff.mp h
      cases hGroup
      obtain ⟨marks', rfl, hLength', hAll'⟩ := upTo_eq_append hInside
      have hNewline : c = '\n' := by
        have hHead := List.head?_dropWhile_not (fun c => !isNewline c) rest
        rw [hDrop] at hHead
        simpa [isNewline] using hHead
      have hRest : rest = rest.takeWhile (fun c => !isNewline c) ++
          '\n' :: (inside ++ (ticks ++ after')) := by
        rw [← hNewline, ← hTicks hLength' hAll', ← hDrop, List.takeWhile_append_dropWhile]
      rw [hTicks hLength hAll]
      nth_rewrite 1 [hRest]
      simp
    · cases h
  · cases h

theorem chars_htmlTokens (text : Text) : Kept (chars (htmlTokens nonAscii text)) text := by
  have hParts (fenced : Bool) (parts : List Text) :
      Kept (chars (partsTokens nonAscii fenced parts)) parts.flatten := by
    induction parts generalizing fenced with
    | nil => exact Kept.refl []
    | cons part parts ih =>
      rw [partsTokens, chars_append, List.flatten_cons, partTokens]
      refine Kept.append ?_ (ih _)
      cases fenced with
      | true => exact chars_fenceTokens part
      | false => exact chars_inlineTokens part
  have hText := hParts false (fenceRe.split text)
  rw [split_flatten fenceRe fenceRe_eq_append] at hText
  exact hText

/-! ## Tags -/

variable {nonAscii}

def OwnTags (tokens : List Token) : Prop := ∀ t ∈ tags tokens, t ∈ ownTags

theorem OwnTags.append {tokens more : List Token} (h : OwnTags tokens) (h' : OwnTags more) :
    OwnTags (tokens ++ more) := by
  intro t ht
  rw [tags_append] at ht
  exact (List.mem_append.mp ht).elim (h t) (h' t)

theorem OwnTags.tag {t : Tag} (h : t ∈ ownTags) : OwnTags [.tag t] :=
  fun _ ht => List.mem_singleton.mp ht ▸ h

theorem OwnTags.chars (text : Text) : OwnTags (text.map .char) := by
  intro t ht
  rw [tags, List.filterMap_map] at ht
  obtain ⟨c, _, hc⟩ := List.mem_filterMap.mp ht
  cases hc

theorem OwnTags.flatMap {α : Type} {f : α → List Token} (h : ∀ a, OwnTags (f a)) (as : List α) :
    OwnTags (as.flatMap f) := by
  induction as with
  | nil => exact fun _ ht => by cases ht
  | cons a as ih => exact (h a).append ih

theorem mark_ownTags (m : Mark) : OwnTags [m.token] := by
  cases m with
  | enter | leave => exact OwnTags.tag (by decide)
  | char c =>
    rw [Mark.token_char]
    split
    · exact OwnTags.tag (by decide)
    · exact OwnTags.chars [c]

theorem inlineTokens_ownTags (text : Text) : OwnTags (inlineTokens text) := by
  refine OwnTags.flatMap (fun piece => ?_) _
  cases piece with
  | plain m => exact mark_ownTags m
  | found run =>
    have hRun : OwnTags (run.map Mark.token) := by
      rw [← List.flatMap_singleton' (run.map _), List.flatMap_map]
      exact OwnTags.flatMap mark_ownTags run
    have hOpen : OwnTags [.tag (.opening strong)] := OwnTags.tag (by decide)
    exact hOpen.append (hRun.append (OwnTags.tag (by decide)))

theorem fenceTokens_ownTags (part : Text) : OwnTags (fenceTokens nonAscii part) := by
  have hOpen : OwnTags [.tag (.opening pre)] := OwnTags.tag (by decide)
  have hOpen' : OwnTags [.tag (.opening code)] := OwnTags.tag (by decide)
  have hClose : OwnTags [.tag (.closing code)] := OwnTags.tag (by decide)
  have hClose' : OwnTags [.tag (.closing pre)] := OwnTags.tag (by decide)
  exact hOpen.append (hOpen'.append ((OwnTags.chars _).append (hClose.append hClose')))

theorem htmlTokens_ownTags (text : Text) : OwnTags (htmlTokens nonAscii text) := by
  rw [htmlTokens]
  generalize fenceRe.split text = parts
  generalize false = fenced
  induction parts generalizing fenced with
  | nil => exact fun _ ht => by cases ht
  | cons part parts ih =>
    refine OwnTags.append ?_ (ih _)
    cases fenced with
    | true => exact fenceTokens_ownTags part
    | false => exact inlineTokens_ownTags part

/-- A converted text is the converter's own tags and escaped characters of the text, none of
those that need escaping left out. -/
theorem textToHtml_escapes (nonAscii : Char → Bool) (text : Text) :
    ∃ tokens, textToHtml nonAscii text = render tokens ∧ (∀ t ∈ tags tokens, t ∈ ownTags) ∧
      (chars tokens).Sublist text ∧ (chars tokens).filter isSpecial = text.filter isSpecial ∧
      ∀ before c after, isAngle c = true → textToHtml nonAscii text = before ++ c :: after →
        ∃ front t back start rest, tokens = front ++ .tag t :: back ∧ t ∈ ownTags ∧
          t.text = start ++ c :: rest ∧ before = render front ++ start ∧
          after = rest ++ render back := by
  have hKept := chars_htmlTokens nonAscii text
  refine ⟨htmlTokens nonAscii text, textToHtml_eq nonAscii text, htmlTokens_ownTags text,
    hKept.sublist, hKept.special, ?_⟩
  intro before c after hAngle hText
  rw [textToHtml_eq] at hText
  obtain ⟨front, t, back, start, rest, hTokens, hTag, hBefore, hAfter⟩ := render_angle hAngle hText
  have hMem : t ∈ tags (htmlTokens nonAscii text) := by
    rw [hTokens, tags_append]
    exact List.mem_append_right _ List.mem_cons_self
  exact ⟨front, t, back, start, rest, hTokens, htmlTokens_ownTags text t hMem, hTag, hBefore, hAfter⟩

end Conversion

end AccessBroker.MarkdownRender
