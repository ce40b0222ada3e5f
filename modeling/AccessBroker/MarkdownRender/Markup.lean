import AccessBroker.Library.Redaction
import AccessBroker.MarkdownRender

/-! # The markup of a converted text

The converter's substitutions work on escaped text and tags as on plain characters.
What they print is read here as the tags and the characters it was made of.
-/

namespace AccessBroker.MarkdownRender
open Py Html Matcher
set_option autoImplicit false

def strong : Name := ⟨"strong".toList, by decide, by decide⟩

def code : Name := ⟨"code".toList, by decide, by decide⟩

def pre : Name := ⟨"pre".toList, by decide, by decide⟩

def br : Name := ⟨"br".toList, by decide, by decide⟩

def ownTags : List Tag :=
  [.opening strong, .closing strong, .opening code, .closing code, .opening pre, .closing pre,
    .void br]

/-! ## Code spans -/

/-- A text whose code spans are found: its characters, and where a span begins and ends. -/
inductive Mark where
  | char (c : Char)
  | enter
  | leave
  deriving DecidableEq

def Mark.isStar : Mark → Bool
  | char c => MarkdownRender.isStar c
  | _ => false

/-- What the substitution of the code spans prints. -/
def Mark.text : Mark → Text
  | char c => escapeChar c
  | enter => "<code>".toList
  | leave => "</code>".toList

def Mark.token : Mark → Token
  | char c => if isNewline c then .tag (.void br) else .char c
  | enter => .tag (.opening code)
  | leave => .tag (.closing code)

theorem Mark.text_char (c : Char) : (char c).text = escapeChar c := rfl

theorem Mark.token_char (c : Char) :
    (char c).token = if isNewline c then .tag (.void br) else .char c := rfl

def marksOf : Piece Char → List Mark
  | .plain c => [.char c]
  | .found group => .enter :: (group.map .char ++ [.leave])

def marks (text : Text) : List Mark := (codeRe.pieces text).flatMap marksOf

def tokensOf : Piece Mark → List Token
  | .plain m => [m.token]
  | .found run => .tag (.opening strong) :: (run.map Mark.token ++ [.tag (.closing strong)])

def inlineTokens (text : Text) : List Token :=
  ((boldRe Mark.isStar).pieces (marks text)).flatMap tokensOf

/-! ## Escaped text -/

/-- A character that has no part in entities is a delimiter in the escaped text as before. -/
theorem escape_carries (mark : Char → Bool) (h : (entityChars.all fun c => !mark c) = true) :
    Carries escapeChar mark mark := by
  have hEntity (c : Char) (hc : c ∈ entityChars) : mark c = false := by
    simpa using List.all_eq_true.mp h c hc
  constructor
  · intro c hc
    refine ⟨c, escapeChar_of_plain ?_, hc⟩
    by_contra hSpecial
    rw [hEntity c (mem_entityChars (Bool.not_eq_false _ ▸ hSpecial)).1] at hc
    cases hc
  · intro c hc
    refine ⟨escapeChar_ne_nil c, fun d hd => ?_⟩
    cases hSpecial : isSpecial c with
    | true => exact hEntity d ((mem_entityChars hSpecial).2 d hd)
    | false =>
      rw [escapeChar_of_plain hSpecial, List.mem_singleton] at hd
      rw [hd, hc]

/-- Neither a backtick nor a line break. -/
def isInside (c : Char) : Bool := !isTick c && !isNewline c

theorem codeRe_cons (c : Char) (rest : Text) : codeRe.run (c :: rest) =
    if isTick c then
      match rest.dropWhile isInside with
      | b :: after =>
        if isTick b && !(rest.takeWhile isInside).isEmpty then some (rest.takeWhile isInside, after)
        else none
      | [] => none
    else none := rfl

theorem codeRe_eq_some {text group after : Text} (h : codeRe.run text = some (group, after)) :
    text = '`' :: (group ++ '`' :: after) := by
  cases text with
  | nil => cases h
  | cons c rest =>
    rw [codeRe_cons] at h
    split at h
    · rename_i hTick
      split at h
      · rename_i b after' hDrop
        split at h
        · rename_i hEnd
          cases h
          rw [Bool.and_eq_true] at hEnd
          rw [beq_iff_eq.mp hTick, ← beq_iff_eq.mp hEnd.1, ← hDrop, List.takeWhile_append_dropWhile]
        · cases h
      · cases h
    · cases h

theorem span_flatMap {α β : Type} {f : α → List β} {p : α → Bool} {q : β → Bool}
    (hf : ∀ a, f a ≠ [] ∧ ∀ b ∈ f a, q b = p a) (text : List α) :
    (text.flatMap f).takeWhile q = (text.takeWhile p).flatMap f ∧
      (text.flatMap f).dropWhile q = (text.dropWhile p).flatMap f := by
  induction text with
  | nil => exact ⟨rfl, rfl⟩
  | cons a rest ih =>
    obtain ⟨hNonempty, hAll⟩ := hf a
    rw [List.flatMap_cons]
    cases hp : p a with
    | true =>
      have hTake : ∀ b ∈ f a, q b = true := fun b hb => (hAll b hb).trans hp
      rw [List.takeWhile_append_of_pos hTake, List.dropWhile_append_of_pos hTake,
        List.takeWhile_cons_of_pos hp, List.dropWhile_cons_of_pos hp, ih.1, ih.2]
      exact ⟨rfl, rfl⟩
    | false =>
      obtain ⟨b, bs, hb⟩ := List.exists_cons_of_ne_nil hNonempty
      have hq : ¬ q b = true := by rw [hAll b (hb ▸ List.mem_cons_self), hp]; decide
      rw [hb, List.cons_append, List.takeWhile_cons_of_neg hq, List.dropWhile_cons_of_neg hq,
        List.takeWhile_cons_of_neg (by rw [hp]; decide),
        List.dropWhile_cons_of_neg (by rw [hp]; decide), List.flatMap_cons, hb]
      exact ⟨rfl, rfl⟩

/-- Code spans are found in escaped text where they are in the text. -/
theorem codeRe_lifts : Lifts escapeChar codeRe codeRe := by
  have hTick := escape_carries isTick (by decide)
  have hInside := escape_carries (fun c => !isInside c) (by decide)
  have hSpan : ∀ c, escapeChar c ≠ [] ∧ ∀ d ∈ escapeChar c, isInside d = isInside c := by
    intro c
    cases hc : isInside c with
    | true =>
      obtain ⟨hNonempty, hAll⟩ := hInside.other (a := c) (by rw [hc]; rfl)
      exact ⟨hNonempty, fun d hd => by simpa using hAll d hd⟩
    | false =>
      obtain ⟨d, hd, hOut⟩ := hInside.marked (a := c) (by rw [hc]; rfl)
      refine ⟨escapeChar_ne_nil c, fun e he => ?_⟩
      rw [hd, List.mem_singleton] at he
      simpa [he] using hOut
  refine ⟨escapeChar_ne_nil, fun text => ?_, fun c d hd rest => ?_⟩
  · cases text with
    | nil => rfl
    | cons c rest =>
      rw [List.flatMap_cons]
      cases hc : isTick c with
      | true =>
        obtain ⟨d, hd, hd'⟩ := hTick.marked hc
        obtain ⟨hTake, hDrop⟩ := span_flatMap hSpan rest
        rw [hd, List.singleton_append, codeRe_cons, codeRe_cons, if_pos hd', if_pos hc, hTake, hDrop]
        cases hAfter : rest.dropWhile isInside with
        | nil => rfl
        | cons b after =>
          have hEmpty : ((rest.takeWhile isInside).flatMap escapeChar).isEmpty =
              (rest.takeWhile isInside).isEmpty := by
            cases rest.takeWhile isInside with
            | nil => rfl
            | cons e inside => simp [escapeChar_ne_nil]
          rw [List.flatMap_cons]
          cases hb : isTick b with
          | true =>
            obtain ⟨e, he, he'⟩ := hTick.marked hb
            rw [he, List.singleton_append]
            dsimp only
            rw [he', hb, hEmpty]
            split <;> rfl
          | false =>
            obtain ⟨hNonempty, hOther⟩ := hTick.other hb
            obtain ⟨e, es, he⟩ := List.exists_cons_of_ne_nil hNonempty
            have he' : isTick e = false := hOther e (he ▸ List.mem_cons_self)
            rw [he, List.cons_append]
            dsimp only
            rw [he', hb]
            rfl
      | false =>
        obtain ⟨hNonempty, hOther⟩ := hTick.other hc
        obtain ⟨d, ds, hd⟩ := List.exists_cons_of_ne_nil hNonempty
        have hd' : isTick d = false := hOther d (hd ▸ List.mem_cons_self)
        rw [hd, List.cons_append, codeRe_cons, codeRe_cons, hd', hc]
        rfl
  · have hd' : isTick d = false := by
      cases hc : isTick c with
      | true =>
        obtain ⟨e, he, _⟩ := hTick.marked hc
        rw [he] at hd
        cases hd
      | false => exact (hTick.other hc).2 d (List.mem_of_mem_tail hd)
    rw [codeRe_cons, hd']
    rfl

/-! ## Bold runs -/

section Bold

variable {α β : Type} {star : α → Bool} {star' : β → Bool}

theorem boldRe_plain {a : α} (h : star a = false) (rest : List α) :
    (boldRe star).run (a :: rest) = none := by
  rcases rest with _ | ⟨b, _ | ⟨c, rest⟩⟩
  · rfl
  · rfl
  · change (if star a && star b then _ else none) = none
    rw [h]
    rfl

theorem boldRe_single (a : α) {b : α} (h : star b = false) (rest : List α) :
    (boldRe star).run (a :: b :: rest) = none := by
  rcases rest with _ | ⟨c, rest⟩
  · rfl
  · change (if star a && star b then _ else none) = none
    rw [h, Bool.and_false]
    rfl

theorem boldRe_double {a b : α} (ha : star a = true) (hb : star b = true) (c : α) (rest : List α) :
    (boldRe star).run (a :: b :: c :: rest) =
      (upTo star 2 rest).map fun (taken, after) => (c :: taken, after) := by
  change (if star a && star b then _ else none) = _
  rw [ha, hb]
  rfl

/-- A bold run with its delimiters, which hold more than nothing. -/
theorem boldRe_eq_some {text run after : List α} (h : (boldRe star).run text = some (run, after)) :
    ∃ left right, text = left ++ (run ++ (right ++ after)) ∧ (∀ a ∈ left, star a = true) ∧
      ∀ a ∈ right, star a = true := by
  match text, h with
  | a :: b :: c :: rest, h =>
    cases ha : star a with
    | false =>
      rw [boldRe_plain ha] at h
      cases h
    | true =>
      cases hb : star b with
      | false =>
        rw [boldRe_single a hb] at h
        cases h
      | true =>
        rw [boldRe_double ha hb] at h
        obtain ⟨⟨taken, after'⟩, hTaken, hRun⟩ := Option.map_eq_some_iff.mp h
        cases hRun
        obtain ⟨right, rfl, _, hRight⟩ := upTo_eq_append hTaken
        exact ⟨[a, b], right, rfl, by simp [ha, hb], hRight⟩

theorem boldRe_lifts {f : α → List β} (hf : Carries f star star') :
    Lifts f (boldRe star) (boldRe star') := by
  have hCons (a : α) : ∃ b bs, f a = b :: bs ∧ star' b = star a ∧ ∀ d ∈ bs, star' d = false := by
    cases ha : star a with
    | true =>
      obtain ⟨b, hb, hStar⟩ := hf.marked ha
      exact ⟨b, [], hb, hStar, fun _ hd => by cases hd⟩
    | false =>
      obtain ⟨hNonempty, hOther⟩ := hf.other ha
      obtain ⟨b, bs, hb⟩ := List.exists_cons_of_ne_nil hNonempty
      rw [hb] at hOther
      exact ⟨b, bs, hb, hOther b List.mem_cons_self,
        fun d hd => hOther d (List.mem_cons_of_mem b hd)⟩
  refine ⟨fun a => ?_, fun text => ?_, fun a b hb rest => ?_⟩
  · obtain ⟨b, bs, hb, _⟩ := hCons a
    rw [hb]
    nofun
  · rcases text with _ | ⟨a, text⟩
    · rfl
    obtain ⟨a', as, hA, hStarA, hAs⟩ := hCons a
    cases ha : star a with
    | false =>
      rw [boldRe_plain ha, List.flatMap_cons, hA, List.cons_append, boldRe_plain (hStarA.trans ha)]
      rfl
    | true =>
      obtain ⟨a', hA, hStarA⟩ := hf.marked ha
      rcases text with _ | ⟨b, text⟩
      · rw [List.flatMap_cons, hA]
        rfl
      cases hb : star b with
      | false =>
        obtain ⟨b', bs, hB, hStarB, _⟩ := hCons b
        rw [boldRe_single a hb, List.flatMap_cons, List.flatMap_cons, hA, hB, List.singleton_append,
          List.cons_append, boldRe_single a' (hStarB.trans hb)]
        rfl
      | true =>
        obtain ⟨b', hB, hStarB⟩ := hf.marked hb
        rcases text with _ | ⟨c, text⟩
        · rw [List.flatMap_cons, List.flatMap_cons, hA, hB]
          rfl
        obtain ⟨c', cs, hC, _, hCs⟩ := hCons c
        rw [boldRe_double ha hb, List.flatMap_cons, List.flatMap_cons, List.flatMap_cons, hA, hB, hC,
          List.singleton_append, List.singleton_append, List.cons_append, boldRe_double hStarA hStarB,
          upTo_append hCs, upTo_flatMap hf, Option.map_map, Option.map_map, Option.map_map]
        congr 1
        funext ⟨taken, after⟩
        simp [hC]
  · obtain ⟨c, cs, hC, _, hCs⟩ := hCons a
    rw [hC, List.tail_cons] at hb
    exact boldRe_plain (hCs b hb) rest

end Bold

theorem mark_carries : Carries Mark.text Mark.isStar isStar := by
  have hEscape := escape_carries isStar (by decide)
  have hTag (name : Text) (h : (name.all fun c => !isStar c) = true) :
      ∀ c ∈ name, isStar c = false := fun c hc => by simpa using List.all_eq_true.mp h c hc
  constructor
  · intro m hm
    cases m with
    | char c => exact hEscape.marked hm
    | enter | leave => cases hm
  · intro m hm
    cases m with
    | char c => exact hEscape.other hm
    | enter => exact ⟨by nofun, hTag _ (by decide)⟩
    | leave => exact ⟨by nofun, hTag _ (by decide)⟩

/-! ## Line breaks -/

theorem replace_newline (text mark : Text) :
    replace ['\n'] mark text = text.flatMap fun c => if isNewline c then mark else [c] := by
  rw [replace]
  induction text with
  | nil => rfl
  | cons c rest ih =>
    rw [replaceFrom, List.flatMap_cons, ← ih]
    cases hc : isNewline c with
    | true =>
      rw [beq_iff_eq.mp hc]
      rfl
    | false =>
      have hNot : ('\n' == c) = false := by rw [BEq.comm]; exact hc
      have hPrefix : List.isPrefixOf ['\n'] (c :: rest) = false := by
        rw [List.isPrefixOf, hNot, Bool.false_and]
      rw [hPrefix]
      rfl

theorem mark_newline (m : Mark) :
    (m.text.flatMap fun c => if isNewline c then "<br/>".toList else [c]) = m.token.text := by
  have hPlain (text : Text) (h : ∀ c ∈ text, isNewline c = false) :
      (text.flatMap fun c => if isNewline c then "<br/>".toList else [c]) = text := by
    induction text with
    | nil => rfl
    | cons c rest ih =>
      obtain ⟨hc, hRest⟩ := List.forall_mem_cons.mp h
      rw [List.flatMap_cons, ih hRest, hc]
      rfl
  cases m with
  | enter | leave => rfl
  | char c =>
    have hEscape := escape_carries isNewline (by decide)
    rw [Mark.text_char, Mark.token_char]
    cases hc : isNewline c with
    | true =>
      rw [beq_iff_eq.mp hc]
      rfl
    | false =>
      rw [hPlain _ (hEscape.other hc).2]
      rfl

/-! ## The tokens of a conversion -/

theorem marks_text (text : Text) :
    codeRe.substitute (fun group => "<code>".toList ++ group ++ "</code>".toList) (escape text) =
      (marks text).flatMap Mark.text := by
  rw [escape, substitute_flatMap codeRe_lifts, marks, List.flatMap_assoc]
  congr 1
  funext piece
  cases piece with
  | plain c => exact (List.append_nil _).symm
  | found group =>
    dsimp only
    rw [marksOf, List.flatMap_cons, List.flatMap_append, List.flatMap_map, List.append_assoc]
    rfl

theorem inlineToHtml_eq (text : Text) : inlineToHtml text = render (inlineTokens text) := by
  have hToken (ms : List Mark) :
      (ms.flatMap Mark.text).flatMap (fun c => if isNewline c then "<br/>".toList else [c]) =
        render (ms.map Mark.token) := by
    rw [List.flatMap_assoc, render, List.flatMap_map]
    exact congrArg (ms.flatMap ·) (funext mark_newline)
  rw [inlineToHtml, marks_text, substitute_flatMap (boldRe_lifts mark_carries), replace_newline, inlineTokens,
    List.flatMap_assoc, render, List.flatMap_assoc]
  congr 1
  funext piece
  cases piece with
  | plain m => exact (mark_newline m).trans (List.append_nil _).symm
  | found run =>
    dsimp only
    rw [List.flatMap_append, List.flatMap_append, hToken, tokensOf, List.flatMap_cons,
      List.flatMap_append, List.append_assoc]
    rfl

end AccessBroker.MarkdownRender
