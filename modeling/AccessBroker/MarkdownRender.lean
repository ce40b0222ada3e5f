import AccessBroker.Library.Html
import AccessBroker.Library.Matcher

/-! # Markdown to HTML

The converter behind the room's formatted messages: bold, inline code and fences,
everything else escaped.
-/

namespace AccessBroker.MarkdownRender
open Py Html Matcher
set_option autoImplicit false

/-! ## Patterns -/

def isStar (c : Char) : Bool := c == '*'

def isTick (c : Char) : Bool := c == '`'

def isNewline (c : Char) : Bool := c == '\n'

/-- `\*\*(.+?)\*\*`, where a dot stands for anything. -/
def boldRe {α : Type} (star : α → Bool) : Matcher α where
  run
    | a :: b :: c :: rest =>
      if star a && star b then (upTo star 2 rest).map fun (taken, after) => (c :: taken, after)
      else none
    | _ => none
  consumes := by
    intro a text group after h
    match text, h with
    | b :: c :: rest, h =>
      dsimp only at h
      split at h
      · obtain ⟨⟨taken, after'⟩, hTaken, hGroup⟩ := Option.map_eq_some_iff.mp h
        cases hGroup
        exact ((upTo_suffix hTaken).trans (List.suffix_cons c rest)).trans (List.suffix_cons b _)
      · cases h

/-- "`([^`\n]+)`". -/
def codeRe : Matcher Char where
  run
    | a :: rest =>
      if isTick a then
        let inside := rest.takeWhile fun c => !isTick c && !isNewline c
        match rest.dropWhile fun c => !isTick c && !isNewline c with
        | b :: after => if isTick b && !inside.isEmpty then some (inside, after) else none
        | [] => none
      else none
    | [] => none
  consumes := by
    intro a rest group after h
    dsimp only at h
    split at h
    · split at h
      · rename_i b after' hDrop
        split at h
        · cases h
          have hSuffix := List.dropWhile_suffix (l := rest) fun c => !isTick c && !isNewline c
          rw [hDrop] at hSuffix
          exact (List.suffix_cons b _).trans hSuffix
        · cases h
      · cases h
    · cases h

def ticks : Text := ['`', '`', '`']

/-- "(```[^\n]*\n.*?```)". -/
def fenceRe : Matcher Char where
  run text :=
    match dropMarks isTick 3 text with
    | some rest =>
      match rest.dropWhile fun c => !isNewline c with
      | _ :: body =>
        (upTo isTick 3 body).map fun (inside, after) =>
          (ticks ++ (rest.takeWhile fun c => !isNewline c) ++ '\n' :: (inside ++ ticks), after)
      | [] => none
    | none => none
  consumes := by
    intro c text group after h
    dsimp only at h
    split at h
    · rename_i rest hMarks
      split at h
      · rename_i d body hDrop
        obtain ⟨⟨inside, after'⟩, hInside, hGroup⟩ := Option.map_eq_some_iff.mp h
        cases hGroup
        have hRest : rest <:+ text := by
          obtain ⟨marks, hText, hLength, _⟩ := dropMarks_length hMarks
          rcases marks with _ | ⟨e, marks⟩
          · cases hLength
          · exact (List.cons.inj hText).2 ▸ List.suffix_append marks rest
        have hBody := List.dropWhile_suffix (l := rest) fun c => !isNewline c
        rw [hDrop] at hBody
        exact ((upTo_suffix hInside).trans (List.suffix_cons d body)).trans (hBody.trans hRest)
      · cases h
    · cases h

/-- "\n```\s*$". -/
def closingRe : Matcher Char where
  run
    | c :: rest =>
      match dropMarks isTick 3 rest with
      | some after => if isNewline c && isBlank after then some ([], []) else none
      | none => none
    | [] => none
  consumes := by
    intro c rest group after h
    dsimp only at h
    split at h
    · split at h
      · cases h
        exact List.nil_suffix
      · cases h
    · cases h

section Conversion

variable (nonAscii : Char → Bool)

/-- What `\w` matches; `nonAscii` tells it beyond ASCII. -/
def isWord (c : Char) : Bool := c.isAlphanum || c == '_' || (128 ≤ c.toNat && nonAscii c)

/-- `re.sub("^```\w*\n", "", body)`. -/
def dropOpening (body : Text) : Text :=
  match dropMarks isTick 3 body with
  | some rest =>
    match rest.dropWhile (isWord nonAscii) with
    | c :: after => if isNewline c then after else body
    | [] => body
  | none => body

def dropClosing (body : Text) : Text := closingRe.substitute (fun _ => ['\n']) body

def fenceToHtml (part : Text) : Text :=
  "<pre><code>".toList ++ escape (dropClosing (dropOpening nonAscii part)) ++ "</code></pre>".toList

def inlineToHtml (text : Text) : Text :=
  let escaped := escape text
  let escaped := codeRe.substitute
    (fun group => "<code>".toList ++ group ++ "</code>".toList) escaped
  let escaped := (boldRe isStar).substitute
    (fun group => "<strong>".toList ++ group ++ "</strong>".toList) escaped
  replace ['\n'] "<br/>".toList escaped

/-- Every other part is a fence. -/
def partsToHtml : Bool → List Text → Text
  | _, [] => []
  | fenced, part :: parts =>
    (if fenced then fenceToHtml nonAscii part else inlineToHtml part) ++ partsToHtml (!fenced) parts

def textToHtml (text : Text) : Text := partsToHtml nonAscii false (fenceRe.split text)

end Conversion

end AccessBroker.MarkdownRender
