import AccessBroker.MarkdownRender.Escaping

/-! # How the tags of a converted text are nested

Code spans are tagged before bold runs are looked for, and a bold run takes whatever stands
between its markers. The tags are nested exactly where no run cuts a span in two.
-/

namespace AccessBroker.MarkdownRender
open Py Html Matcher
set_option autoImplicit false

/-- The run begins with `depth` of its code spans entered, and leaves what it enters and nothing
else. -/
def wholeSpans : Nat → List Mark → Bool
  | depth, [] => depth == 0
  | depth, .char _ :: ms => wholeSpans depth ms
  | depth, .enter :: ms => wholeSpans (depth + 1) ms
  | 0, .leave :: _ => false
  | depth + 1, .leave :: ms => wholeSpans depth ms

/-- What stands between two bold markers. -/
def boldRuns (text : Text) : List (List Mark) :=
  ((boldRe Mark.isStar).pieces (marks text)).filterMap fun
    | .plain _ => none
    | .found run => some run

/-- The parts of a text that are no fences. -/
def unfenced : Bool → List Text → List Text
  | _, [] => []
  | true, _ :: parts => unfenced false parts
  | false, part :: parts => part :: unfenced true parts

/-! ## Code spans -/

theorem closes_char (stack : List Name) (c : Char) (more : List Tag) :
    closes stack (tags [(Mark.char c).token] ++ more) = closes stack more := by
  rw [Mark.token_char]
  split <;> rfl

theorem tags_cons (t : Token) (tokens : List Token) : tags (t :: tokens) = tags [t] ++ tags tokens :=
  tags_append [t] tokens

/-- A bold run is closed where it was opened, if it cuts no span, and otherwise not at all. -/
theorem closes_run (stack : List Name) (depth : Nat) (run : List Mark) (more : List Tag) :
    closes (List.replicate depth code ++ strong :: stack)
        (tags (run.map Mark.token) ++ .closing strong :: more) =
      if wholeSpans depth run then closes stack more else none := by
  induction run generalizing depth with
  | nil =>
    cases depth with
    | zero => rfl
    | succ depth => rfl
  | cons m run ih =>
    rw [List.map_cons, tags_cons, List.append_assoc]
    cases m with
    | char c =>
      rw [closes_char]
      exact ih depth
    | enter => exact ih (depth + 1)
    | leave =>
      cases depth with
      | zero => rfl
      | succ depth => exact ih depth

theorem wholeSpans_closes (stack : List Name) (depth : Nat) (run : List Mark)
    (h : wholeSpans depth run = true) :
    closes (List.replicate depth code ++ stack) (tags (run.map Mark.token)) = some stack := by
  induction run generalizing depth with
  | nil =>
    rw [wholeSpans, beq_iff_eq] at h
    rw [h]
    rfl
  | cons m run ih =>
    rw [List.map_cons, tags_cons]
    cases m with
    | char c =>
      rw [closes_char]
      exact ih depth h
    | enter => exact ih (depth + 1) h
    | leave =>
      cases depth with
      | zero => cases h
      | succ depth => exact ih depth h

/-- Without the bold runs, every span is closed. -/
theorem closes_marks (stack : List Name) (text : Text) :
    closes stack (tags ((marks text).map Mark.token)) = some stack := by
  have hPiece (piece : Piece Char) : wholeSpans 0 (marksOf piece) = true := by
    cases piece with
    | plain c => rfl
    | found group =>
      change wholeSpans 1 (group.map .char ++ [.leave]) = true
      induction group with
      | nil => rfl
      | cons c group ih => exact ih
  rw [marks]
  induction codeRe.pieces text with
  | nil => rfl
  | cons piece pieces ih =>
    rw [List.flatMap_cons, List.map_append, tags_append, closes_append]
    have hClosed := wholeSpans_closes stack 0 (marksOf piece) (hPiece piece)
    rw [List.replicate_zero, List.nil_append] at hClosed
    rw [hClosed]
    exact ih

/-! ## Bold runs -/

theorem closes_stars {ms : List Mark} (h : ∀ m ∈ ms, m.isStar = true) (stack : List Name)
    (more : List Mark) :
    closes stack (tags ((ms ++ more).map Mark.token)) = closes stack (tags (more.map Mark.token)) := by
  induction ms with
  | nil => rfl
  | cons m ms ih =>
    obtain ⟨hStar, hStars⟩ := List.forall_mem_cons.mp h
    rw [List.cons_append, List.map_cons, tags_cons]
    cases m with
    | char c => rw [closes_char, ih hStars]
    | enter | leave => cases hStar

/-- A bold run cuts no code span. -/
def wholePiece : Piece Mark → Bool
  | .plain _ => true
  | .found run => wholeSpans 0 run

theorem closes_pieces (stack : List Name) (ms : List Mark) :
    closes stack (tags (((boldRe Mark.isStar).pieces ms).flatMap tokensOf)) =
      if ((boldRe Mark.isStar).pieces ms).all wholePiece
      then closes stack (tags (ms.map Mark.token)) else none := by
  refine (boldRe Mark.isStar).pieces_induction (P := fun ms parts => ∀ stack,
    closes stack (tags (parts.flatMap tokensOf)) = if parts.all wholePiece
      then closes stack (tags (ms.map Mark.token)) else none) (fun _ => rfl) ?_ ?_ ms stack
  · intro m rest run after hRun ih stack
    obtain ⟨left, right, hText, hLeft, hRight⟩ := boldRe_eq_some hRun
    have hTags : tags (tokensOf (.found run)) =
        .opening strong :: (tags (run.map Mark.token) ++ [.closing strong]) := by
      rw [tokensOf, tags_cons, tags_append]
      rfl
    have hClose := closes_run stack 0 run (tags ((pieces (boldRe Mark.isStar) after).flatMap tokensOf))
    rw [List.replicate_zero, List.nil_append] at hClose
    rw [hText, List.flatMap_cons, tags_append, hTags, List.cons_append, List.append_assoc,
      List.singleton_append, closes, List.all_cons, closes_stars hLeft, hClose, ih, wholePiece]
    cases hWhole : wholeSpans 0 run with
    | false => rfl
    | true =>
      have hInside := wholeSpans_closes stack 0 run hWhole
      rw [List.replicate_zero, List.nil_append] at hInside
      rw [if_pos rfl, Bool.true_and, List.map_append, tags_append, closes_append, hInside,
        Option.bind_some, closes_stars hRight]
  · intro m rest _ ih stack
    rw [List.flatMap_cons, tags_append, List.map_cons, tags_cons, closes_append, closes_append,
      List.all_cons, wholePiece, Bool.true_and]
    change (closes stack (tags [m.token])).bind _ = _
    cases closes stack (tags [m.token]) with
    | none => simp
    | some stack' => exact ih stack'

theorem boldRuns_all (text : Text) : ((boldRe Mark.isStar).pieces (marks text)).all wholePiece =
    (boldRuns text).all (wholeSpans 0) := by
  rw [boldRuns]
  induction (boldRe Mark.isStar).pieces (marks text) with
  | nil => rfl
  | cons piece pieces ih =>
    rw [List.all_cons, ih]
    cases piece with
    | plain m => exact Bool.true_and _
    | found run => rfl

theorem closes_inline (stack : List Name) (text : Text) :
    closes stack (tags (inlineTokens text)) =
      if (boldRuns text).all (wholeSpans 0) then some stack else none := by
  rw [inlineTokens, closes_pieces, closes_marks, boldRuns_all]

/-! ## The whole text -/

theorem closes_fence (nonAscii : Char → Bool) (stack : List Name) (part : Text) :
    closes stack (tags (fenceTokens nonAscii part)) = some stack := by
  have hTags : tags (fenceTokens nonAscii part) =
      [.opening pre, .opening code, .closing code, .closing pre] := by
    have hBody : tags ((fenceBody nonAscii part).map .char) = [] := by
      rw [tags, List.filterMap_map]
      exact List.filterMap_eq_nil_iff.mpr fun _ _ => rfl
    have hOpen (tokens : List Token) : tags (.tag (.opening pre) :: .tag (.opening code) :: tokens) =
        .opening pre :: .opening code :: tags tokens := rfl
    rw [fenceTokens, hOpen, tags_append, hBody]
    rfl
  rw [hTags]
  rfl

theorem closes_parts (nonAscii : Char → Bool) (fenced : Bool) (parts : List Text) :
    closes [] (tags (partsTokens nonAscii fenced parts)) =
      if (unfenced fenced parts).all fun part => (boldRuns part).all (wholeSpans 0)
      then some [] else none := by
  induction parts generalizing fenced with
  | nil => cases fenced <;> rfl
  | cons part parts ih =>
    rw [partsTokens, tags_append, closes_append]
    cases fenced with
    | true =>
      rw [partTokens, if_pos rfl, closes_fence]
      exact ih false
    | false =>
      rw [partTokens, if_neg (by decide), closes_inline, unfenced, List.all_cons]
      cases (boldRuns part).all (wholeSpans 0) with
      | false => rfl
      | true => exact ih true

/-- The tags are nested if and only if, outside the fences, whatever is between two bold markers
holds both ends of a code span or neither. -/
theorem textToHtml_wellFormed_iff (nonAscii : Char → Bool) (text : Text) :
    WellFormed (textToHtml nonAscii text) ↔
      ∀ part ∈ unfenced false (fenceRe.split text), ∀ run ∈ boldRuns part,
        wholeSpans 0 run = true := by
  rw [textToHtml_eq, wellFormed_render_iff, htmlTokens, closes_parts]
  constructor
  · intro h part hPart run hRun
    split at h
    · rename_i hAll
      exact List.all_eq_true.mp (List.all_eq_true.mp hAll part hPart) run hRun
    · cases h
  · intro h
    rw [if_pos]
    exact List.all_eq_true.mpr fun part hPart => List.all_eq_true.mpr fun run hRun =>
      h part hPart run hRun

/-- A bold run that ends within a code span. -/
theorem textToHtml_crossing :
    ¬ WellFormed (textToHtml (fun _ => false) "**a `b** c`".toList) := by
  rw [textToHtml_eq, wellFormed_render_iff]
  decide

end AccessBroker.MarkdownRender
