import AccessBroker.Library.Holes
import AccessBroker.Library.Matcher
import AccessBroker.Library.Regex.Runs
import AccessBroker.WebdavAdapter

/-! # Upstream errors that name the password

What `WebDavError` and `scrub_value` make of a message in which the password stands at some
places. Messages are templates, the password is what fills their holes.
-/

namespace AccessBroker.WebdavAdapter
open Py Py.Template Nextcloud MatrixBot
set_option autoImplicit false

/-! ## The exception -/

structure WebDavError where
  status : Int
  message : Text
  /-- The text of the exception, `args[0]`. -/
  text : Text
  deriving DecidableEq

def exceptionText (status : Int) (message : Text) : Text :=
  "webdav error ".toList ++ (decimal status ++ (": ".toList ++ message))

/-- `__init__`. -/
def WebDavError.init (status : Int) (message : Text) : WebDavError :=
  ⟨status, sanitize message, exceptionText status (sanitize message)⟩

/-- `scrub_value`. -/
def WebDavError.scrub (secret : Text) (exc : WebDavError) : WebDavError :=
  if secret ≠ [] ∧ contains secret exc.message then
    let message := replace secret "[redacted]".toList exc.message
    { exc with message, text := exceptionText exc.status message }
  else exc

def redacted : Text := "[redacted]".toList

theorem scrub_init {secret : Text} (hSecret : secret ≠ []) (status : Int) (message : Text) :
    (WebDavError.init status message).scrub secret =
      let shown := replace secret redacted (sanitize message)
      ⟨status, shown, exceptionText status shown⟩ := by
  rw [WebDavError.scrub]
  split
  · rfl
  · rename_i hAbsent
    have hNot : ¬ secret <:+: sanitize message := fun hInfix =>
      hAbsent ⟨hSecret, contains_iff.mpr hInfix⟩
    dsimp only
    rw [replace_eq_self _ hNot]
    rfl

/-! ## Keywords -/

def keywords : List Text := ["password".toList, "token".toList, "secret".toList]

/-- What follows the keyword that an element begins, where the letters are read by `same`. -/
def afterLetters {α : Type} (same : Char → α → Bool) : Text → List α → Option (List α)
  | [], rest => some rest
  | _ :: _, [] => none
  | letter :: letters, a :: rest => if same letter a then afterLetters same letters rest else none

theorem afterLetters_suffix {α : Type} {same : Char → α → Bool} {letters : Text} {text rest : List α}
    (h : afterLetters same letters text = some rest) : rest <:+ text := by
  fun_induction afterLetters same letters text with
  | case1 text =>
    cases h
    exact List.suffix_rfl
  | case2 => cases h
  | case3 letter letters a more _ ih => exact (ih h).trans (List.suffix_cons a more)
  | case4 => cases h

section Matching

variable {α : Type} (same : Char → α → Bool) (blank : α → Bool)

def keyword (text : List α) : Option (List α) :=
  keywords.findSome? fun letters => afterLetters same letters text

variable {same} in
theorem keyword_suffix {a : α} {text rest : List α} (h : keyword same (a :: text) = some rest) :
    rest <:+ text := by
  obtain ⟨letters, hLetters, hAfter⟩ := List.exists_of_findSome?_eq_some h
  have hNonempty : ∀ letters ∈ keywords, letters ≠ [] := by decide
  obtain ⟨letter, more, rfl⟩ := List.exists_cons_of_ne_nil (hNonempty letters hLetters)
  rw [afterLetters] at hAfter
  split at hAfter
  · exact afterLetters_suffix hAfter
  · cases hAfter

/-- A keyword and what follows it up to a blank. -/
def credential : Matcher α where
  run text := (keyword same text).map fun rest => ([], rest.dropWhile fun a => !blank a)
  consumes := by
    intro a text group after h
    obtain ⟨rest, hKeyword, hEq⟩ := Option.map_eq_some_iff.mp h
    cases hEq
    exact (List.dropWhile_suffix _).trans (keyword_suffix hKeyword)

end Matching

def onText : Matcher Char := credential sameLetter isSpace

/-! ### The pattern -/

theorem afterWord_eq (letters text : Text) :
    Regex.afterWord sameLetter letters text = afterLetters sameLetter letters text := by
  induction letters generalizing text with
  | nil => rfl
  | cons letter letters ih =>
    cases text with
    | nil => rfl
    | cons c text =>
      rw [Regex.afterWord, afterLetters, ih]

theorem tryRun_some {β : Type} {k : Text → Option β} (hk : ∀ rest, (k rest).isSome = true)
    (text : Text) (n : Nat) : Regex.tryRun 0 text k n = k (text.drop n) := by
  cases n with
  | zero => rfl
  | succ n =>
    obtain ⟨b, hb⟩ := Option.isSome_iff_exists.mp (hk (text.drop (n + 1)))
    rw [Regex.tryRun, if_pos (Nat.zero_le _), hb]
    rfl

theorem drop_runLength (p : Char → Bool) (text : Text) :
    text.drop (Regex.runLength p none text) = text.dropWhile p := by
  induction text with
  | nil => rfl
  | cons c text ih =>
    rw [Regex.runLength, List.dropWhile_cons]
    split
    · rw [List.drop_succ_cons, ih]
    · rfl

theorem credentialRe_match (text : Text) :
    (credentialRe.matchThen [] text fun _ after => some after.length) =
      (onText.run text).map fun taken => taken.2.length := by
  have hRun : ∀ groups rest, (Regex.run (fun c => !isSpace c) 0 none).matchThen groups rest
      (fun _ after => some after.length) = some (rest.dropWhile fun c => !isSpace c).length := by
    intro groups rest
    rw [Regex.matchThen, tryRun_some (fun _ => rfl), drop_runLength]
  rw [credentialRe, Regex.matchThen, Regex.choice_matchThen]
  simp only [hRun, commandWord, Regex.word_matchThen, afterWord_eq, onText, credential, keyword,
    keywords, List.findSome?_cons, List.findSome?_nil]
  cases afterLetters sameLetter "password".toList text <;>
    cases afterLetters sameLetter "token".toList text <;>
    cases afterLetters sameLetter "secret".toList text <;> rfl

theorem substituteFrom_eq (skip : Nat) (text : Text) :
    credentialRe.substituteFrom redacted skip text = (onText.piecesFrom skip text).flatMap fun
      | .plain c => [c]
      | .found _ => redacted := by
  induction text generalizing skip with
  | nil => cases skip <;> rfl
  | cons c text ih =>
    cases skip with
    | succ skip => exact ih skip
    | zero =>
      rw [Regex.substituteFrom, Matcher.piecesFrom, credentialRe_match]
      cases onText.run (c :: text) with
      | none =>
        rw [Option.map_none, List.flatMap_cons, ← ih]
        rfl
      | some taken =>
        rw [Option.map_some, List.flatMap_cons, ← ih]

theorem sanitize_eq (message : Text) :
    sanitize message = (onText.substitute (fun _ => redacted) message).take 300 := by
  have hSubstitute : credentialRe.substitute redacted message =
      onText.substitute (fun _ => redacted) message := by
    rw [Regex.substitute, substituteFrom_eq, Matcher.substitute]
    congr 1
    funext piece
    cases piece <;> rfl
  calc sanitize message = (credentialRe.substitute redacted message).take 300 := rfl
    _ = (onText.substitute (fun _ => redacted) message).take 300 := by rw [hSubstitute]

end AccessBroker.WebdavAdapter
