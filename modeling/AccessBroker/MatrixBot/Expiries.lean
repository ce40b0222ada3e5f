import AccessBroker.Grants
import AccessBroker.MatrixBot.Grammar

/-! # Two readings of an expiry

The reply pattern ignores case, the expiry pattern of the store does not. An expiry
that the parser took is a duration for the store exactly if its unit is in lower case.
-/

namespace AccessBroker.MatrixBot
open Py Regex Grants
set_option autoImplicit false

def expiryNumber (token : Text) : Nat := decimalNumber token.dropLast

def expiryUnit (token : Text) : Text := token.getLast?.toList.map foldLetter

def isLowerUnit (c : Char) : Bool := c == 'h' || c == 'm' || c == 'd'

/-- The store takes the expiry for a positive duration, its number times its unit. -/
def Lasts (token : Text) : Prop :=
  ∃ duration, parseExpiry (some token) = .ok (some duration) ∧ 0 < duration ∧
    duration = expiryNumber token * unitSeconds (expiryUnit token) * second

/-- A decision was read from the command, a number and what follows it. -/
theorem parseWords_decision_fit {ws : List Text} {action : Text} {rid : Nat}
    {itemNumbers : Option (List Nat)} {expiry : Option Text}
    (h : parseWords ws = .ok (some (.decision action rid itemNumbers expiry))) :
    ∃ r, fit ws = some r ∧ lowerMatched r.word = action ∧ r.expiry = expiry := by
  cases hFit : fit ws with
  | none =>
    rw [parseWords, hFit] at h
    cases h
  | some r =>
    refine ⟨r, rfl, ?_⟩
    rw [parseWords_fit hFit, readReply] at h
    split at h
    · cases h
    split at h
    · cases h
    split at h
    · obtain ⟨_, _, ⟨_, hParsed⟩ | ⟨_, _, _, hParsed⟩⟩ := readDecision_some h
      · cases hParsed
      · cases hParsed
        exact ⟨rfl, rfl⟩
    split at h
    · cases hName : readRevokeTarget ws with
      | none =>
        rw [hName] at h
        cases h
      | some name =>
        rw [hName, Option.map_some, readName] at h
        split at h <;> cases h
    · cases h

theorem isLowerUnit_isUnit {c : Char} (h : isLowerUnit c = true) : isUnit c = true := by
  rw [isLowerUnit, Bool.or_eq_true, Bool.or_eq_true, beq_iff_eq, beq_iff_eq, beq_iff_eq] at h
  rcases h with (rfl | rfl) | rfl <;> decide

/-- The store reads the digits and a unit in lower case, and nothing else. -/
theorem expiryRe_token {digits : Text} {unit : Char} (hDigits : ∀ c ∈ digits, isDecimal c = true)
    (hUnit : isUnit unit = true) (hLow : 1 ≤ digits.length) (hHigh : digits.length ≤ 3) :
    expiryRe.matchLine (digits ++ [unit]) =
      if isLowerUnit unit then some [(2, [unit]), (1, digits)] else none := by
  have hMore : ∀ c rest, [unit] = c :: rest → isDecimal c = false := by
    intro c rest h
    cases h
    rw [← Bool.not_eq_true]
    intro hDecimal
    rw [isUnit_of_isDecimal hDecimal] at hUnit
    cases hUnit
  rw [matchLine_eq, expiryRe, matchThen, group_append, run_append _ hDigits hMore,
    if_pos ⟨hLow, by simpa using hHigh⟩, take_taken, group_append, choice_matchThen]
  · by_cases hLower : isLowerUnit unit = true
    · rw [if_pos hLower]
      rw [isLowerUnit, Bool.or_eq_true, Bool.or_eq_true, beq_iff_eq, beq_iff_eq, beq_iff_eq] at hLower
      rcases hLower with (rfl | rfl) | rfl <;> rfl
    · rw [if_neg hLower]
      rw [isLowerUnit, Bool.or_eq_true, Bool.or_eq_true, not_or, not_or] at hLower
      simp only [List.findSome?_cons, List.findSome?_nil, matchThen, if_neg hLower.1.1,
        if_neg hLower.1.2, if_neg hLower.2]
  · intro c rest hc
    have hLower : ¬ isLowerUnit c = true := by
      intro hLower
      have hNot := isUnit_of_isDecimal hc
      rw [isLowerUnit_isUnit hLower] at hNot
      cases hNot
    rw [isLowerUnit, Bool.or_eq_true, Bool.or_eq_true, not_or, not_or] at hLower
    dsimp only
    rw [group_append, choice_matchThen]
    simp only [List.findSome?_cons, List.findSome?_nil, matchThen, if_neg hLower.1.1,
      if_neg hLower.1.2, if_neg hLower.2]

theorem foldLetter_of_isLowerUnit {c : Char} (h : isLowerUnit c = true) : foldLetter c = c := by
  rw [isLowerUnit, Bool.or_eq_true, Bool.or_eq_true, beq_iff_eq, beq_iff_eq, beq_iff_eq] at h
  rcases h with (rfl | rfl) | rfl <;> decide

theorem unitSeconds_pos (unit : Text) : 0 < unitSeconds unit := by
  rw [unitSeconds]
  split
  · decide
  split <;> decide

/-- A positive expiry lasts exactly if its unit is in lower case. -/
theorem lasts_iff {token : Text} (hToken : isExpiry token = true) (hPositive : 0 < expiryNumber token) :
    Lasts token ↔ token.getLast?.any isLowerUnit = true := by
  obtain ⟨digits, unit, rfl, hDigits, hUnit, hLow, hHigh⟩ := isExpiry_digits hToken
  rw [expiryNumber, List.dropLast_concat] at hPositive
  rw [List.getLast?_concat, Option.any_some, Lasts, expiryNumber, List.dropLast_concat, expiryUnit,
    List.getLast?_concat, parseExpiry, strip_of_unspaced (isExpiry_unspaced hToken),
    expiryRe_token hDigits hUnit hLow hHigh]
  by_cases hLower : isLowerUnit unit = true
  · rw [if_pos hLower]
    refine iff_of_true ⟨_, if_neg hPositive.ne', ?_, ?_⟩ hLower
    · have hNumber : (0 : Int) < decimalNumber digits := Int.natCast_pos.mpr hPositive
      have hUnits := unitSeconds_pos [unit]
      exact Int.mul_pos (Int.mul_pos hNumber hUnits) (by decide)
    · have hFold : (Option.some unit).toList.map foldLetter = [unit] := by
        rw [Option.toList_some, List.map_singleton, foldLetter_of_isLowerUnit hLower]
      rw [hFold]
      rfl
  · rw [if_neg hLower]
    refine iff_of_false ?_ hLower
    rintro ⟨duration, hParsed, _⟩
    cases hParsed

/-- An expiry that was read is the end of the reply. -/
theorem expiry_getLast {text token : Text} {r : Reply} (hFit : fit (words text) = some r)
    (hExpiry : r.expiry = some token) : token.getLast? = (strip text).getLast? := by
  rw [← words_getLast (strip_trimmed text), words_strip, (fit_fits hFit).words_eq, Reply.words, hExpiry,
    ← List.append_assoc, Option.toList_some, List.getLast?_concat]
  rfl

/-- The store takes the expiry of an approval exactly if the reply ends in lower case. -/
theorem approve_expiry_lasts_iff {text token : Text} {rid : Nat} {itemNumbers : Option (List Nat)}
    (hParsed : parseReply text = .ok (some (.decision "approve".toList rid itemNumbers (some token))))
    (hPositive : 0 < expiryNumber token) :
    Lasts token ↔ (strip text).getLast?.any isLowerUnit = true := by
  rw [parseReply_words] at hParsed
  obtain ⟨r, hFit, _, hExpiry⟩ := parseWords_decision_fit hParsed
  rw [lasts_iff ((fit_fits hFit).expiry token hExpiry) hPositive, expiry_getLast hFit hExpiry]

theorem approve_expiry_lasts_iff_hours :
    Lasts "8h".toList ↔ (strip "approve 3 8h".toList).getLast?.any isLowerUnit = true :=
  @approve_expiry_lasts_iff "approve 3 8h".toList "8h".toList 3 none (by decide +kernel)
    (by decide +kernel)

/-- The reply is read and its expiry is not. -/
theorem upper_case_expiry_refused :
    parseReply "approve 3 8H".toList =
      .ok (some (.decision "approve".toList 3 none (some "8H".toList))) ∧
    0 < expiryNumber "8H".toList ∧ ¬ Lasts "8H".toList := by
  refine ⟨by decide +kernel, by decide +kernel, ?_⟩
  rintro ⟨duration, hParsed, _⟩
  have hRefused : parseExpiry (some "8H".toList) = .error (.invalidExpiry "8H".toList) := by
    decide +kernel
  rw [hRefused] at hParsed
  cases hParsed

end AccessBroker.MatrixBot
