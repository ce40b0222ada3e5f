import AccessBroker.Library.Json.Dict
import AccessBroker.Library.Json.Lexical

/-! # Text that comes after a value

A parse that succeeded is not changed by more fuel, nor by more text that cannot
continue a number.
-/

namespace Json
open Py
set_option autoImplicit false

variable {format : FloatFormat}

theorem skipWs_append {text rest : Text} {c : Char} (h : skipWs text = c :: rest) (w : Text) :
    skipWs (text ++ w) = c :: (rest ++ w) := by
  induction text with
  | nil => cases h
  | cons d text ih =>
    rw [skipWs] at h ih
    rw [List.cons_append, skipWs]
    cases hWs : isWs d with
    | true =>
      rw [List.dropWhile_cons_of_pos hWs] at h ⊢
      exact ih h
    | false =>
      rw [List.dropWhile_cons_of_neg (by simp [hWs])] at h ⊢
      cases h
      rfl

theorem skipWs_append_of_ne_nil {text : Text} (h : skipWs text ≠ []) (w : Text) :
    skipWs (text ++ w) = skipWs text ++ w := by
  obtain ⟨c, rest, hSkip⟩ := List.exists_cons_of_ne_nil h
  rw [skipWs_append hSkip, hSkip]
  rfl

theorem parseValue_ne_nil {fuel : Nat} {text rest : Text} {v : Value}
    (h : parseValue format fuel text = some (v, rest)) : text ≠ [] := by
  rintro rfl
  cases fuel with
  | zero => cases h
  | succ fuel => cases h

theorem parseItems_ne_nil {fuel : Nat} {text rest : Text} {vs : List Value}
    (h : parseItems format fuel text = some (vs, rest)) : text ≠ [] := by
  cases fuel with
  | zero => cases h
  | succ fuel =>
    rw [parseItems] at h
    split at h
    · cases h
    · rename_i hValue
      exact parseValue_ne_nil hValue

theorem parseMembers_ne_nil {fuel : Nat} {text rest : Text} {ms : List (Str × Value)}
    (h : parseMembers format fuel text = some (ms, rest)) : text ≠ [] := by
  rintro rfl
  cases fuel with
  | zero => cases h
  | succ fuel => cases h

theorem scanWord_append {word text rest : Text} {value v : Value}
    (h : scanWord word value text = some (v, rest)) (w : Text) :
    scanWord word value (text ++ w) = some (v, rest ++ w) := by
  rw [scanWord] at h
  split at h
  · rename_i hPrefix
    obtain ⟨after, rfl⟩ := List.isPrefixOf_iff_prefix.mp hPrefix
    cases h
    rw [scanWord, List.append_assoc, if_pos (by simp)]
    simp
  · cases h

theorem parseNumber_append {w : Text} (hw : Stops w) {text rest : Text} {v : Value}
    (h : parseNumber format text = some (v, rest)) :
    parseNumber format (text ++ w) = some (v, rest ++ w) ∧
      scanWord "-Infinity".toList (.float "-Infinity".toList) (text ++ w) = none := by
  rw [parseNumber] at h
  split at h
  · cases h
  · rename_i n after hScan
    obtain ⟨value, hValue, hEq⟩ := Option.map_eq_some_iff.mp h
    cases hEq
    refine ⟨?_, ?_⟩
    · rw [parseNumber, scanNumber_append hw hScan]
      simp only [hValue, Option.map_some]
    · refine if_neg fun hPrefix => ?_
      exact scanNumber_not_word (c := 'I') hScan rfl (List.isPrefixOf_iff_prefix.mp hPrefix)

theorem ite_imp {α : Type} {p : Prop} [Decidable p] {a b a' b' x x' : α} (ha : a = x → a' = x')
    (hb : b = x → b' = x') (h : ite p a b = x) : ite p a' b' = x' := by
  by_cases hp : p
  · rw [if_pos hp] at h ⊢
    exact ha h
  · rw [if_neg hp] at h ⊢
    exact hb h

theorem parseScalar_append {w : Text} (hw : Stops w) {c : Char} {text rest : Text} {v : Value}
    (h : parseScalar format c text = some (v, rest)) :
    parseScalar format c (text ++ w) = some (v, rest ++ w) := by
  unfold parseScalar at h ⊢
  have hWord : ∀ word value, scanWord word value text = some (v, rest) →
      scanWord word value (text ++ w) = some (v, rest ++ w) := fun _ _ h => scanWord_append h w
  refine ite_imp (hWord _ _) (ite_imp (hWord _ _) (ite_imp (hWord _ _) (ite_imp (hWord _ _)
    (ite_imp (hWord _ _) fun h => ?_)))) h
  rcases Option.or_eq_some_iff.mp h with hInfinity | ⟨_, hNumber⟩
  · rw [scanWord_append hInfinity]
    rfl
  · obtain ⟨hParse, hNoWord⟩ := parseNumber_append hw hNumber
    rw [hNoWord]
    exact hParse

/-- A parse that succeeded succeeds alike with more fuel and more text. -/
structure Extends (format : FloatFormat) (fuel : Nat) : Prop where
  value : ∀ {text v rest}, parseValue format fuel text = some (v, rest) →
    ∀ k w, Stops w → parseValue format (fuel + k) (text ++ w) = some (v, rest ++ w)
  items : ∀ {text vs rest}, parseItems format fuel text = some (vs, rest) →
    ∀ k w, Stops w → parseItems format (fuel + k) (text ++ w) = some (vs, rest ++ w)
  members : ∀ {text ms rest}, parseMembers format fuel text = some (ms, rest) →
    ∀ k w, Stops w → parseMembers format (fuel + k) (text ++ w) = some (ms, rest ++ w)

theorem extends_value {fuel : Nat} (ih : Extends format fuel) {text : Text} {v : Value}
    {rest : Text} (h : parseValue format (fuel + 1) text = some (v, rest)) (k : Nat) {w : Text}
    (hw : Stops w) : parseValue format (fuel + k + 1) (text ++ w) = some (v, rest ++ w) := by
  cases text with
  | nil => cases h
  | cons c text =>
    rw [List.cons_append]
    rw [parseValue] at h ⊢
    split at h
    · rename_i hQuote
      rw [if_pos hQuote]
      exact map_eq_some_append (f := fun s => Value.str (joinSurrogates s)) h
        fun s r hScan => scanString_append w text hScan
    rename_i hQuote
    rw [if_neg hQuote]
    split at h
    · rename_i hBracket
      rw [if_pos hBracket]
      split at h
      · cases h
      · rename_i d after hSkip
        rw [skipWs_append hSkip]
        dsimp only
        split at h
        · rename_i hClose
          cases h
          rw [if_pos hClose]
        · rename_i hOpen
          rw [if_neg hOpen]
          exact map_eq_some_append h fun vs r hItems => ih.items hItems k w hw
    rename_i hBracket
    rw [if_neg hBracket]
    split at h
    · rename_i hBrace
      rw [if_pos hBrace]
      split at h
      · cases h
      · rename_i d after hSkip
        rw [skipWs_append hSkip]
        dsimp only
        split at h
        · rename_i hClose
          cases h
          rw [if_pos hClose]
        · rename_i hOpen
          rw [if_neg hOpen]
          exact map_eq_some_append (f := fun ms => Value.obj (Dict.ofPairs ms)) h
            fun ms r hMembers => ih.members hMembers k w hw
    · rename_i hBrace
      rw [if_neg hBrace]
      exact parseScalar_append hw h

theorem extends_items {fuel : Nat} (ih : Extends format fuel) {text : Text} {vs : List Value}
    {rest : Text} (h : parseItems format (fuel + 1) text = some (vs, rest)) (k : Nat) {w : Text}
    (hw : Stops w) : parseItems format (fuel + k + 1) (text ++ w) = some (vs, rest ++ w) := by
  rw [parseItems] at h ⊢
  split at h
  · cases h
  rename_i v after hValue
  rw [ih.value hValue k w hw]
  dsimp only
  split at h
  · cases h
  rename_i c after' hSkip
  rw [skipWs_append hSkip]
  dsimp only
  split at h
  · rename_i hClose
    cases h
    rw [if_pos hClose]
  rename_i hOpen
  rw [if_neg hOpen]
  split at h
  · rename_i hComma
    obtain ⟨⟨vs', r⟩, hItems, _⟩ := Option.map_eq_some_iff.mp h
    rw [if_pos hComma, skipWs_append_of_ne_nil (parseItems_ne_nil hItems)]
    exact map_eq_some_append h fun vs r hItems => ih.items hItems k w hw
  · cases h

theorem extends_members {fuel : Nat} (ih : Extends format fuel) {text : Text}
    {ms : List (Str × Value)} {rest : Text}
    (h : parseMembers format (fuel + 1) text = some (ms, rest)) (k : Nat) {w : Text}
    (hw : Stops w) : parseMembers format (fuel + k + 1) (text ++ w) = some (ms, rest ++ w) := by
  cases text with
  | nil => cases h
  | cons c text =>
    rw [List.cons_append]
    rw [parseMembers] at h ⊢
    split at h
    · cases h
    rename_i hQuote
    rw [if_neg hQuote]
    split at h
    · cases h
    rename_i key afterKey hKey
    rw [scanString_append w text hKey]
    dsimp only
    split at h
    · cases h
    rename_i d afterColon hSkip
    rw [skipWs_append hSkip]
    dsimp only
    split at h
    · cases h
    rename_i hColon
    rw [if_neg hColon]
    split at h
    · cases h
    rename_i v afterValue hValue
    rw [skipWs_append_of_ne_nil (parseValue_ne_nil hValue), ih.value hValue k w hw]
    dsimp only
    split at h
    · cases h
    rename_i e afterMember hSkip'
    rw [skipWs_append hSkip']
    dsimp only
    split at h
    · rename_i hClose
      cases h
      rw [if_pos hClose]
    rename_i hOpen
    rw [if_neg hOpen]
    split at h
    · rename_i hComma
      obtain ⟨⟨ms', r⟩, hMembers, _⟩ := Option.map_eq_some_iff.mp h
      rw [if_pos hComma, skipWs_append_of_ne_nil (parseMembers_ne_nil hMembers)]
      exact map_eq_some_append h fun ms r hMembers => ih.members hMembers k w hw
    · cases h

theorem parse_extends (format : FloatFormat) (fuel : Nat) : Extends format fuel := by
  induction fuel with
  | zero => exact ⟨fun h => (by cases h), fun h => (by cases h), fun h => (by cases h)⟩
  | succ fuel ih =>
    refine ⟨fun h k w hw => ?_, fun h k w hw => ?_, fun h k w hw => ?_⟩
    · rw [Nat.succ_add]
      exact extends_value ih h k hw
    · rw [Nat.succ_add]
      exact extends_items ih h k hw
    · rw [Nat.succ_add]
      exact extends_members ih h k hw

end Json
