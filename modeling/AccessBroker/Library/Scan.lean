import Mathlib.Data.List.Basic

/-! # Scans that stop at the first fault

A scan threads a state through a list and reports the position of the first
item that does not follow. What comes after a fault cannot repair it.
-/

namespace Scan
set_option autoImplicit false

variable {σ α ε : Type} (step : σ → α → Except ε σ)

/-- `index` is the number of the next item. -/
def scan : σ → Nat → List α → Except (Nat × ε) σ
  | s, _, [] => .ok s
  | s, index, x :: xs =>
    match step s x with
    | .error e => .error (index, e)
    | .ok s' => scan s' (index + 1) xs

variable {step}

theorem scan_append_ok {s s' : σ} {index : Nat} {xs : List α}
    (h : scan step s index xs = .ok s') (ys : List α) :
    scan step s index (xs ++ ys) = scan step s' (index + xs.length) ys := by
  induction xs generalizing s index with
  | nil =>
    cases h
    rfl
  | cons x xs ih =>
    rw [scan] at h
    rw [List.cons_append, scan]
    split at h
    · cases h
    · rw [ih h, List.length_cons, Nat.add_assoc, Nat.add_comm 1]

theorem scan_append_error {s : σ} {index : Nat} {xs : List α} {fault : Nat × ε}
    (h : scan step s index xs = .error fault) (ys : List α) :
    scan step s index (xs ++ ys) = .error fault := by
  induction xs generalizing s index with
  | nil => cases h
  | cons x xs ih =>
    rw [scan] at h
    rw [List.cons_append, scan]
    split at h
    · cases h
      rfl
    · exact ih h

theorem scan_concat {s s' : σ} {index : Nat} {xs : List α}
    (h : scan step s index xs = .ok s') (x : α) :
    scan step s index (xs ++ [x]) =
      match step s' x with
      | .error e => .error (index + xs.length, e)
      | .ok s'' => .ok s'' := by
  rw [scan_append_ok h, scan]
  split
  · rfl
  · rfl

theorem scan_concat_ok {s s'' : σ} {index : Nat} {xs : List α} {x : α}
    (h : scan step s index (xs ++ [x]) = .ok s'') :
    ∃ s', scan step s index xs = .ok s' ∧ step s' x = .ok s'' := by
  cases hInit : scan step s index xs with
  | error fault =>
    rw [scan_append_error hInit] at h
    cases h
  | ok s' =>
    rw [scan_concat hInit] at h
    split at h
    · cases h
    · rename_i hStep
      cases h
      exact ⟨s', rfl, hStep⟩

end Scan
