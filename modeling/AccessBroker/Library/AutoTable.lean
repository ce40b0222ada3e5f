import AccessBroker.Library.Lookup

/-! # A table with an automatic key

Rows are kept in key order and a new row takes a key above every key ever
used, so a key names at most one row and is never given out twice. Both facts
are fields of the table.
-/

/-- A table of `ρ` rows under an AUTOINCREMENT key. -/
structure AutoTable (ρ : Type) where
  rows : List (Nat × ρ)
  next : Nat
  sorted : rows.Pairwise fun a b => a.1 < b.1
  bounded : ∀ entry ∈ rows, entry.1 < next

namespace AutoTable
set_option autoImplicit false

variable {ρ : Type}

def empty (first : Nat) : AutoTable ρ := ⟨[], first, List.Pairwise.nil, by simp⟩

def get? (t : AutoTable ρ) (key : Nat) : Option ρ :=
  (t.rows.find? fun entry => entry.1 == key).map Prod.snd

def insert (t : AutoTable ρ) (row : ρ) : AutoTable ρ where
  rows := t.rows ++ [(t.next, row)]
  next := t.next + 1
  sorted := by
    rw [List.pairwise_append]
    refine ⟨t.sorted, List.pairwise_singleton _ _, ?_⟩
    intro a ha b hb
    rw [List.mem_singleton.mp hb]
    exact t.bounded a ha
  bounded := by
    intro entry hEntry
    rcases List.mem_append.mp hEntry with h | h
    · exact Nat.lt_succ_of_lt (t.bounded entry h)
    · rw [List.mem_singleton.mp h]
      exact Nat.lt_succ_self _

/-- Rewrite every row; `UPDATE ... WHERE` is an `f` that tests the row. -/
def update (t : AutoTable ρ) (f : Nat → ρ → ρ) : AutoTable ρ where
  rows := t.rows.map fun entry => (entry.1, f entry.1 entry.2)
  next := t.next
  sorted := List.pairwise_map.mpr t.sorted
  bounded := by
    intro entry hEntry
    obtain ⟨old, hOld, rfl⟩ := List.mem_map.mp hEntry
    exact t.bounded old hOld

def modify (t : AutoTable ρ) (key : Nat) (f : ρ → ρ) : AutoTable ρ :=
  t.update fun k row => if k = key then f row else row

/-- The same table with its rows in another form. -/
def map {ρ' : Type} (t : AutoTable ρ) (f : ρ → ρ') : AutoTable ρ' where
  rows := t.rows.map fun entry => (entry.1, f entry.2)
  next := t.next
  sorted := List.pairwise_map.mpr t.sorted
  bounded := by
    intro entry hEntry
    obtain ⟨old, hOld, rfl⟩ := List.mem_map.mp hEntry
    exact t.bounded old hOld

theorem mem_rows_iff (t : AutoTable ρ) (key : Nat) (row : ρ) :
    (key, row) ∈ t.rows ↔ t.get? key = some row := by
  have hKeys : (t.rows.map Prod.fst).Nodup := List.pairwise_map.mpr (t.sorted.imp Nat.ne_of_lt)
  rw [get?, Option.map_eq_some_iff]
  constructor
  · intro hRow
    exact ⟨(key, row), (Lookup.find?_key_eq_some_iff hKeys key).mpr ⟨hRow, rfl⟩, rfl⟩
  · rintro ⟨entry, hFind, rfl⟩
    obtain ⟨hRow, rfl⟩ := (Lookup.find?_key_eq_some_iff hKeys key).mp hFind
    exact hRow

theorem get?_lt {t : AutoTable ρ} {key : Nat} {row : ρ} (h : t.get? key = some row) :
    key < t.next := t.bounded _ ((t.mem_rows_iff key row).mpr h)

theorem get?_next (t : AutoTable ρ) : t.get? t.next = none := by
  cases h : t.get? t.next with
  | none => rfl
  | some row => exact absurd (get?_lt h) (Nat.lt_irrefl _)

@[simp] theorem get?_empty (first key : Nat) : (empty first : AutoTable ρ).get? key = none := rfl

theorem get?_insert (t : AutoTable ρ) (row : ρ) (key : Nat) :
    (t.insert row).get? key = if key = t.next then some row else t.get? key := by
  simp only [get?, insert, List.find?_append]
  by_cases hKey : key = t.next
  · have hNone : t.rows.find? (fun entry => entry.1 == t.next) = none :=
      Option.map_eq_none_iff.mp t.get?_next
    simp [hNone, hKey]
  · have hFalse : (t.next == key) = false := by simpa using Ne.symm hKey
    simp [hKey, hFalse]

theorem get?_update (t : AutoTable ρ) (f : Nat → ρ → ρ) (key : Nat) :
    (t.update f).get? key = (t.get? key).map (f key) := by
  simp only [get?, update, List.find?_map, Option.map_map]
  cases h : t.rows.find? ((fun entry => entry.1 == key) ∘ fun entry => (entry.1, f entry.1 entry.2)) with
  | none =>
    rw [show (t.rows.find? fun entry => entry.1 == key) = none from h]
    rfl
  | some entry =>
    have hKey : entry.1 = key := by simpa using List.find?_some h
    rw [show (t.rows.find? fun entry => entry.1 == key) = some entry from h]
    simp [hKey]

theorem get?_modify (t : AutoTable ρ) (key : Nat) (f : ρ → ρ) (other : Nat) :
    (t.modify key f).get? other = if other = key then (t.get? key).map f else t.get? other := by
  rw [modify, get?_update]
  by_cases h : other = key
  · simp [h]
  · simp [h]

@[simp] theorem next_insert (t : AutoTable ρ) (row : ρ) : (t.insert row).next = t.next + 1 := rfl

@[simp] theorem next_update (t : AutoTable ρ) (f : Nat → ρ → ρ) : (t.update f).next = t.next := rfl

@[simp] theorem next_modify (t : AutoTable ρ) (key : Nat) (f : ρ → ρ) :
    (t.modify key f).next = t.next := rfl

/-! ## Another form of the rows -/

section Map

variable {ρ' : Type} (f : ρ → ρ')

theorem get?_map (t : AutoTable ρ) (key : Nat) : (t.map f).get? key = (t.get? key).map f := by
  simp only [get?, map, List.find?_map, Option.map_map]
  rfl

theorem map_insert (t : AutoTable ρ) (row : ρ) : (t.insert row).map f = (t.map f).insert (f row) := by
  simp [map, insert]

theorem map_update {f : ρ → ρ'} {g : Nat → ρ → ρ} {g' : Nat → ρ' → ρ'}
    (h : ∀ key row, f (g key row) = g' key (f row)) (t : AutoTable ρ) :
    (t.update g).map f = (t.map f).update g' := by
  simp [map, update, h]

theorem map_modify {f : ρ → ρ'} {g : ρ → ρ} {g' : ρ' → ρ'} (h : ∀ row, f (g row) = g' (f row))
    (t : AutoTable ρ) (key : Nat) : (t.modify key g).map f = (t.map f).modify key g' := by
  refine map_update (fun k row => ?_) t
  by_cases hKey : k = key
  · rw [if_pos hKey, if_pos hKey, h]
  · rw [if_neg hKey, if_neg hKey]

end Map

end AutoTable
