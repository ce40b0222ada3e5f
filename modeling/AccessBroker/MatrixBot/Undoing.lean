import AccessBroker.Grants.Display
import AccessBroker.MatrixBot.Settling

/-! # What an undo does

An undo reads the window of a number and nothing else of it. It refuses, or it closes the
window and files what the window holds as a new request, which the store may refuse.
-/

namespace AccessBroker.Grants
open Py Paths
set_option autoImplicit false

def Item.raw (item : Item) : RawItem := ⟨some item.path, some item.mode⟩

theorem cleanItem_raw {item : Item} (hMode : item.mode ∈ modes) :
    cleanItem item.raw =
      (normalizePath item.path).elim (.error (.invalidPath (some item.path)))
        fun norm => .ok ⟨norm, item.mode⟩ := by
  simp only [cleanItem, Item.raw, if_neg (not_not.mpr hMode), Option.bind_some]
  cases normalizePath item.path <;> rfl

theorem cleanItem_raw_ok {item clean : Item} (h : cleanItem item.raw = .ok clean) :
    item.mode ∈ modes ∧ normalizePath item.path = some clean.path ∧ clean.mode = item.mode := by
  have hMode : item.mode ∈ modes := by
    by_contra hMode
    simp only [cleanItem, Item.raw, if_pos hMode] at h
    cases h
  rw [cleanItem_raw hMode] at h
  cases hNorm : normalizePath item.path with
  | none =>
    rw [hNorm] at h
    cases h
  | some norm =>
    rw [hNorm] at h
    cases h
    exact ⟨hMode, rfl, rfl⟩

theorem cleanItems_raw_valid {items clean : List Item}
    (h : cleanItems (items.map Item.raw) = .ok clean) :
    ∀ item ∈ items, item.mode ∈ modes ∧ normalizePath item.path ≠ none := by
  intro item hItem
  obtain ⟨cleaned, _, hCleaned⟩ := cleanItem_of_mem h (List.mem_map_of_mem hItem)
  obtain ⟨hMode, hPath, _⟩ := cleanItem_raw_ok hCleaned
  exact ⟨hMode, by rw [hPath]; simp⟩

theorem cleanItems_raw_ok {items : List Item}
    (h : ∀ item ∈ items, item.mode ∈ modes ∧ normalizePath item.path ≠ none) :
    ∃ clean, cleanItems (items.map Item.raw) = .ok clean := by
  induction items with
  | nil => exact ⟨[], rfl⟩
  | cons item rest ih =>
    obtain ⟨⟨hMode, hPath⟩, hRest⟩ := List.forall_mem_cons.mp h
    obtain ⟨norm, hNorm⟩ := Option.ne_none_iff_exists'.mp hPath
    obtain ⟨cleaned, hCleaned⟩ := ih hRest
    refine ⟨⟨norm, item.mode⟩ :: cleaned, ?_⟩
    rw [List.map_cons, cleanItems, cleanItem_raw hMode, hNorm, hCleaned]
    rfl

end AccessBroker.Grants

namespace AccessBroker.MatrixBot
open Py Paths Grants
set_option autoImplicit false

variable {store : Settings} {clock : Nat → Int} {rid : Nat} {window : UndoWindow}

/-- `create_request` takes what the window holds. -/
structure UndoWindow.Acceptable (store : Settings) (window : UndoWindow) : Prop where
  reason : ¬ isBlank window.reason = true
  items : window.items ≠ []
  allowed : ∀ names, store.allowedInstances = some names → window.instanceName ∈ names
  clean : ∀ item ∈ window.items, item.mode ∈ modes ∧ normalizePath item.path ≠ none

def UndoWindow.row (window : UndoWindow) (now : Int) (clean : List Item) : Row :=
  pendingRow now window.instanceName window.reason clean

/-- What the window holds is taken and stored as a new pending request. -/
theorem recreate_accepted (hAccepted : window.Acceptable store) (d : Desk) :
    ∃ clean, cleanItems (window.items.map Item.raw) = .ok clean ∧
      (recreate store clock window).run d =
        (.ok (.awaits (.posting (toRecord store (clock d.asked) d.db.grants.next
            (window.row (clock d.asked) clean)) .message .undo)),
          { d with
            db := d.db.putGrants (d.db.grants.insert (window.row (clock d.asked) clean))
            asked := d.asked + 1 }) := by
  obtain ⟨clean, hClean⟩ := cleanItems_raw_ok hAccepted.clean
  refine ⟨clean, hClean, ?_⟩
  have hItems : window.items.map Item.raw ≠ [] := fun h => hAccepted.items (List.map_eq_nil_iff.mp h)
  have hCreate : (createRequest store (clock d.asked) window.instanceName (some window.reason)
      (window.items.map Item.raw)).run d.db =
        (.ok (toRecord store (clock d.asked) d.db.grants.next (window.row (clock d.asked) clean)),
          d.db.putGrants (d.db.grants.insert (window.row (clock d.asked) clean))) :=
    createRequest_run hAccepted.reason hItems hAccepted.allowed hClean d.db
  have hRun := onStore_run clock (fun now => createRequest store now window.instanceName
    (some window.reason) (window.items.map Item.raw)) d
  rw [hCreate] at hRun
  rw [recreate]
  exact Effect.bind_ok hRun

theorem acceptable_of_createRequest {now : Int} {db db' : Database} {req : GrantRecord}
    (h : (createRequest store now window.instanceName (some window.reason)
      (window.items.map Item.raw)).run db = (.ok req, db')) : window.Acceptable store := by
  rw [createRequest] at h
  split at h
  · cases h
  rename_i hReason
  split at h
  · cases h
  rename_i hItems
  split at h
  · cases h
  rename_i hAllowed
  split at h
  · cases h
  rename_i clean hClean
  refine ⟨hReason, fun hNil => hItems (by rw [hNil]; rfl), ?_, cleanItems_raw_valid hClean⟩
  intro names hNames
  by_contra hNot
  exact hAllowed (by rw [hNames]; exact decide_eq_true hNot)

/-- What the store does not take is an exception that nobody reports. -/
theorem recreate_refused (hRefused : ¬ window.Acceptable store) (d : Desk) :
    ∃ cause, (recreate store clock window).run d =
      (.error (.store cause), { d with asked := d.asked + 1 }) := by
  have hRun := onStore_run clock (fun now => createRequest store now window.instanceName
    (some window.reason) (window.items.map Item.raw)) d
  cases hCreate : (createRequest store (clock d.asked) window.instanceName (some window.reason)
      (window.items.map Item.raw)).run d.db with
  | mk result db =>
    cases result with
    | ok req => exact absurd (acceptable_of_createRequest hCreate) hRefused
    | error cause =>
      have hSame : db = d.db := by
        rcases createRequest_cases store (clock d.asked) window.instanceName (some window.reason)
            (window.items.map Item.raw) d.db with
          ⟨e, hError⟩ | ⟨text, clean, _, _, _, _, hOk⟩
        · rw [hCreate] at hError
          exact congrArg Prod.snd hError
        · rw [hCreate] at hOk
          cases hOk
      rw [hCreate, hSame] at hRun
      refine ⟨cause, ?_⟩
      rw [recreate]
      exact Effect.bind_error hRun

/-! ## The command -/

def Desk.WindowOpen (clock : Nat → Int) (d : Desk) (rid : Nat) (window : UndoWindow) : Prop :=
  d.undoWindows.lookup rid = some window ∧ clock d.asked < window.deadline

def Desk.closed (d : Desk) (rid : Nat) : Desk :=
  { d with
    asked := d.asked + 1
    undoWindows := d.undoWindows.filter (·.1 ≠ rid) }

theorem undo_window {d : Desk} (h : d.undoWindows.lookup rid = some window) :
    (undo store clock rid).run d =
      (if window.deadline ≤ clock d.asked then say (.undoClosed rid)
        else recreate store clock window).run (d.closed rid) := by
  have hClock : (readClock clock).run d =
    (.ok (clock d.asked), { d with asked := d.asked + 1 }) := rfl
  have hClose : (closeUndo rid).run { d with asked := d.asked + 1 } = (.ok (), d.closed rid) := rfl
  rw [undo, Effect.bind_ok (Effect.get_run d), h]
  dsimp only
  rw [Effect.bind_ok hClock, Effect.bind_ok hClose]

/-- Without an open window the undo is refused. -/
theorem undo_refused {d : Desk} (h : ∀ window, ¬ d.WindowOpen clock rid window) :
    ∃ d', (undo store clock rid).run d = (.ok (.awaits (.sending (.undoClosed rid))), d') ∧
      d'.db = d.db := by
  cases hLookup : d.undoWindows.lookup rid with
  | none =>
    refine ⟨d, ?_, rfl⟩
    rw [undo, Effect.bind_ok (Effect.get_run d), hLookup]
    rfl
  | some window =>
    refine ⟨d.closed rid, ?_, rfl⟩
    have hLate : window.deadline ≤ clock d.asked := by
      by_contra hEarly
      exact h window ⟨hLookup, by omega⟩
    rw [undo_window hLookup, if_pos hLate]
    rfl

theorem undo_open {d : Desk} (h : d.WindowOpen clock rid window) :
    (undo store clock rid).run d = (recreate store clock window).run (d.closed rid) := by
  rw [undo_window h.1, if_neg (by have := h.2; omega)]

/-- An undo leaves the store as it is, or files one new pending request and closes the window. -/
theorem undo_files (store : Settings) (clock : Nat → Int) (rid : Nat) (d : Desk) :
    ((undo store clock rid).run d).2.db = d.db ∨
      ∃ window row, d.WindowOpen clock rid window ∧ row.state = .pending ∧
        ((undo store clock rid).run d).2 =
          { d.closed rid with
            db := d.db.putGrants (d.db.grants.insert row)
            asked := d.asked + 2 } := by
  by_cases hOpen : ∃ window, d.WindowOpen clock rid window
  · obtain ⟨window, hWindow⟩ := hOpen
    rw [undo_open hWindow]
    by_cases hAccepted : window.Acceptable store
    · obtain ⟨clean, _, hRun⟩ := @recreate_accepted store clock window hAccepted (d.closed rid)
      rw [hRun]
      exact Or.inr ⟨window, window.row (clock (d.closed rid).asked) clean, hWindow, rfl, rfl⟩
    · obtain ⟨cause, hRun⟩ := @recreate_refused store clock window hAccepted (d.closed rid)
      rw [hRun]
      exact Or.inl rfl
  · obtain ⟨d', hRun, hSame⟩ := @undo_refused store clock rid d fun window h => hOpen ⟨window, h⟩
    rw [hRun]
    exact Or.inl hSame

end AccessBroker.MatrixBot
