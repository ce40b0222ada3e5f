import Mathlib.Data.List.Dedup
import Mathlib.Data.List.Perm.Basic
import Mathlib.Data.List.Sort
import AccessBroker.Grants.Lifecycle
import AccessBroker.MatrixBot.Rendering
import AccessBroker.MatrixBot.Revoking

/-! # The status block

The grants that are effectively active, grouped by instance where there are several, and the
requests that are stored as pending. A pending request that has timed out is still stored as
pending, so the block lists it although nobody can approve it any more.
-/

namespace AccessBroker.MatrixBot
open Py Grants
set_option autoImplicit false

/-! ## Rendering -/

/-- Whole hours from two hours on, and minutes below. -/
def formatRemaining (delta : Int) : Text :=
  let seconds := (delta / second).toNat
  if 2 * 3600 ≤ seconds then decimal (seconds / 3600 : Nat) ++ "h".toList
  else decimal (seconds / 60 : Nat) ++ "m".toList

def twoDigits (n : Nat) : Text := if n < 10 then '0' :: decimal n else decimal n

def clockTime (instant : Int) : Text :=
  let minutes := (instant / (60 * second) % 1440).toNat
  twoDigits (minutes / 60) ++ [':'] ++ twoDigits (minutes % 60)

def sortedSet (texts : List Text) : List Text := texts.dedup.insertionSort fun a b => ¬ b < a

def modesLabel (record : GrantRecord) : Text :=
  ['+'].intercalate (sortedSet (record.items.map fun item => upper item.mode))

/-- The lines of the block, by what they are rendered from. -/
inductive StatusLine where
  | activeHeading
  | instanceHeading (name : Text)
  | grant (rid : Nat) (modes remaining : Text) (instanceName : Option Text)
  | item (shown : Item)
  | noneActive
  | blank
  | noneAwaiting
  | awaitingHeading (count : Nat)
  | waiting (rid : Nat) (instanceName age marker : Text)
  | footer (parts : List Text)
  deriving DecidableEq

def StatusLine.text : StatusLine → Text
  | activeHeading => "**Active grants**".toList
  | instanceHeading name => name ++ ":".toList
  | grant rid modes remaining instanceName =>
    "✅ **#".toList ++ decimal rid ++ "** — ".toList ++ modes ++ ", ".toList ++ remaining ++
      " left".toList ++ instanceName.elim [] (" — ".toList ++ ·)
  | .item shown => "   **".toList ++ upper shown.mode ++ "** `".toList ++ shown.path ++ "`".toList
  | noneActive => "none".toList
  | blank => []
  | noneAwaiting => "Awaiting your approval: none".toList
  | awaitingHeading count =>
    "**Awaiting your approval** (".toList ++ decimal count ++ "):".toList
  | waiting rid instanceName age marker =>
    "⏳ **#".toList ++ decimal rid ++ "** — ".toList ++ instanceName ++ " — waiting ".toList ++ age ++
      marker
  | footer parts => " · ".toList.intercalate parts

/-- `_active_grant_lines`; an active grant always has an expiry. -/
def activeGrantLines (now : Int) (withInstance : Bool) (record : GrantRecord) : List StatusLine :=
  .grant record.id (modesLabel record) (formatRemaining (record.expiresAt.getD now - now))
      (if withInstance then some record.instanceName else none) ::
    record.items.map .item

def Status.instanceNames (status : Status) : List Text :=
  sortedSet (status.active.map GrantRecord.instanceName)

/-- The instance is named by a heading where there is more than one, and else on each line. -/
def Status.activeLines (status : Status) : List StatusLine :=
  if 1 < status.instanceNames.length then
    status.instanceNames.flatMap fun name =>
      .instanceHeading name ::
        (status.active.filter fun record => record.instanceName = name).flatMap
          (activeGrantLines status.now false)
  else status.active.flatMap (activeGrantLines status.now true)

def agingMarker (now createdAt : Int) : Text :=
  let since := " (since ".toList ++ clockTime createdAt ++ ")".toList
  if 4 * 3600 * second ≤ now - createdAt then since ++ " — **stale?**".toList
  else if 3600 * second ≤ now - createdAt then since
  else []

def waitingLine (now : Int) (record : GrantRecord) : StatusLine :=
  .waiting record.id record.instanceName (formatRemaining (now - record.createdAt))
    (agingMarker now record.createdAt)

def Status.awaitingLines (status : Status) : List StatusLine :=
  if status.pending = [] then [.noneAwaiting]
  else .awaitingHeading status.pending.length :: status.pending.map (waitingLine status.now)

/-- Only the commands that act on what the block lists. -/
def Status.footerParts (status : Status) : List Text :=
  (if status.pending = [] then []
    else ["Decide a request: `approve|reject <id> [expiry]`".toList]) ++
  (if status.active = [] then []
    else ["Revise: `undo <id>` (15s) · Kill: `revoke <id>` ".toList ++
      "(mass: `revoke <instance>` / `revoke all`)".toList])

def Status.footerLines (status : Status) : List StatusLine :=
  if status.footerParts = [] then [] else [.blank, .footer status.footerParts]

/-- `_status_lines` -/
def Status.lines (status : Status) : List StatusLine :=
  [.activeHeading] ++
    (if status.activeLines = [] then [.noneActive] else status.activeLines) ++ [.blank] ++
    status.awaitingLines ++ status.footerLines

/-- `_status_text` -/
def Status.text (status : Status) : Text :=
  ['\n'].intercalate (status.lines.map StatusLine.text)

example :
    Status.text ⟨[], [⟨1, "nc".toList, "why".toList, [⟨"docs".toList, Paths.READ⟩], .pending, none,
      0, none⟩], 4 * 3600 * second⟩ =
      ("**Active grants**\nnone\n\n**Awaiting your approval** (1):\n".toList ++
        "⏳ **#1** — nc — waiting 4h (since 00:00) — **stale?**\n\n".toList ++
        "Decide a request: `approve|reject <id> [expiry]`".toList) := by
  decide +kernel

/-! ## What the lines list -/

def StatusLine.activeId : StatusLine → Option Nat
  | grant rid _ _ _ => some rid
  | _ => none

def StatusLine.waitingId : StatusLine → Option Nat
  | waiting rid _ _ _ => some rid
  | _ => none

/-- How many requests the block says are awaiting approval. -/
def StatusLine.awaitingCount : StatusLine → Option Nat
  | noneAwaiting => some 0
  | awaitingHeading count => some count
  | _ => none

def activeIds (lines : List StatusLine) : List Nat := lines.filterMap StatusLine.activeId

def waitingIds (lines : List StatusLine) : List Nat := lines.filterMap StatusLine.waitingId

variable (store : Settings) (now : Int) (db : Database)

/-- What the block is rendered from when all its readings of the clock show `now`. -/
def statusAt : Status := ⟨activeGrants store now none db, pendingRecords store now db, now⟩

/-- An approval of the number at this instant is accepted. -/
def Approvable (rid : Nat) : Prop :=
  ∃ record db', (approve store now rid none none).run db = (.ok record, db')

variable {store now db}

/-! ## The active grants -/

theorem flatMap_single {α β : Type} [DecidableEq β] {key : β} {keys : List β} (hKeys : keys.Nodup)
    (hKey : key ∈ keys) (x : α) : (keys.flatMap fun k => if key = k then [x] else []) = [x] := by
  induction keys with
  | nil => cases hKey
  | cons k keys ih =>
    obtain ⟨hFresh, hRest⟩ := List.nodup_cons.mp hKeys
    rw [List.flatMap_cons]
    by_cases hSame : key = k
    · have hNone : (keys.flatMap fun k => if key = k then [x] else []) = [] := by
        refine List.flatMap_eq_nil_iff.mpr fun other hOther => if_neg ?_
        rintro rfl
        exact hFresh (hSame ▸ hOther)
      rw [if_pos hSame, hNone, List.append_nil]
    · rw [if_neg hSame, List.nil_append]
      exact ih hRest ((List.mem_cons.mp hKey).resolve_left hSame)

/-- Grouping by a key keeps every element once. -/
theorem flatMap_filter_perm {α β : Type} [DecidableEq β] {key : α → β} {keys : List β}
    (hKeys : keys.Nodup) {xs : List α} (h : ∀ x ∈ xs, key x ∈ keys) :
    (keys.flatMap fun k => xs.filter fun x => key x = k).Perm xs := by
  induction xs with
  | nil => simp
  | cons x xs ih =>
    obtain ⟨hFirst, hRest⟩ := List.forall_mem_cons.mp h
    have hSplit : (keys.flatMap fun k => (x :: xs).filter fun x => key x = k) =
        keys.flatMap fun k => (if key x = k then [x] else []) ++ xs.filter fun x => key x = k := by
      refine List.flatMap_congr fun k _ => ?_
      rw [List.filter_cons]
      by_cases hKey : key x = k
      · rw [if_pos (decide_eq_true hKey), if_pos hKey, List.singleton_append]
      · rw [if_neg (by simpa using hKey), if_neg hKey, List.nil_append]
    have hApart := List.flatMap_append_perm keys (fun k => if key x = k then [x] else [])
      fun k => xs.filter fun x => key x = k
    rw [flatMap_single hKeys hFirst x] at hApart
    rw [hSplit]
    exact hApart.symm.trans ((ih hRest).cons x)

theorem sortedSet_nodup (texts : List Text) : (sortedSet texts).Nodup :=
  (List.perm_insertionSort _ _).nodup_iff.mpr texts.nodup_dedup

theorem mem_sortedSet {texts : List Text} {text : Text} : text ∈ sortedSet texts ↔ text ∈ texts :=
  (List.perm_insertionSort _ _).mem_iff.trans List.mem_dedup

theorem activeIds_activeGrantLines (now : Int) (withInstance : Bool) (record : GrantRecord) :
    activeIds (activeGrantLines now withInstance record) = [record.id] := by
  have hItems : (record.items.map StatusLine.item).filterMap StatusLine.activeId = [] := by
    rw [List.filterMap_map]
    exact List.filterMap_eq_nil_iff.mpr fun _ _ => rfl
  rw [activeIds, activeGrantLines, List.filterMap_cons, hItems]
  rfl

theorem activeIds_flatMap (now : Int) (withInstance : Bool) (records : List GrantRecord) :
    activeIds (records.flatMap (activeGrantLines now withInstance)) = records.map GrantRecord.id := by
  rw [activeIds, List.filterMap_flatMap, List.map_eq_flatMap]
  exact List.flatMap_congr fun record _ => activeIds_activeGrantLines now withInstance record

/-- Grouped or not, every active grant has its line. -/
theorem activeIds_activeLines (status : Status) :
    (activeIds status.activeLines).Perm (status.active.map GrantRecord.id) := by
  rw [Status.activeLines]
  split
  · have hGroup : activeIds (status.instanceNames.flatMap fun name =>
        .instanceHeading name ::
          (status.active.filter fun record => record.instanceName = name).flatMap
            (activeGrantLines status.now false)) =
        (status.instanceNames.flatMap fun name =>
          status.active.filter fun record => record.instanceName = name).map GrantRecord.id := by
      rw [activeIds, List.filterMap_flatMap, List.map_flatMap]
      refine List.flatMap_congr fun name _ => ?_
      rw [List.filterMap_cons_none rfl]
      exact activeIds_flatMap _ _ _
    rw [hGroup]
    refine (flatMap_filter_perm (sortedSet_nodup _) fun record hRecord => ?_).map _
    exact mem_sortedSet.mpr (List.mem_map_of_mem hRecord)
  · rw [activeIds_flatMap]

/-! ## The whole block -/

theorem activeGrantLines_quiet {now : Int} {withInstance : Bool} {record : GrantRecord} :
    ∀ line ∈ activeGrantLines now withInstance record,
      line.waitingId = none ∧ line.awaitingCount = none := by
  refine List.forall_mem_cons.mpr ⟨⟨rfl, rfl⟩, fun line hLine => ?_⟩
  obtain ⟨shown, _, rfl⟩ := List.mem_map.mp hLine
  exact ⟨rfl, rfl⟩

/-- The lines of the active grants say nothing of what is awaited. -/
theorem activeLines_quiet (status : Status) :
    ∀ line ∈ status.activeLines, line.waitingId = none ∧ line.awaitingCount = none := by
  intro line hLine
  rw [Status.activeLines] at hLine
  split at hLine
  · obtain ⟨name, _, hLine⟩ := List.mem_flatMap.mp hLine
    rcases List.mem_cons.mp hLine with rfl | hLine
    · exact ⟨rfl, rfl⟩
    · obtain ⟨record, _, hLine⟩ := List.mem_flatMap.mp hLine
      exact activeGrantLines_quiet line hLine
  · obtain ⟨record, _, hLine⟩ := List.mem_flatMap.mp hLine
    exact activeGrantLines_quiet line hLine

theorem footerLines_quiet (status : Status) :
    ∀ line ∈ status.footerLines,
      line.activeId = none ∧ line.waitingId = none ∧ line.awaitingCount = none := by
  intro line hLine
  rw [Status.footerLines] at hLine
  split at hLine
  · cases hLine
  · rcases List.mem_pair.mp hLine with rfl | rfl <;> exact ⟨rfl, rfl, rfl⟩

theorem activeIds_awaitingLines (status : Status) : activeIds status.awaitingLines = [] := by
  refine List.filterMap_eq_nil_iff.mpr fun line hLine => ?_
  rw [Status.awaitingLines] at hLine
  split at hLine
  · rw [List.mem_singleton.mp hLine]
    rfl
  · rcases List.mem_cons.mp hLine with rfl | hLine
    · rfl
    · obtain ⟨record, _, rfl⟩ := List.mem_map.mp hLine
      rfl

theorem waitingIds_awaitingLines (status : Status) :
    waitingIds status.awaitingLines = status.pending.map GrantRecord.id := by
  rw [Status.awaitingLines]
  split
  · rename_i hNone
    rw [hNone]
    rfl
  · rw [waitingIds, List.filterMap_cons_none rfl, List.filterMap_map]
    exact congrFun List.filterMap_eq_map _

theorem awaitingCount_awaitingLines (status : Status) :
    status.awaitingLines.filterMap StatusLine.awaitingCount = [status.pending.length] := by
  rw [Status.awaitingLines]
  split
  · rename_i hNone
    rw [hNone]
    rfl
  · have hRest : (status.pending.map (waitingLine status.now)).filterMap StatusLine.awaitingCount =
        [] := by
      rw [List.filterMap_map]
      exact List.filterMap_eq_nil_iff.mpr fun _ _ => rfl
    rw [List.filterMap_cons, hRest]
    rfl

/-- What is read from the block is read from its three parts. -/
theorem filterMap_lines {α : Type} {f : StatusLine → Option α} (status : Status)
    (hHeading : f .activeHeading = none) (hNone : f .noneActive = none) (hBlank : f .blank = none) :
    status.lines.filterMap f = status.activeLines.filterMap f ++
      (status.awaitingLines.filterMap f ++ status.footerLines.filterMap f) := by
  have hActive : (if status.activeLines = [] then [.noneActive] else status.activeLines).filterMap f =
      status.activeLines.filterMap f := by
    split
    · rename_i hEmpty
      rw [hEmpty, List.filterMap_cons_none hNone]
    · rfl
  rw [Status.lines, List.filterMap_append, List.filterMap_append, List.filterMap_append,
    List.filterMap_append, hActive, List.filterMap_cons_none hHeading, List.filterMap_nil,
    List.nil_append, List.filterMap_cons_none hBlank, List.filterMap_nil, List.append_nil,
    List.append_assoc]

theorem activeIds_lines (status : Status) :
    (activeIds status.lines).Perm (status.active.map GrantRecord.id) := by
  have hFooter : status.footerLines.filterMap StatusLine.activeId = [] :=
    List.filterMap_eq_nil_iff.mpr fun line hLine => (footerLines_quiet status line hLine).1
  have hAwaiting : status.awaitingLines.filterMap StatusLine.activeId = [] :=
    activeIds_awaitingLines status
  rw [activeIds, filterMap_lines status rfl rfl rfl, hAwaiting, hFooter, List.append_nil,
    List.append_nil]
  exact activeIds_activeLines status

theorem waitingIds_lines (status : Status) :
    waitingIds status.lines = status.pending.map GrantRecord.id := by
  have hActive : status.activeLines.filterMap StatusLine.waitingId = [] :=
    List.filterMap_eq_nil_iff.mpr fun line hLine => (activeLines_quiet status line hLine).1
  have hFooter : status.footerLines.filterMap StatusLine.waitingId = [] :=
    List.filterMap_eq_nil_iff.mpr fun line hLine => (footerLines_quiet status line hLine).2.1
  rw [waitingIds, filterMap_lines status rfl rfl rfl, hActive, hFooter, List.nil_append,
    List.append_nil]
  exact waitingIds_awaitingLines status

theorem awaitingCount_lines (status : Status) :
    status.lines.filterMap StatusLine.awaitingCount = [status.pending.length] := by
  have hActive : status.activeLines.filterMap StatusLine.awaitingCount = [] :=
    List.filterMap_eq_nil_iff.mpr fun line hLine => (activeLines_quiet status line hLine).2
  have hFooter : status.footerLines.filterMap StatusLine.awaitingCount = [] :=
    List.filterMap_eq_nil_iff.mpr fun line hLine => (footerLines_quiet status line hLine).2.2
  rw [filterMap_lines status rfl rfl rfl, hActive, hFooter, List.nil_append, List.append_nil]
  exact awaitingCount_awaitingLines status

/-! ## What the block says -/

/-- The bot renders the block from `statusAt`, if the clock stands still meanwhile. -/
theorem readStatus_at (store : Settings) (now : Int) (d : Desk) :
    (readStatus store fun _ => now).run d =
      (.ok (statusAt store now d.db), { d with asked := d.asked + 3 }) := rfl

theorem mem_activeIds {rid : Nat} :
    rid ∈ activeIds (statusAt store now db).lines ↔
      ∃ row, db.grants.get? rid = some row ∧ effectiveState store now row = .active := by
  rw [(activeIds_lines _).mem_iff]
  constructor
  · intro hMem
    obtain ⟨record, hRecord, rfl⟩ := List.mem_map.mp hMem
    obtain ⟨row, expiry, hRow, hActive, hExpiry, hBefore, _⟩ := mem_activeGrants.mp hRecord
    exact ⟨row, hRow, effectiveState_eq_active.mpr ⟨hActive, expiry, hExpiry, hBefore⟩⟩
  · rintro ⟨row, hRow, hState⟩
    obtain ⟨hActive, expiry, hExpiry, hBefore⟩ := effectiveState_eq_active.mp hState
    refine List.mem_map.mpr ⟨toRecord store now rid row, ?_, rfl⟩
    exact mem_activeGrants.mpr
      ⟨row, expiry, hRow, hActive, hExpiry, hBefore, (fun _ h => by cases h), rfl⟩

/-- The requests that are listed as waiting are the ones that are stored as pending. -/
theorem mem_waitingIds {rid : Nat} :
    rid ∈ waitingIds (statusAt store now db).lines ↔
      ∃ row, db.grants.get? rid = some row ∧ row.state = .pending := by
  rw [waitingIds_lines]
  constructor
  · intro hMem
    obtain ⟨record, hRecord, rfl⟩ := List.mem_map.mp hMem
    obtain ⟨row, hRow, hState, _⟩ := mem_pendingRecords.mp hRecord
    exact ⟨row, hRow, hState⟩
  · rintro ⟨row, hRow, hState⟩
    exact List.mem_map.mpr
      ⟨toRecord store now rid row, mem_pendingRecords.mpr ⟨row, hRow, hState, rfl⟩, rfl⟩

theorem waitingIds_nodup : (waitingIds (statusAt store now db).lines).Nodup := by
  rw [waitingIds_lines]
  exact pendingRecords_nodup db

/-- An approval is accepted exactly of a request that is effectively pending. -/
theorem approvable_iff {rid : Nat} :
    Approvable store now db rid ↔
      ∃ row, db.grants.get? rid = some row ∧ effectiveState store now row = .pending := by
  constructor
  · rintro ⟨record, db', hRun⟩
    rcases approve_cases store now rid none none db with ⟨e, hError⟩ | ⟨_, _, hChange, _⟩
    · rw [hError] at hRun
      cases hRun
    · cases hChange with
      | approved found open_ _ _ _ => exact ⟨_, found, open_⟩
  · rintro ⟨row, hRow, hState⟩
    rw [Approvable, approve, Effect.bind_ok (assertPending_run hRow hState)]
    exact ⟨_, _, updateGrant_getRow _ hRow⟩

theorem timedOut_or_pending {row : Row} (hState : row.state = .pending) :
    row.TimedOut store now ∨ effectiveState store now row = .pending := by
  by_cases hOld : store.pendingTimeout ≤ now - row.createdAt
  · exact Or.inl ⟨hState, hOld⟩
  · exact Or.inr (effectiveState_eq_pending.mpr ⟨hState, by omega⟩)

end AccessBroker.MatrixBot
