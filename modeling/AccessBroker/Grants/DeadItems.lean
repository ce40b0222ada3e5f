import AccessBroker.Grants.Display

/-! # Items that grant nothing

A request is stored under what one normalization makes of its paths. The checker
normalizes again and never admits the root, so an item can be approved and useless.
-/

namespace AccessBroker.Grants
open Py Paths
set_option autoImplicit false

/-- The checker admits every item of the record for its own path and mode. -/
def GrantRecord.Alive (record : GrantRecord) (now : Int) : Prop :=
  ∀ item ∈ record.items, (checkAccess item.path item.mode record.grants now).allowed = true

/-- The path is no root, and stays one the checker accepts when it is normalized again. -/
def RawItem.Lasts (raw : RawItem) : Prop :=
  ∃ path norm again, raw.path = some path ∧ normalizePath path = some norm ∧
    normalizePath norm = some again ∧ again ≠ []

theorem within_root {granted : Text} (h : Within granted []) : granted = [] := by
  have hInside := (inside_iff granted []).mpr h
  simpa [inside, startsWith] using hInside

theorem RawItem.lasts_iff {raw : RawItem} {item : Item} (h : cleanItem raw = .ok item) :
    raw.Lasts ↔ ∃ root, item.enforced = some root := by
  obtain ⟨_, path, hPath, hNorm⟩ := cleanItem_ok h
  constructor
  · rintro ⟨path', norm, again, hPath', hNorm', hAgain, hNonempty⟩
    rw [hPath] at hPath'
    cases hPath'
    rw [hNorm] at hNorm'
    cases hNorm'
    exact ⟨again, Item.enforced_eq_some.mpr ⟨hAgain, hNonempty⟩⟩
  · rintro ⟨root, hRoot⟩
    obtain ⟨hAgain, hNonempty⟩ := Item.enforced_eq_some.mp hRoot
    exact ⟨path, item.path, root, hPath, hNorm, hAgain, hNonempty⟩

theorem GrantRecord.alive_iff {record : GrantRecord} {now expiry : Int}
    (hExpiry : record.expiresAt = some expiry) (hLive : now < expiry)
    (hItems : ∀ item ∈ record.items, item.Accepted) :
    record.Alive now ↔ ∀ item ∈ record.items, ∃ root, item.enforced = some root := by
  refine forall₂_congr fun item hItem => ?_
  rw [GrantRecord.allowed_iff item.path item.mode hExpiry hLive hItems]
  constructor
  · rintro ⟨_, norm, hNorm, other, _, root, hRoot, hWithin, _⟩
    refine ⟨norm, Item.enforced_eq_some.mpr ⟨hNorm, ?_⟩⟩
    rintro rfl
    exact (Item.enforced_eq_some.mp hRoot).2 (within_root hWithin)
  · rintro ⟨root, hRoot⟩
    exact ⟨(hItems item hItem).mode, root, (Item.enforced_eq_some.mp hRoot).1, item, hItem, root,
      hRoot, List.prefix_refl _, Suffices.refl _⟩

/-- The items of a grant in force come from the items of the request it was made by. -/
theorem Authorized.requested {cfg : Settings} {events : List Event} {rid : Nat} {name : Text}
    {items : List Item} {expiry : Int} (h : Authorized cfg events rid name items expiry) :
    ∃ event ∈ events, ∃ reason sent stored, event.op = .createRequest name reason sent ∧
      event.Creates rid name stored ∧
      ∀ item ∈ items, ∃ raw ∈ sent, cleanItem raw = .ok item := by
  obtain ⟨before, created, between, approved, after, stored, rfl, hCreates, hAuth, _⟩ := h
  obtain ⟨numbers, hChosen⟩ := hAuth.chosen
  have hSubset : items ⊆ stored := by
    cases numbers with
    | none =>
      cases hChosen
      exact List.Subset.refl _
    | some numbers => exact chooseItems_subset hChosen
  obtain ⟨time, op, result⟩ := created
  refine ⟨⟨time, op, result⟩, by simp, ?_⟩
  cases op with
  | createRequest name' reason sent =>
    cases result with
    | error e => exact hCreates.elim
    | ok record? =>
      cases record? with
      | none => exact hCreates.elim
      | some record =>
        obtain ⟨hId, rfl, hClean⟩ := hCreates
        exact ⟨reason, sent, stored, rfl, ⟨hId, rfl, hClean⟩,
          fun item hItem => (mem_cleanItems hClean).mp (hSubset hItem)⟩
  | _ => exact hCreates.elim

/-- While a grant is live, the checker admits each of its items exactly when the path that was
sent for it outlasts a second normalization. -/
theorem no_dead_grants_iff (cfg : Settings) (now : Int) (acts : List Act)
    (instance? : Option Text) :
    let s := Machine.run (Session.step cfg) (Session.start now) acts
    ∀ record ∈ activeGrants cfg s.now instance? s.db, ∃ event ∈ s.events, ∃ reason sent stored,
      event.op = .createRequest record.instanceName reason sent ∧
      event.Creates record.id record.instanceName stored ∧
      (record.Alive s.now ↔
        ∀ raw ∈ sent, ∀ item ∈ record.items, cleanItem raw = .ok item → raw.Lasts) := by
  intro s record hRecord
  obtain ⟨row, expiry, hRow, hActive, hExpiry, hLive, _, hEq⟩ := mem_activeGrants.mp hRecord
  have hAuth : Authorized cfg s.events record.id record.instanceName record.items expiry := by
    rw [hEq]
    exact ((Session.run_agrees now acts record.id).authorized _ _ _).mpr
      ⟨row, hRow, hActive, rfl, rfl, hExpiry⟩
  obtain ⟨event, hEvent, reason, sent, stored, hOp, hCreates, hSent⟩ := hAuth.requested
  refine ⟨event, hEvent, reason, sent, stored, hOp, hCreates, ?_⟩
  rw [GrantRecord.alive_iff (by rw [hEq]; exact hExpiry) hLive hAuth.accepted]
  constructor
  · exact fun h raw _ item hItem hClean => (RawItem.lasts_iff hClean).mpr (h item hItem)
  · intro h item hItem
    obtain ⟨raw, hRaw, hClean⟩ := hSent item hItem
    exact (RawItem.lasts_iff hClean).mp (h raw hRaw item hItem hClean)

theorem no_dead_grants_iff_docs :
    let s := Machine.run (Session.step defaultSettings) (Session.start 0)
      (approvedRequest "docs//a%20b".toList READ)
    ∃ event ∈ s.events, ∃ reason sent stored,
      event.op = .createRequest "nc".toList reason sent ∧ event.Creates 1 "nc".toList stored ∧
      ((approvedRecord "docs/a b".toList READ).Alive 0 ↔
        ∀ raw ∈ sent, ∀ item ∈ [⟨"docs/a b".toList, READ⟩], cleanItem raw = .ok item → raw.Lasts) :=
  no_dead_grants_iff defaultSettings 0 (approvedRequest "docs//a%20b".toList READ)
    (some "nc".toList) (approvedRecord "docs/a b".toList READ) (by decide +kernel)

/-- The instance root is accepted, approved, and opens nothing. -/
theorem root_item_dead :
    approvedRecord [] READ ∈ activeGrants defaultSettings 0 (some "nc".toList)
        (Machine.run (Session.step defaultSettings) (Session.start 0)
          (approvedRequest "/".toList READ)).db ∧
      ¬ (approvedRecord [] READ).Alive 0 := by
  refine ⟨by decide +kernel, fun h => ?_⟩
  have hRoot := h ⟨[], READ⟩ (by decide)
  exact absurd hRoot (by decide +kernel)

end AccessBroker.Grants
