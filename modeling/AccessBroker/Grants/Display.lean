import AccessBroker.Grants.Authority
import AccessBroker.Paths.Rereading

/-! # What is shown and what is enforced

The approver sees the stored path of each item; the checker normalizes that path once more before
it compares. The two agree exactly when the second normalization moves no item, and each item lies
below one that it keeps.
-/

namespace AccessBroker.Grants
open Py Paths
set_option autoImplicit false

/-- A grant record as the checker takes it: one entry for each item. -/
def GrantRecord.grants (record : GrantRecord) : List Grant :=
  record.items.map fun item => ⟨item.path, item.mode, record.expiresAt, record.id⟩

/-! ## Where stored items come from -/

/-- The item went through `create_request`. -/
structure Item.Accepted (item : Item) : Prop where
  mode : item.mode ∈ modes
  path : ∃ raw, normalizePath raw = some item.path

theorem cleanItem_ok {raw : RawItem} {item : Item} (h : cleanItem raw = .ok item) :
    item.mode ∈ modes ∧ ∃ path, raw.path = some path ∧ normalizePath path = some item.path := by
  obtain ⟨path?, mode?⟩ := raw
  cases mode? with
  | none => cases h
  | some mode =>
    simp only [cleanItem] at h
    split at h
    · cases h
    rename_i hMode
    split at h
    · cases h
    rename_i norm hNorm
    cases h
    exact ⟨Decidable.not_not.mp hMode, Option.bind_eq_some_iff.mp hNorm⟩

theorem cleanItem_accepted {raw : RawItem} {item : Item} (h : cleanItem raw = .ok item) :
    item.Accepted := by
  obtain ⟨hMode, path, _, hPath⟩ := cleanItem_ok h
  exact ⟨hMode, path, hPath⟩

theorem cleanItems_map {raw : List RawItem} {items : List Item} (h : cleanItems raw = .ok items) :
    raw.map cleanItem = items.map .ok := by
  induction raw generalizing items with
  | nil =>
    cases h
    rfl
  | cons first rest ih =>
    rw [cleanItems] at h
    cases hFirst : cleanItem first with
    | error e => simp [hFirst, bind, Except.bind] at h
    | ok clean =>
      cases hRest : cleanItems rest with
      | error e => simp [hFirst, hRest, bind, Except.bind] at h
      | ok cleaned =>
        simp only [hFirst, hRest, bind, Except.bind, pure, Except.pure, Except.ok.injEq] at h
        rw [← h, List.map_cons, List.map_cons, hFirst, ih hRest]

theorem mem_cleanItems {raw : List RawItem} {items : List Item} (h : cleanItems raw = .ok items)
    {item : Item} : item ∈ items ↔ ∃ sent ∈ raw, cleanItem sent = .ok item := by
  rw [← List.mem_map, cleanItems_map h]
  simp

theorem cleanItem_of_mem {raw : List RawItem} {items : List Item} (h : cleanItems raw = .ok items)
    {sent : RawItem} (hSent : sent ∈ raw) : ∃ item ∈ items, cleanItem sent = .ok item := by
  have hMem : cleanItem sent ∈ items.map .ok := by
    rw [← cleanItems_map h]
    exact List.mem_map_of_mem hSent
  obtain ⟨item, hItem, hClean⟩ := List.mem_map.mp hMem
  exact ⟨item, hItem, hClean.symm⟩

theorem cleanItems_accepted {raw : List RawItem} {items : List Item}
    (h : cleanItems raw = .ok items) : ∀ item ∈ items, item.Accepted := by
  intro item hItem
  obtain ⟨sent, _, hClean⟩ := (mem_cleanItems h).mp hItem
  exact cleanItem_accepted hClean

theorem chooseItems_subset {items chosen : List Item} {numbers : List (Option Int)}
    (h : chooseItems items numbers = .ok chosen) : chosen ⊆ items := by
  induction numbers generalizing chosen with
  | nil =>
    cases h
    simp
  | cons number rest ih =>
    cases number with
    | none => cases h
    | some n =>
      rw [chooseItems] at h
      split at h
      · cases h
      split at h
      · cases h
      rename_i item hItem
      cases hRest : chooseItems items rest with
      | error e => simp [hRest, bind, Except.bind] at h
      | ok others =>
        simp only [hRest, bind, Except.bind, pure, Except.pure, Except.ok.injEq] at h
        rw [← h]
        exact List.cons_subset.mpr ⟨List.mem_of_getElem? hItem, ih hRest⟩

theorem Event.Authorizes.chosen {cfg : Settings} {rid : Nat} {stored items : List Item}
    {expiry : Int} {e : Event} (h : e.Authorizes cfg rid stored items expiry) :
    ∃ numbers : Option (List (Option Int)),
      numbers.elim (.ok stored) (chooseItems stored) = .ok items := by
  obtain ⟨time, op, result⟩ := e
  cases op with
  | approve rid' text numbers =>
    cases result with
    | ok record => exact ⟨numbers, h.2.2.1⟩
    | error e => exact h.elim
  | _ => exact h.elim

theorem Authorized.accepted {cfg : Settings} {events : List Event} {rid : Nat} {name : Text}
    {items : List Item} {expiry : Int} (h : Authorized cfg events rid name items expiry) :
    ∀ item ∈ items, item.Accepted := by
  obtain ⟨before, created, between, approved, after, stored, _, hCreates, hAuth, _⟩ := h
  have hStored : ∀ item ∈ stored, item.Accepted := by
    unfold Event.Creates at hCreates
    split at hCreates
    · exact cleanItems_accepted hCreates.2.2
    · exact hCreates.elim
  obtain ⟨numbers, hChosen⟩ := hAuth.chosen
  cases numbers with
  | none =>
    cases hChosen
    exact hStored
  | some numbers => exact fun item hItem => hStored item (chooseItems_subset hChosen hItem)

/-! ## The comparison -/

/-- Some shown path is at or above the normalized request, with a mode that suffices. -/
def Shown (items : List Item) (path mode : Text) : Prop :=
  mode ∈ modes ∧ ∃ norm, normalizePath path = some norm ∧
    ∃ item ∈ items, Within item.path norm ∧ Suffices item.mode mode

/-- The checker admits a request on the record's items exactly when it is shown, and on one item
only what lies at or below the path shown for it. -/
structure GrantRecord.ShownIsEnforced (record : GrantRecord) (now : Int) : Prop where
  compared : ∀ path mode, (checkAccess path mode record.grants now).allowed = true ↔
    Shown record.items path mode
  confined : ∀ item ∈ record.items, ∀ path mode,
    (checkAccess path mode { record with items := [item] }.grants now).allowed = true →
      ∃ norm, normalizePath path = some norm ∧ Within item.path norm

/-- A second normalization moves no stored path, and keeps one at or above each, in a mode that
suffices. -/
structure Redisplays (items : List Item) : Prop where
  unmoved : ∀ item ∈ items, Unmoved item.path
  shown : ∀ item ∈ items, ∃ other ∈ items, Stable other.path ∧ Within other.path item.path ∧
    Suffices other.mode item.mode

/-- The path an item is enforced under: its stored path, normalized again. -/
def Item.enforced (item : Item) : Option Text :=
  (normalizePath item.path).filter (· ≠ [])

theorem Item.enforced_eq_some {item : Item} {root : Text} :
    item.enforced = some root ↔ normalizePath item.path = some root ∧ root ≠ [] := by
  simp [Item.enforced, Option.filter_eq_some_iff]

theorem GrantRecord.allowed_iff {record : GrantRecord} {now expiry : Int} (path mode : Text)
    (hExpiry : record.expiresAt = some expiry) (hLive : now < expiry)
    (hItems : ∀ item ∈ record.items, item.Accepted) :
    (checkAccess path mode record.grants now).allowed = true ↔
      mode ∈ modes ∧ ∃ norm, normalizePath path = some norm ∧
        ∃ item ∈ record.items, ∃ root, item.enforced = some root ∧ Within root norm ∧
          Suffices item.mode mode := by
  rw [checkAccess_allowed_iff]
  refine and_congr_right fun _ => exists_congr fun norm => and_congr_right fun _ => ?_
  constructor
  · rintro ⟨g, hg, hAdmits⟩
    obtain ⟨item, hItem, rfl⟩ := List.mem_map.mp hg
    obtain ⟨root, hRoot, hNonempty, hWithin⟩ := hAdmits.scope
    exact ⟨item, hItem, root, Item.enforced_eq_some.mpr ⟨hRoot, hNonempty⟩, hWithin, hAdmits.mode⟩
  · rintro ⟨item, hItem, root, hRoot, hWithin, hMode⟩
    obtain ⟨hRoot, hNonempty⟩ := Item.enforced_eq_some.mp hRoot
    exact ⟨_, List.mem_map.mpr ⟨item, hItem, rfl⟩, ⟨expiry, hExpiry, hLive⟩,
      (hItems item hItem).mode, hMode, root, hRoot, hNonempty, hWithin⟩

theorem Item.unmoved_iff {item : Item} :
    Unmoved item.path ↔ ∀ root, item.enforced = some root → root = item.path := by
  simp only [Unmoved, Item.enforced_eq_some, and_imp, Option.mem_def]

theorem Item.Accepted.stable_iff {item : Item} (h : item.Accepted) :
    Stable item.path ↔ normalizePath item.path = some item.path := by
  obtain ⟨raw, hRaw⟩ := h.path
  exact (normalizePath_fixed_iff hRaw).symm

section Enforcing

variable {record : GrantRecord} {now expiry : Int} (hExpiry : record.expiresAt = some expiry)
variable (hLive : now < expiry) (hItems : ∀ item ∈ record.items, item.Accepted)

include hExpiry hLive hItems

theorem GrantRecord.item_allowed_iff {item : Item} (hItem : item ∈ record.items)
    (path mode : Text) :
    (checkAccess path mode { record with items := [item] }.grants now).allowed = true ↔
      mode ∈ modes ∧ ∃ norm, normalizePath path = some norm ∧ ∃ root,
        item.enforced = some root ∧ Within root norm ∧ Suffices item.mode mode := by
  have hOnly : ∀ other ∈ [item], other.Accepted := by
    simpa using hItems item hItem
  refine Iff.trans (GrantRecord.allowed_iff path mode hExpiry hLive hOnly) ?_
  simp only [List.mem_singleton, exists_eq_left]

theorem GrantRecord.redisplays (h : record.ShownIsEnforced now) : Redisplays record.items := by
  have hUnmoved : ∀ item ∈ record.items, Unmoved item.path := by
    intro item hItem
    refine unmoved_iff.mpr fun root hRoot hSome => ?_
    obtain ⟨norm, hNorm, hWithin⟩ := h.confined item hItem item.path item.mode
      ((GrantRecord.item_allowed_iff hExpiry hLive hItems hItem item.path item.mode).mpr
        ⟨(hItems item hItem).mode, root, hRoot, root, Item.enforced_eq_some.mpr ⟨hRoot, hSome⟩,
          List.prefix_refl _, Suffices.refl _⟩)
    cases Option.some.inj (hNorm.symm.trans hRoot)
    exact hWithin
  refine ⟨hUnmoved, fun item hItem => ?_⟩
  obtain ⟨raw, hRaw⟩ := (hItems item hItem).path
  have hIn := (h.compared raw item.mode).mpr ⟨(hItems item hItem).mode, item.path, hRaw, item, hItem,
    List.prefix_refl _, Suffices.refl _⟩
  obtain ⟨_, norm, hNorm, other, hOther, root, hRoot, hWithin, hMode⟩ :=
    (GrantRecord.allowed_iff raw item.mode hExpiry hLive hItems).mp hIn
  cases Option.some.inj (hRaw.symm.trans hNorm)
  obtain rfl := Item.unmoved_iff.mp (hUnmoved other hOther) root hRoot
  refine ⟨other, hOther, ?_, hWithin, hMode⟩
  exact (hItems other hOther).stable_iff.mpr (Item.enforced_eq_some.mp hRoot).1

theorem GrantRecord.shownIsEnforced (h : Redisplays record.items) : record.ShownIsEnforced now := by
  refine ⟨fun path mode => ?_, fun item hItem path mode hAllowed => ?_⟩
  · rw [GrantRecord.allowed_iff path mode hExpiry hLive hItems]
    refine and_congr_right fun _ => exists_congr fun norm => and_congr_right fun _ => ?_
    constructor
    · rintro ⟨item, hItem, root, hRoot, hWithin, hMode⟩
      obtain rfl := Item.unmoved_iff.mp (h.unmoved item hItem) root hRoot
      exact ⟨item, hItem, hWithin, hMode⟩
    · rintro ⟨item, hItem, hWithin, hMode⟩
      obtain ⟨other, hOther, hStable, hAbove, hMode'⟩ := h.shown item hItem
      have hSome : other.path ≠ [] := fun hNone => hStable.blank (by rw [hNone]; rfl)
      exact ⟨other, hOther, other.path,
        Item.enforced_eq_some.mpr ⟨(hItems other hOther).stable_iff.mp hStable, hSome⟩,
        hAbove.trans hWithin, Suffices.trans hMode' hMode⟩
  · obtain ⟨_, norm, hNorm, root, hRoot, hWithin, _⟩ :=
      (GrantRecord.item_allowed_iff hExpiry hLive hItems hItem path mode).mp hAllowed
    obtain rfl := Item.unmoved_iff.mp (h.unmoved item hItem) root hRoot
    exact ⟨norm, hNorm, hWithin⟩

theorem GrantRecord.shownIsEnforced_iff :
    record.ShownIsEnforced now ↔ Redisplays record.items :=
  ⟨GrantRecord.redisplays hExpiry hLive hItems, GrantRecord.shownIsEnforced hExpiry hLive hItems⟩

end Enforcing

/-- Of a single item: its stored path decodes no further. -/
theorem Item.Accepted.redisplays_singleton {item : Item} (h : item.Accepted) :
    Redisplays [item] ↔ Stable item.path := by
  constructor
  · rintro ⟨_, hShown⟩
    obtain ⟨other, hOther, hStable, _⟩ := hShown item List.mem_cons_self
    rwa [List.mem_singleton.mp hOther] at hStable
  · intro hStable
    have hKept := h.stable_iff.mp hStable
    refine ⟨fun other hOther root hRoot _ => ?_, fun other hOther => ?_⟩
    · rw [List.mem_singleton.mp hOther] at hRoot ⊢
      exact (Option.some.inj (hKept.symm.trans hRoot)).symm
    · rw [List.mem_singleton.mp hOther]
      exact ⟨item, List.mem_cons_self, hStable, List.prefix_refl _, Suffices.refl _⟩

def approvedRequest (path mode : Text) : List Act :=
  [.call (.createRequest "nc".toList (some "need it".toList) [⟨some path, some mode⟩]),
    .call (.approve 1 none none)]

def approvedRecord (path mode : Text) : GrantRecord where
  id := 1
  instanceName := "nc".toList
  reason := "need it".toList
  items := [⟨path, mode⟩]
  state := .active
  expiresAt := some defaultGrantDuration
  createdAt := 0
  stateSource := some "approval".toList

def defaultSettings : Settings := ⟨defaultPendingTimeout, defaultGrantDuration, none⟩

theorem shown_is_enforced_iff (cfg : Settings) (now : Int) (acts : List Act)
    (instance? : Option Text) :
    let s := Machine.run (Session.step cfg) (Session.start now) acts
    ∀ record ∈ activeGrants cfg s.now instance? s.db,
      record.ShownIsEnforced s.now ↔ Redisplays record.items := by
  intro s record hRecord
  obtain ⟨row, expiry, hRow, hActive, hExpiry, hLive, _, hEq⟩ := mem_activeGrants.mp hRecord
  have hAuth := ((Session.run_agrees now acts record.id).authorized _ _ _).mpr
    ⟨row, hRow, hActive, rfl, rfl, hExpiry⟩
  refine GrantRecord.shownIsEnforced_iff (by rw [hEq]; exact hExpiry) hLive ?_
  rw [hEq]
  exact hAuth.accepted

theorem shown_is_enforced_docs :
    approvedRecord "docs/a b".toList READ ∈ activeGrants defaultSettings 0 (some "nc".toList)
        (Machine.run (Session.step defaultSettings) (Session.start 0)
          (approvedRequest "/docs//a%20b/".toList READ)).db ∧
      (approvedRecord "docs/a b".toList READ).ShownIsEnforced 0 :=
  have hActive := by decide +kernel
  have hAccepted : Item.Accepted ⟨"docs/a b".toList, READ⟩ :=
    ⟨by decide, "/docs//a%20b/".toList, by decide +kernel⟩
  ⟨hActive, (shown_is_enforced_iff defaultSettings 0 (approvedRequest "/docs//a%20b/".toList READ)
    (some "nc".toList) _ hActive).mpr
      (hAccepted.redisplays_singleton.mpr ⟨by decide, by decide, by decide +kernel⟩)⟩

/-- The item is shown as `%61` and enforced as `a`. -/
theorem escaped_item_enforced_elsewhere :
    approvedRecord "%61".toList READ ∈ activeGrants defaultSettings 0 (some "nc".toList)
        (Machine.run (Session.step defaultSettings) (Session.start 0)
          (approvedRequest "%2525252561".toList READ)).db ∧
      ¬ (approvedRecord "%61".toList READ).ShownIsEnforced 0 := by
  refine ⟨by decide +kernel, fun h => ?_⟩
  obtain ⟨_, norm, hNorm, item, hItem, hWithin, _⟩ := (h.compared "a".toList READ).mp (by decide +kernel)
  cases List.mem_singleton.mp hItem
  have hA : normalizePath "a".toList = some "a".toList := by decide +kernel
  rw [hA] at hNorm
  cases hNorm
  exact absurd hWithin (by decide +kernel)

end AccessBroker.Grants
