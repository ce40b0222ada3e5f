import AccessBroker.Config
import AccessBroker.Grants.Authority

/-! # The configured lifecycle

`wire_components` opens the store without the validated hours, so its requests time out and
its approvals last by the store's own defaults.
-/

namespace AccessBroker.Grants
open Py Paths Config
set_option autoImplicit false

def wireStore (config : Validated) : Settings :=
  ⟨defaultPendingTimeout, defaultGrantDuration, some config.instances⟩

/-- So many microseconds are that many hours or more. -/
def Elapsed (hours : Number) (elapsed : Int) : Prop :=
  match hours with
  | .finite value => value * 3600 * second ≤ elapsed
  | .infinite _ | .nan => False

/-- The first microsecond at which the hours have elapsed. -/
def micros : Number → Option Int
  | .finite value => some ⌈value * 3600 * second⌉
  | .infinite _ | .nan => none

theorem elapsed_iff {hours : Number} {elapsed : Int} :
    Elapsed hours elapsed ↔ ∃ least, micros hours = some least ∧ least ≤ elapsed := by
  cases hours with
  | finite value => simp [Elapsed, micros, Int.ceil_le]
  | infinite | nan => simp [Elapsed, micros]

/-- The hours that have elapsed from that reading of a clock on, and not before. -/
theorem micros_eq_some {hours : Number} {duration : Int} (hPositive : 0 < duration)
    (h : ∀ elapsed, 0 ≤ elapsed → (duration ≤ elapsed ↔ Elapsed hours elapsed)) :
    micros hours = some duration := by
  obtain ⟨least, hLeast, hLe⟩ := elapsed_iff.mp ((h duration hPositive.le).mp (le_refl _))
  have hElapsed : Elapsed hours (max least 0) := elapsed_iff.mpr ⟨least, hLeast, le_max_left _ _⟩
  have hGe := (h _ (le_max_right _ _)).mpr hElapsed
  rw [hLeast, Option.some.injEq]
  omega

/-- An approval without a typed expiry that selects something. -/
def Event.DefaultApproves (rid : Nat) (time : Int) : Event → Prop
  | ⟨time', .approve rid' none itemNumbers, .ok _⟩ =>
    time' = time ∧ rid' = rid ∧ itemNumbers ≠ some []
  | _ => False

theorem Event.not_defaultApproves_error {rid : Nat} {time now : Int} {op : Operation}
    {err : GrantError} : ¬ Event.DefaultApproves rid time ⟨now, op, .error err⟩ := by
  cases op with
  | approve _ expiry _ => cases expiry <;> exact id
  | createRequest | reject | revoke | recordPosted | restart => exact id

/-- The number was approved so at this time, and was not revoked since. -/
def Unrevoked (events : List Event) (rid : Nat) (time : Int) : Prop :=
  ∃ before approved after, events = before ++ approved :: after ∧
    approved.DefaultApproves rid time ∧ ∀ e ∈ after, ¬ e.Revokes rid

/-- Undecided requests expire after the configured hours and not earlier, and approvals
without a typed expiry last for the configured hours. -/
structure Session.Honours (cfg : Settings) (lifecycle : LifecycleConfig) (s : Session) : Prop where
  expires : ∀ rid row, s.db.grants.get? rid = some row → row.state = .pending →
    ∀ now, effectiveState cfg now row = .expired ↔
      Elapsed lifecycle.pendingTimeoutHours (now - row.createdAt)
  lasts : ∀ rid time, Unrevoked s.events rid time →
    ∃ row, s.db.grants.get? rid = some row ∧ ∀ now, time ≤ now →
      (effectiveState cfg now row = .active ↔ ¬ Elapsed lifecycle.defaultGrantHours (now - time))

/-! ## What a default approval leaves -/

def Session.DefaultsKept (cfg : Settings) (s : Session) : Prop :=
  ∀ rid time, Unrevoked s.events rid time →
    ∃ row, s.db.grants.get? rid = some row ∧ row.state = .active ∧
      row.expiresAt = some (time + cfg.defaultDuration)

section Steps

variable {cfg : Settings}

theorem unrevoked_concat {events : List Event} {e : Event} {rid : Nat} {time : Int} :
    Unrevoked (events ++ [e]) rid time ↔
      (Unrevoked events rid time ∧ ¬ e.Revokes rid) ∨ e.DefaultApproves rid time := by
  constructor
  · rintro ⟨before, approved, after, hEvents, hApproved, hKept⟩
    rcases concat_eq_append_cons.mp hEvents with ⟨_, _, rfl⟩ | ⟨after', rfl, rfl⟩
    · exact Or.inr hApproved
    · refine Or.inl ⟨⟨before, approved, after', rfl, hApproved, ?_⟩, hKept e (by simp)⟩
      exact fun x hx => hKept x (List.mem_append_left _ hx)
  · rintro (⟨⟨before, approved, after, rfl, hApproved, hKept⟩, hLast⟩ | hApproved)
    · refine ⟨before, approved, after ++ [e], by simp, hApproved, fun x hx => ?_⟩
      rcases List.mem_append.mp hx with h | h
      · exact hKept x h
      · cases List.mem_singleton.mp h
        exact hLast
    · exact ⟨events, e, [], rfl, hApproved, by simp⟩

theorem Change.keeps_active {now : Int} {db db' : Database} {op : Operation}
    {result : Option GrantRecord} (h : Change cfg now db op result db') {rid : Nat} {row : Row}
    (hRow : db.grants.get? rid = some row) (hActive : row.state = .active)
    (hRevokes : ¬ Event.Revokes rid ⟨now, op, .ok result⟩) : db'.grants.get? rid = some row := by
  have hPending {other : Nat} {row' : Row} (hOther : db.grants.get? other = some row')
      (hOpen : effectiveState cfg now row' = .pending) : rid ≠ other := by
    rintro rfl
    cases hRow.symm.trans hOther
    rw [(effectiveState_eq_pending.mp hOpen).1] at hActive
    cases hActive
  cases h with
  | created _ _ _ =>
    rw [Database.putGrants_grants, AutoTable.get?_insert,
      if_neg (Nat.ne_of_lt (AutoTable.get?_lt hRow))]
    exact hRow
  | approved hOther hOpen _ _ _ | emptied hOther hOpen | rejected hOther hOpen
  | withdrawn hOther hOpen =>
    rw [Database.putGrants_grants, AutoTable.get?_modify, if_neg (hPending hOther hOpen)]
    exact hRow
  | @revoked other _ hOther hLive =>
    rw [Database.putGrants_grants, AutoTable.get?_modify, if_neg]
    · exact hRow
    · rintro rfl
      exact hRevokes rfl
  | posted _ => exact hRow
  | restarted =>
    rw [restartDiscardPending, AutoTable.get?_update, hRow, Option.map_some, Row.discard, if_neg]
    rw [hActive]
    decide

theorem defaultsKept_step (s : Session) (act : Act) (h : s.DefaultsKept cfg) :
    (s.step cfg act).DefaultsKept cfg := by
  cases act with
  | tick elapsed => exact h
  | call op =>
    rcases op.run_cases cfg s.now s.db with ⟨e, hRun⟩ | ⟨result, db', hChange, hRun⟩
    · rw [Session.step_call hRun]
      intro rid time hUnrevoked
      rcases unrevoked_concat.mp hUnrevoked with ⟨hBefore, _⟩ | hLast
      · exact h rid time hBefore
      · exact absurd hLast Event.not_defaultApproves_error
    · rw [Session.step_call hRun]
      intro rid time hUnrevoked
      rcases unrevoked_concat.mp hUnrevoked with ⟨hBefore, hRevokes⟩ | hLast
      · obtain ⟨row, hRow, hActive, hExpiry⟩ := h rid time hBefore
        exact ⟨row, hChange.keeps_active hRow hActive hRevokes, hActive, hExpiry⟩
      · cases hChange with
        | @approved rid' expiry numbers row parsed items hRow hOpen hExpires hChosen hSelected =>
          cases expiry with
          | some text => exact hLast.elim
          | none =>
            obtain ⟨rfl, rfl, _⟩ := hLast
            cases hExpires
            refine ⟨row.activate s.now items (s.now + cfg.defaultDuration), ?_, rfl, rfl⟩
            rw [Database.putGrants_grants, AutoTable.get?_modify, if_pos rfl, hRow]
            rfl
        | @emptied rid' expiry =>
          cases expiry with
          | some text => exact hLast.elim
          | none => exact absurd rfl hLast.2.2
        | created | rejected | withdrawn | revoked | posted | restarted => exact hLast.elim

theorem run_defaultsKept (cfg : Settings) (start : Int) (acts : List Act) :
    (Machine.run (Session.step cfg) (Session.start start) acts).DefaultsKept cfg := by
  refine Machine.run_invariant (fun s act => defaultsKept_step s act) ?_ acts
  rintro rid time ⟨before, approved, after, hEvents, _⟩
  cases before <;> cases hEvents

end Steps

/-! ## The wired store -/

section Wired

variable (config : Validated)

theorem honours_of_defaults (hPending : micros config.lifecycle.pendingTimeoutHours =
      some defaultPendingTimeout)
    (hDefault : micros config.lifecycle.defaultGrantHours = some defaultGrantDuration)
    {s : Session} (h : s.DefaultsKept (wireStore config)) :
    s.Honours (wireStore config) config.lifecycle where
  expires rid row _ hState now := by
    rw [effectiveState_expired_iff hState, elapsed_iff, hPending]
    simp [wireStore]
  lasts rid time hUnrevoked := by
    obtain ⟨row, hRow, hActive, hExpiry⟩ := h rid time hUnrevoked
    refine ⟨row, hRow, fun now _ => ?_⟩
    rw [effectiveState_eq_active, elapsed_iff, hDefault, hExpiry]
    have hDuration : (wireStore config).defaultDuration = defaultGrantDuration := rfl
    simp only [hActive, true_and, Option.some.injEq, exists_eq_left', hDuration]
    omega

def defaultApproval (name : Text) : List Act :=
  [.call (.createRequest name (some "why".toList) [⟨some "docs".toList, some READ⟩]),
    .call (.approve 1 none none)]

def docsRow (name : Text) : Row := pendingRow 0 name "why".toList [⟨"docs".toList, READ⟩]

def docsRequested (name : Text) : Database :=
  Database.empty.putGrants (Database.empty.grants.insert (docsRow name))

theorem docsRequested_row (name : Text) : (docsRequested name).grants.get? 1 = some (docsRow name) := by
  rw [docsRequested, Database.putGrants_grants, AutoTable.get?_insert]
  exact if_pos rfl

variable {config}

theorem request_docs {name : Text} (hName : name ∈ config.instances) :
    ∃ result, ((Operation.createRequest name (some "why".toList)
      [⟨some "docs".toList, some READ⟩]).run (wireStore config) 0).run Database.empty =
        (.ok result, docsRequested name) := by
  have hAllowed : ¬ (wireStore config).allowedInstances.any (name ∉ ·) = true := by
    simpa [wireStore] using hName
  have hClean : cleanItems [⟨some "docs".toList, some READ⟩] = .ok [⟨"docs".toList, READ⟩] := by
    decide +kernel
  have hRun : (createRequest (wireStore config) 0 name (some "why".toList)
      [⟨some "docs".toList, some READ⟩]).run Database.empty =
        (.ok (toRecord (wireStore config) 0 1 (docsRow name)), docsRequested name) := by
    rw [createRequest]
    dsimp only
    rw [if_neg (by decide +kernel), if_neg (List.cons_ne_nil _ _), if_neg hAllowed, hClean]
    dsimp only
    rw [Effect.bind_ok (Effect.get_run _), Effect.bind_ok (Effect.modify_run _ _)]
    exact getRow_run (docsRequested_row name)
  exact ⟨_, Effect.bind_ok hRun⟩

theorem approve_docs (config : Validated) (name : Text) :
    ∃ result db', ((Operation.approve 1 none none).run (wireStore config) 0).run
      (docsRequested name) = (.ok result, db') := by
  have hYoung : (0 : Int) - 0 < defaultPendingTimeout := by decide
  have hOpen : effectiveState (wireStore config) 0 (docsRow name) = .pending :=
    effectiveState_eq_pending.mpr ⟨rfl, hYoung⟩
  have hAssert : (assertPending (wireStore config) 0 1).run (docsRequested name) =
      (.ok (docsRow name), docsRequested name) := by
    rw [assertPending, Effect.bind_ok (Effect.get_run _), docsRequested_row]
    dsimp only
    rw [hOpen, if_neg (by decide)]
    rfl
  have hApprove : ∃ record db', (approve (wireStore config) 0 1 none none).run
      (docsRequested name) = (.ok record, db') := by
    rw [approve, Effect.bind_ok hAssert]
    exact ⟨_, _, updateGrant_getRow _ (docsRequested_row name)⟩
  obtain ⟨record, db', hRun⟩ := hApprove
  exact ⟨_, db', Effect.bind_ok hRun⟩

theorem defaultApproval_states {name : Text} (hName : name ∈ config.instances)
    {P : Session → Prop} (h : Machine.EveryState (Session.step (wireStore config)) P
      (Session.start 0) (defaultApproval name)) :
    (∃ s, P s ∧ s.db.grants.get? 1 = some (docsRow name)) ∧
      ∃ s, P s ∧ Unrevoked s.events 1 0 ∧ s.DefaultsKept (wireStore config) := by
  obtain ⟨result, hRequest⟩ := request_docs hName
  obtain ⟨approval, db', hApprove⟩ := approve_docs config name
  have hFirst := h ((defaultApproval name).take 1) ((defaultApproval name).drop 1) rfl
  have hSecond := h (defaultApproval name) [] (List.append_nil _).symm
  have hKept := run_defaultsKept (wireStore config) 0 (defaultApproval name)
  have hRequested : (Session.start 0).step (wireStore config) (.call (.createRequest name
      (some "why".toList) [⟨some "docs".toList, some READ⟩])) = _ := Session.step_call hRequest
  constructor
  · refine ⟨_, hFirst, ?_⟩
    rw [defaultApproval, List.take_succ_cons, List.take_zero, Machine.run_cons, Machine.run_nil,
      hRequested]
    exact docsRequested_row name
  · refine ⟨_, hSecond, ?_, hKept⟩
    rw [defaultApproval, Machine.run_cons, Machine.run_cons, Machine.run_nil, hRequested,
      Session.step_call hApprove]
    exact unrevoked_concat.mpr (Or.inr ⟨rfl, rfl, by simp⟩)

variable (config)

/-- Every run of the wired store honours the configured hours exactly if they are the store's
own: twelve for a pending request, and twenty-four for a grant. -/
theorem lifecycle_honoured_iff :
    (∀ start acts, Machine.EveryState (Session.step (wireStore config))
      (Session.Honours (wireStore config) config.lifecycle) (Session.start start) acts) ↔
    micros config.lifecycle.pendingTimeoutHours = some (12 * 3600 * second) ∧
      micros config.lifecycle.defaultGrantHours = some (24 * 3600 * second) := by
  constructor
  · intro h
    obtain ⟨name, hName⟩ := List.exists_mem_of_ne_nil _ config.instances_nonempty
    obtain ⟨⟨s, hRequested, hRow⟩, s', hApproved, hUnrevoked, hKept⟩ :=
      defaultApproval_states hName (h 0 (defaultApproval name))
    constructor
    · refine micros_eq_some (by decide) fun now _ => ?_
      have hExpires := hRequested.expires 1 _ hRow rfl now
      have hCreated : now - (docsRow name).createdAt = now := Int.sub_zero now
      rw [effectiveState_expired_iff rfl, hCreated] at hExpires
      exact hExpires
    · obtain ⟨row, hRow', hActive, hExpiry⟩ := hKept 1 0 hUnrevoked
      obtain ⟨_, hSame, hLasts⟩ := hApproved.lasts 1 0 hUnrevoked
      cases hRow'.symm.trans hSame
      refine micros_eq_some (by decide) fun now hNow => ?_
      have hLive := hLasts now hNow
      rw [effectiveState_eq_active, hExpiry, Int.sub_zero] at hLive
      simp only [hActive, true_and, Option.some.injEq, exists_eq_left', zero_add] at hLive
      rw [← Int.not_lt]
      exact (not_congr hLive).trans not_not
  · rintro ⟨hPending, hDefault⟩ start acts pre post _
    exact honours_of_defaults config hPending hDefault
      (run_defaultsKept (wireStore config) start pre)

end Wired

def oneHour : Validated :=
  ⟨⟨.finite 1, .finite 24, by decide, by decide⟩, ["nc".toList], by simp⟩

example :
    (lifecycle [("pending_timeout_hours".toList, .number (.finite 1))]).toOption.map
      (fun accepted => (accepted.pendingTimeoutHours, accepted.defaultGrantHours)) =
        some (oneHour.lifecycle.pendingTimeoutHours, oneHour.lifecycle.defaultGrantHours) := by
  decide +kernel

/-- After that hour the request is still pending. -/
theorem one_hour_ignored :
    ¬ ∀ start acts, Machine.EveryState (Session.step (wireStore oneHour))
      (Session.Honours (wireStore oneHour) oneHour.lifecycle) (Session.start start) acts := by
  intro h
  have hName : "nc".toList ∈ oneHour.instances := List.mem_singleton.mpr rfl
  obtain ⟨⟨s, hHonours, hRow⟩, _⟩ :=
    defaultApproval_states hName (h 0 (defaultApproval "nc".toList))
  have hElapsed : Elapsed oneHour.lifecycle.pendingTimeoutHours
      (3600 * second - (docsRow "nc".toList).createdAt) := by
    rw [elapsed_iff]
    exact ⟨3600 * second, by decide +kernel, le_refl _⟩
  have hExpired := (hHonours.expires 1 _ hRow rfl (3600 * second)).mpr hElapsed
  rw [effectiveState_expired_iff rfl] at hExpired
  revert hExpired
  decide +kernel

end AccessBroker.Grants
