import AccessBroker.Grants.History

/-! # Decided numbers

Which moves of the effective state a step of a session makes. Every operation
reads the effective state before it writes, except the restart rule: it selects
rows by the stored column alone.
-/

namespace AccessBroker.Grants
open Py Paths
set_option autoImplicit false

/-- The arrows of the lifecycle, and staying put. -/
inductive State.Moves : State → State → Prop where
  | stay (state : State) : Moves state state
  | approve : Moves .pending .active
  | reject : Moves .pending .rejected
  | silence : Moves .pending .expired
  | expiry : Moves .active .expired
  | revoke : Moves .active .revoked

theorem State.Moves.eq_of_final {state state' : State} (h : state.Moves state')
    (hPending : state ≠ .pending) (hActive : state ≠ .active) : state' = state := by
  cases h with
  | stay => rfl
  | approve | reject | silence => exact absurd rfl hPending
  | expiry | revoke => exact absurd rfl hActive

variable {cfg : Settings}

def Session.effective (cfg : Settings) (s : Session) (rid : Nat) : Option State :=
  (s.db.grants.get? rid).map (effectiveState cfg s.now)

def Session.MovesTo (cfg : Settings) (s s' : Session) : Prop :=
  ∀ rid state, s.effective cfg rid = some state →
    ∃ state', s'.effective cfg rid = some state' ∧ state.Moves state'

def Row.TimedOut (cfg : Settings) (now : Int) (row : Row) : Prop :=
  row.state = .pending ∧ cfg.pendingTimeout ≤ now - row.createdAt

theorem effectiveState_timedOut {now : Int} {row : Row} (h : row.TimedOut cfg now) :
    effectiveState cfg now row = .expired := by
  rw [effectiveState, h.1]
  exact if_pos h.2

theorem effectiveState_tick (now : Int) (elapsed : Nat) (row : Row) :
    (effectiveState cfg now row).Moves (effectiveState cfg (now + elapsed) row) := by
  cases hState : row.state with
  | pending =>
    simp only [effectiveState, hState]
    split
    · rw [if_pos (by omega)]
      exact .stay _
    · split
      · exact .silence
      · exact .stay _
  | active =>
    obtain ⟨expiry, hExpiry⟩ := Option.ne_none_iff_exists'.mp (row.active_expires hState)
    simp only [effectiveState, hState, hExpiry, Option.all_some, decide_eq_true_eq]
    split
    · rw [if_pos (by omega)]
      exact .stay _
    · split
      · exact .expiry
      · exact .stay _
  | expired | revoked | rejected =>
    simp only [effectiveState, hState]
    exact .stay _

theorem effectiveState_activate_moves {now expiry : Int} {items : List Item} {row : Row} :
    State.Moves .pending (effectiveState cfg now (row.activate now items expiry)) := by
  simp only [effectiveState, Row.activate, Option.all_some, decide_eq_true_eq]
  split
  · exact .silence
  · exact .approve

theorem movesTo_modify {s : Session} {event : Event} {rid : Nat} {row : Row} {f : Row → Row}
    (hRow : s.db.grants.get? rid = some row)
    (hMoves : (effectiveState cfg s.now row).Moves (effectiveState cfg s.now (f row))) :
    s.MovesTo cfg
      ⟨s.db.putGrants (s.db.grants.modify rid f), s.now, s.events ++ [event]⟩ := by
  intro other state hState
  simp only [Session.effective, Database.putGrants_grants, AutoTable.get?_modify] at hState ⊢
  split
  · rename_i hEq
    rw [hEq, hRow] at hState
    cases hState
    exact ⟨_, by rw [hRow]; rfl, hMoves⟩
  · exact ⟨state, hState, .stay state⟩

/-- Every operation but the restart moves each number along an arrow. -/
theorem Change.movesTo {s : Session} {op : Operation} {result : Option GrantRecord}
    {db' : Database} {event : Event} (h : Change cfg s.now s.db op result db')
    (hRestart : op = .restart →
      ∀ rid row, s.db.grants.get? rid = some row → ¬ row.TimedOut cfg s.now) :
    s.MovesTo cfg ⟨db', s.now, s.events ++ [event]⟩ := by
  cases h with
  | created _ _ _ =>
    intro rid state hState
    refine ⟨state, ?_, .stay state⟩
    obtain ⟨row, hRow, hEffective⟩ := Option.map_eq_some_iff.mp hState
    simp only [Session.effective, Database.putGrants_grants, AutoTable.get?_insert]
    rw [if_neg (Nat.ne_of_lt (AutoTable.get?_lt hRow))]
    exact hState
  | approved hRow hOpen _ _ _ =>
    exact movesTo_modify hRow (by rw [hOpen]; exact effectiveState_activate_moves)
  | emptied hRow hOpen => exact movesTo_modify hRow (by rw [hOpen]; exact .reject)
  | rejected hRow hOpen => exact movesTo_modify hRow (by rw [hOpen]; exact .reject)
  | withdrawn hRow hOpen => exact movesTo_modify hRow (by rw [hOpen]; exact .reject)
  | revoked hRow hLive => exact movesTo_modify hRow (by rw [hLive]; exact .revoke)
  | posted _ => exact fun rid state hState => ⟨state, hState, .stay state⟩
  | restarted =>
    intro rid state hState
    obtain ⟨row, hRow, rfl⟩ := Option.map_eq_some_iff.mp hState
    refine ⟨effectiveState cfg s.now row.discard, ?_, ?_⟩
    · simp only [Session.effective, restartDiscardPending, AutoTable.get?_update, hRow,
        Option.map_some]
    · rw [Row.discard]
      split
      · rename_i hPending
        have hYoung := hRestart rfl rid row hRow
        rw [effectiveState_eq_pending.mpr ⟨hPending, by
          by_contra hOld
          exact hYoung ⟨hPending, by omega⟩⟩]
        exact .reject
      · exact .stay _

/-- The restart rule rewrites a request that already reads as expired. -/
theorem restart_rewrites {s : Session} {rid : Nat} {row : Row}
    (hRow : s.db.grants.get? rid = some row) (hOld : row.TimedOut cfg s.now) :
    s.effective cfg rid = some .expired ∧
      (s.step cfg (.call .restart)).effective cfg rid = some .rejected := by
  refine ⟨by rw [Session.effective, hRow, Option.map_some, effectiveState_timedOut hOld], ?_⟩
  rw [show s.step cfg (.call .restart) = _ from Session.step_call rfl]
  simp only [Session.effective, restartDiscardPending, AutoTable.get?_update, hRow,
    Option.map_some, Row.discard, if_pos hOld.1]
  rfl

/-- A restart finds no request that has timed out. -/
def Session.RestartsClean (cfg : Settings) (s : Session) (act : Act) : Prop :=
  act = .call .restart → ∀ rid row, s.db.grants.get? rid = some row → ¬ row.TimedOut cfg s.now

theorem Session.movesTo_step_iff (s : Session) (cfg : Settings) (act : Act) :
    s.MovesTo cfg (s.step cfg act) ↔ s.RestartsClean cfg act := by
  constructor
  · rintro h rfl rid row hRow hOld
    obtain ⟨hExpired, hRejected⟩ := restart_rewrites hRow hOld
    obtain ⟨state', hState', hMoves⟩ := h rid _ hExpired
    cases hRejected.symm.trans hState'
    cases hMoves
  · intro hClean
    cases act with
    | tick elapsed =>
      intro rid state hState
      obtain ⟨row, hRow, rfl⟩ := Option.map_eq_some_iff.mp hState
      exact ⟨_, by simp only [Session.step, Session.effective, hRow, Option.map_some],
        effectiveState_tick s.now elapsed row⟩
    | call op =>
      rcases op.run_cases cfg s.now s.db with
        ⟨e, hRun⟩ | ⟨result, db', hChange, hRun⟩
      · rw [Session.step_call hRun]
        exact fun rid state hState => ⟨state, hState, .stay state⟩
      · rw [Session.step_call hRun]
        exact hChange.movesTo fun hOp => hClean (by rw [hOp])

/-- Along the whole run each number moves by the arrows, and a number that reads as
rejected, expired or revoked reads so for ever. -/
def DecidedNumbersAreFinal (cfg : Settings) (now : Int) (acts : List Act) : Prop :=
  Machine.EveryStep (Session.step cfg) (fun s act => s.MovesTo cfg (s.step cfg act))
      (Session.start now) acts ∧
    ∀ pre post, acts = pre ++ post → ∀ rid state, state ≠ .pending → state ≠ .active →
      (Machine.run (Session.step cfg) (Session.start now) pre).effective cfg rid = some state →
      (Machine.run (Session.step cfg) (Session.start now) acts).effective cfg rid = some state

theorem final_of_everyStep {s : Session} {acts : List Act}
    (h : Machine.EveryStep (Session.step cfg) (fun s act => s.MovesTo cfg (s.step cfg act)) s acts)
    {rid : Nat} {state : State} (hPending : state ≠ .pending) (hActive : state ≠ .active)
    (hState : s.effective cfg rid = some state) :
    (Machine.run (Session.step cfg) s acts).effective cfg rid = some state := by
  induction acts generalizing s with
  | nil => exact hState
  | cons act acts ih =>
    obtain ⟨hHead, hTail⟩ := (Machine.everyStep_cons _).mp h
    obtain ⟨state', hState', hMoves⟩ := hHead rid state hState
    rw [hMoves.eq_of_final hPending hActive] at hState'
    exact ih hTail hState'

theorem decided_numbers_are_final_iff (cfg : Settings) (now : Int) (acts : List Act) :
    DecidedNumbersAreFinal cfg now acts ↔
      Machine.EveryStep (Session.step cfg) (Session.RestartsClean cfg) (Session.start now) acts := by
  have hSteps : Machine.EveryStep (Session.step cfg) (fun s act => s.MovesTo cfg (s.step cfg act))
      (Session.start now) acts ↔
      Machine.EveryStep (Session.step cfg) (Session.RestartsClean cfg) (Session.start now) acts :=
    Machine.everyStep_congr (I := fun _ => True) (fun _ _ _ => trivial)
      (fun s act _ => s.movesTo_step_iff cfg act) trivial acts
  refine ⟨fun h => hSteps.mp h.1, fun h => ⟨hSteps.mpr h, ?_⟩⟩
  rintro pre post rfl rid state hPending hActive hState
  rw [Machine.run_append]
  exact final_of_everyStep (Machine.EveryStep.drop (hSteps.mpr h)) hPending hActive hState

def silentRequest : List Act :=
  [.call (.createRequest "nc".toList (some "need it".toList) [⟨some "a".toList, some READ⟩]),
    .tick 43200000000, .call .restart]

theorem silent_request_not_final :
    ¬ DecidedNumbersAreFinal ⟨defaultPendingTimeout, defaultGrantDuration, none⟩ 0 silentRequest := by
  rintro ⟨_, hFinal⟩
  have hExpired := hFinal (silentRequest.take 2) (silentRequest.drop 2) rfl 1 .expired
    (by decide) (by decide) (by decide +kernel)
  exact absurd hExpired (by decide +kernel)

end AccessBroker.Grants
