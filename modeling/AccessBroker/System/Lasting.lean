import AccessBroker.System.Lifetimes

/-! # What takes a grant away

An active grant stays active until it expires or the approver revokes it. No tool call, no
failed send, no sweep, no restart and nobody else's message takes it away.
-/

namespace AccessBroker.System
open Py Grants MatrixBot Server
set_option autoImplicit false

/-- The step of the run is the approver's revocation of the number, or of all grants, or of
those on the instance. -/
def Revokes (w : Wiring) (s : Broker) (rid : Nat) (instanceName : Text) : Act → Prop
  | .event ⟨_, _, sender, .reaction reactsTo key⟩ =>
    sender = w.matrix.approver ∧ key = REVOKE_EMOJI ∧ requestForEvent reactsTo s.desk.db = some rid
  | .event ⟨_, _, sender, .message body⟩ =>
    sender = w.matrix.approver ∧
      ((∃ action itemNumbers expiry, action ≠ "approve".toList ∧ action ≠ "reject".toList ∧
        parseReply body = .ok (some (.decision action rid itemNumbers expiry))) ∨
      parseReply body = .ok (some .revokeAll) ∨
      parseReply body = .ok (some (.revokeInstance instanceName)))
  | _ => False

variable {w : Wiring} {env : Nextcloud.Environment} {lost : Nat → Row → Prop}

theorem Broker.dispatch_spares (hClock : Monotone env.clock) (s : Broker)
    (roomId eventId sender : Text) (content : Content)
    (hLost : ∀ rid row, Revokes w s rid row.instanceName (.event ⟨roomId, eventId, sender, content⟩) →
      lost rid row) :
    s.desk.Spares lost (s.dispatch w env sender content).desk := by
  cases content with
  | reaction reactsTo key =>
    rw [Broker.dispatch, Broker.perform_desk, MatrixBot.handleReaction]
    split
    · exact Std.Refl.refl s.desk
    rename_i hSender
    rw [Effect.bind_ok (Effect.get_run s.desk)]
    cases hRequest : requestForEvent reactsTo s.desk.db with
    | none => exact Std.Refl.refl s.desk
    | some rid =>
      dsimp only
      split
      · exact decideRequest_spares rid _ none none s.desk
      split
      · exact decideRequest_spares rid _ none none s.desk
      split
      · rename_i hEmoji
        exact revokeRequest_spares
          (fun row => hLost rid row ⟨not_not.mp hSender, hEmoji, hRequest⟩) s.desk
      split
      · exact postSummary_spares s.desk
      · exact Std.Refl.refl s.desk
  | message body =>
    rw [Broker.dispatch]
    split
    · exact Std.Refl.refl s.desk
    rw [Broker.perform_desk]
    exact handleReply_spares hClock sender body (fun rid row hSender h => hLost rid row ⟨hSender, h⟩)
      s.desk

theorem revokes_see {s : Broker} {eventId : Text} {rid : Nat} {instanceName : Text} {act : Act} :
    Revokes w (s.see eventId) rid instanceName act ↔ Revokes w s rid instanceName act := by
  unfold Revokes
  rw [Broker.see_desk]

theorem Broker.resume_spares (s : Broker) (pause : Pause) (outcome : Except SendError Text) :
    s.desk.Spares lost ((Server.resume w.layer.store env.clock pause outcome).run s.desk).2 := by
  cases pause with
  | sending message =>
    cases outcome with
    | ok _ => exact Std.Refl.refl s.desk
    | error cause => exact Std.Refl.refl s.desk
  | posting req stage caller =>
    refine resumePosting_along (fun eventId d => ?_) (fun cause => ?_) stage outcome caller s.desk
    · exact (recordPosted_extends eventId req.id d.db).spares
    · rw [Server.rollBack]
      split
      · exact .bind (reject_spares req.id) fun _ => .pure _
      · exact .raise _
  | noticing rid rest =>
    cases outcome with
    | ok _ =>
      have hSweep : Effect.Along (Desk.Spares lost) (sweepOn rid rest) :=
        .bind (memory_spares fun _ => rfl) fun _ => sweepFrom_along rest
      exact hSweep s.desk
    | error cause => exact Std.Refl.refl s.desk

theorem Broker.restart_spares (s : Broker) : s.desk.Spares lost (s.restart w).desk := by
  rw [Broker.restart]
  split
  · exact Std.Refl.refl s.desk
  · have hChange : Change w.layer.store 0 s.desk.db .restart none _ := .restarted
    exact hChange.spares fun rid row h => by cases h

theorem Broker.call_spares (s : Broker) (writer : Audit.AuditLog) (surface : Surface)
    (tool : Tool) : s.desk.Spares lost (s.call w env writer surface tool).desk := by
  unfold Broker.call
  split
  · exact Std.Refl.refl s.desk
  split
  · rename_i instanceName reason items _
    rw [Broker.perform_desk]
    refine Effect.Along.bind (.attempt (create_spares instanceName reason items)) (fun result => ?_)
      s.desk
    split
    · exact .pure _
    · split
      · exact .pure _
      · exact .raise _
    · exact .raise _
  · rw [Broker.perform_desk]
    exact Effect.Along.bind (readStore_spares _) (fun _ => .pure _) s.desk
  · split
    · exact Std.Refl.refl s.desk
    · exact spares_of_db rfl

/-- A step takes away only what its act revokes. -/
theorem Broker.step_spares (hClock : Monotone env.clock) (s : Broker) (act : Act)
    (hLost : ∀ rid row, Revokes w s rid row.instanceName act → lost rid row) :
    s.desk.Spares lost (s.step w env act).desk := by
  unfold Broker.step
  split
  · cases act with
    | wait => exact spares_of_db rfl
    | call surface tool => exact s.call_spares _ surface tool
    | event event =>
      obtain ⟨roomId, eventId, sender, content⟩ := event
      rw [Broker.handle, Broker.onEvent]
      split
      · exact Std.Refl.refl s.desk
      split
      · exact Std.Refl.refl s.desk
      have h := (s.see eventId).dispatch_spares hClock roomId eventId sender content
        fun rid row h => hLost rid row (revokes_see.mp h)
      rw [Broker.see_desk] at h
      exact h
    | sweep =>
      rw [Broker.handle, Broker.perform_desk]
      exact Effect.Along.bind (readStore_spares _) (fun _ => sweepFrom_along _) s.desk
    | resume index outcome =>
      rw [Broker.handle]
      split
      · exact Std.Refl.refl s.desk
      · rw [Broker.perform_desk]
        exact s.resume_spares _ outcome
    | restart => exact s.restart_spares
  · split
    · exact s.restart_spares
    · exact spares_of_db rfl
    · exact Std.Refl.refl s.desk

/-- A stored approval that no step of the run revokes is stored at its end. -/
theorem Broker.row_kept (hClock : Monotone env.clock) {s : Broker} {acts : List Act} {rid : Nat}
    {row : Row} (hRow : s.desk.db.grants.get? rid = some row) (hStored : row.state = .active)
    (hUnrevoked : Machine.EveryStep (Broker.step w env)
      (fun s act => ¬ Revokes w s rid row.instanceName act) s acts) :
    (Machine.run (Broker.step w env) s acts).desk.db.grants.get? rid = some row := by
  refine Machine.everyState_of_everyStep (I := fun s => s.desk.db.grants.get? rid = some row)
    (fun s act hRow hKeeps => ?_) hRow hUnrevoked acts [] (List.append_nil _).symm
  have hStep : s.desk.Spares (fun rid row => Revokes w s rid row.instanceName act)
      (s.step w env act).desk := s.step_spares hClock act fun _ _ h => h
  exact (hStep rid row hRow hStored).resolve_left hKeeps

/-- In every run, a grant that is active stays active, with the same items, until it expires or
the approver revokes it. -/
theorem active_lasts (w : Wiring) (env : Nextcloud.Environment) (hClock : Monotone env.clock)
    (s : Broker) (acts : List Act) :
    ∀ r ∈ s.active w env, r ∈ (Machine.run (Broker.step w env) s acts).active w env ∨
      (∃ expiry, r.expiresAt = some expiry ∧
        expiry ≤ env.clock (Machine.run (Broker.step w env) s acts).desk.asked) ∨
      ∃ pre act post, acts = pre ++ act :: post ∧
        Revokes w (Machine.run (Broker.step w env) s pre) r.id r.instanceName act := by
  intro r hActive
  obtain ⟨row, expiry, hRow, hStored, hExpiry, hBefore, _, hRecord⟩ := mem_activeGrants.mp hActive
  have hName : r.instanceName = row.instanceName := congrArg GrantRecord.instanceName hRecord
  have hExpires : r.expiresAt = some expiry := (congrArg GrantRecord.expiresAt hRecord).trans hExpiry
  by_cases hUnrevoked : Machine.EveryStep (Broker.step w env)
      (fun s act => ¬ Revokes w s r.id r.instanceName act) s acts
  · rw [hName] at hUnrevoked
    have hKept := Broker.row_kept hClock hRow hStored hUnrevoked
    by_cases hLive : env.clock (Machine.run (Broker.step w env) s acts).desk.asked < expiry
    · exact Or.inl (mem_activeGrants.mpr ⟨row, expiry, hKept, hStored, hExpiry, hLive, by simp,
        hRecord.trans (toRecord_active hStored hExpiry hBefore hLive)⟩)
    · exact Or.inr (Or.inl ⟨expiry, hExpires, by omega⟩)
  · refine Or.inr (Or.inr ?_)
    simp only [Machine.EveryStep, not_forall] at hUnrevoked
    obtain ⟨pre, act, post, hActs, hRevokes⟩ := hUnrevoked
    exact ⟨pre, act, post, hActs, Classical.not_not.mp hRevokes⟩

theorem active_lasts_restarted :
    let s := Machine.run (Broker.step smallWiring smallEnvironment) Broker.start approvedRequest
    ∀ r ∈ s.active smallWiring smallEnvironment,
      r ∈ (Machine.run (Broker.step smallWiring smallEnvironment) s [.sweep, .restart]).active
        smallWiring smallEnvironment ∨
      (∃ expiry, r.expiresAt = some expiry ∧ expiry ≤ smallEnvironment.clock
        (Machine.run (Broker.step smallWiring smallEnvironment) s [.sweep, .restart]).desk.asked) ∨
      ∃ pre act post, [.sweep, .restart] = pre ++ act :: post ∧
        Revokes smallWiring (Machine.run (Broker.step smallWiring smallEnvironment) s pre) r.id
          r.instanceName act :=
  active_lasts smallWiring smallEnvironment (fun _ _ h => Int.ofNat_le.mpr h) _ [.sweep, .restart]

end AccessBroker.System
