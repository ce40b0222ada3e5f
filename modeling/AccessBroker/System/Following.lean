import AccessBroker.System.Steps

/-! # What every step of the broker follows

A relation that the parts of the handlers follow, with the two writes of a posting and a
restart, is followed by every step. Approvals are told from rejections and revocations, and
both from the steps that decide no single number.
-/

namespace AccessBroker.System
open Py Grants MatrixBot Server
set_option autoImplicit false

def Approves (w : Wiring) (s : Broker) (rid : Nat) : Act → Prop
  | .event ⟨_, _, sender, .reaction reactsTo key⟩ =>
    sender = w.matrix.approver ∧ key = APPROVE_EMOJI ∧
      requestForEvent reactsTo s.desk.db = some rid
  | .event ⟨_, _, sender, .message body⟩ =>
    sender = w.matrix.approver ∧ sender ≠ w.matrix.botUser ∧ ∃ itemNumbers expiry,
      parseReply body = .ok (some (.decision "approve".toList rid itemNumbers expiry))
  | _ => False

def Drops (w : Wiring) (s : Broker) (rid : Nat) : Act → Prop
  | .event ⟨_, _, sender, .reaction reactsTo key⟩ =>
    sender = w.matrix.approver ∧ (key = REJECT_EMOJI ∨ key = REVOKE_EMOJI) ∧
      requestForEvent reactsTo s.desk.db = some rid
  | .event ⟨_, _, sender, .message body⟩ =>
    sender = w.matrix.approver ∧ sender ≠ w.matrix.botUser ∧ ∃ action itemNumbers expiry,
      action ≠ "approve".toList ∧
        parseReply body = .ok (some (.decision action rid itemNumbers expiry))
  | _ => False

/-- The parts that steps are made of, but for sweeps and restarts, follow `R`. -/
structure Attends (w : Wiring) (env : Nextcloud.Environment) (R : Desk → Desk → Prop)
    (gain drop : Nat → Prop) : Prop where
  parts : Parts w.layer.store env.clock R gain drop
  create : ∀ now instanceName reason items,
    Effect.Along R (onDatabase (createRequest w.layer.store now instanceName reason items))
  record : ∀ eventId rid, Effect.Along R (onDatabase (recordPosted eventId rid))
  asked : ∀ (d : Desk) (asked : Nat), d.asked ≤ asked → R d { d with asked := asked }

structure Follows (w : Wiring) (env : Nextcloud.Environment) (R : Desk → Desk → Prop)
    (gain drop : Nat → Prop) : Prop where
  handles : Handles w.layer.store env.clock R gain drop
  create : ∀ now instanceName reason items,
    Effect.Along R (onDatabase (createRequest w.layer.store now instanceName reason items))
  record : ∀ eventId rid, Effect.Along R (onDatabase (recordPosted eventId rid))
  asked : ∀ (d : Desk) (asked : Nat), d.asked ≤ asked → R d { d with asked := asked }
  restart : ∀ d : Desk, R d ⟨restartDiscardPending d.db, [], [], d.asked⟩

/-- The act has nothing to do with a sweep or a restart. -/
def Broker.Ordinary (s : Broker) : Act → Prop
  | .sweep | .restart => False
  | .resume index _ => ∀ rid rest, s.tasks[index]? ≠ some (.noticing rid rest)
  | _ => True

variable {w : Wiring} {env : Nextcloud.Environment} {R : Desk → Desk → Prop}
variable {gain drop : Nat → Prop}

theorem Follows.attends (hR : Follows w env R gain drop) : Attends w env R gain drop :=
  ⟨hR.handles.toParts, hR.create, hR.record, hR.asked⟩

theorem Broker.perform_follows (s : Broker) {handler : Handler Progress}
    (h : R s.desk (handler.run s.desk).2) : R s.desk (s.perform handler).desk := by
  rw [Broker.perform_desk]
  exact h

variable [Std.Refl R]

theorem Broker.restart_follows (s : Broker) (hR : Follows w env R gain drop) :
    R s.desk (s.restart w).desk := by
  rw [Broker.restart]
  split
  · exact Std.Refl.refl _
  · exact hR.restart s.desk

variable [IsTrans Desk R]

theorem Broker.dispatch_follows (s : Broker) (hR : Attends w env R gain drop)
    (roomId eventId sender : Text) (content : Content)
    (hGain : ∀ rid, Approves w s rid (.event ⟨roomId, eventId, sender, content⟩) → gain rid)
    (hDrop : ∀ rid, Drops w s rid (.event ⟨roomId, eventId, sender, content⟩) → drop rid) :
    R s.desk (s.dispatch w env sender content).desk := by
  cases content with
  | reaction reactsTo key =>
    refine s.perform_follows (hR.parts.handleReaction sender reactsTo key s.desk ?_ ?_)
    · intro hSender hEmoji rid hRequest
      exact hGain rid ⟨hSender, hEmoji, hRequest⟩
    · intro hSender hEmoji rid hRequest
      exact hDrop rid ⟨hSender, hEmoji, hRequest⟩
  | message body =>
    rw [Broker.dispatch]
    split
    · exact Std.Refl.refl _
    · rename_i hSelf
      refine s.perform_follows (hR.parts.handleReply sender body ?_ ?_ ?_ s.desk)
      · exact fun rid _ => hR.parts.undo hR.create rid
      · intro hSender rid itemNumbers expiry hParsed
        exact hGain rid ⟨hSender, hSelf, itemNumbers, expiry, hParsed⟩
      · intro hSender action rid itemNumbers expiry hAction hParsed
        exact hDrop rid ⟨hSender, hSelf, action, itemNumbers, expiry, hAction, hParsed⟩

theorem approves_see {s : Broker} {eventId : Text} {rid : Nat} {act : Act} :
    Approves w (s.see eventId) rid act ↔ Approves w s rid act := by
  unfold Approves
  rw [Broker.see_desk]

theorem drops_see {s : Broker} {eventId : Text} {rid : Nat} {act : Act} :
    Drops w (s.see eventId) rid act ↔ Drops w s rid act := by
  unfold Drops
  rw [Broker.see_desk]

theorem Broker.onEvent_follows (s : Broker) (event : RoomEvent) (hR : Attends w env R gain drop)
    (hGain : ∀ rid, Approves w s rid (.event event) → gain rid)
    (hDrop : ∀ rid, Drops w s rid (.event event) → drop rid) :
    R s.desk (s.onEvent w env event).desk := by
  obtain ⟨roomId, eventId, sender, content⟩ := event
  rw [Broker.onEvent]
  split
  · exact Std.Refl.refl _
  split
  · exact Std.Refl.refl _
  · have h := (s.see eventId).dispatch_follows hR roomId eventId sender content
      (fun rid h => hGain rid (approves_see.mp h)) fun rid h => hDrop rid (drops_see.mp h)
    rw [Broker.see_desk] at h
    exact h

theorem Broker.call_follows (s : Broker) (hR : Attends w env R gain drop)
    (writer : Audit.AuditLog) (surface : Surface) (tool : Tool) :
    R s.desk (s.call w env writer surface tool).desk := by
  unfold Broker.call
  split
  · exact Std.Refl.refl _
  split
  · exact s.perform_follows (hR.parts.requestAccess hR.create _ _ _ s.desk)
  · exact s.perform_follows
      (Effect.Along.bind (hR.parts.checkAccess _) (fun _ => .pure _) s.desk)
  · split
    · exact Std.Refl.refl _
    · exact hR.asked s.desk _
        (Nextcloud.operation_asks _ ⟨some ⟨writer, s.files⟩, s.desk.asked, s.trace⟩)

/-- An ordinary step follows that gains and drops no other numbers. -/
theorem Broker.step_attends (s : Broker) (act : Act) (hR : Attends w env R gain drop)
    (hOrdinary : s.Ordinary act) (hGain : ∀ rid, Approves w s rid act → gain rid)
    (hDrop : ∀ rid, Drops w s rid act → drop rid) : R s.desk (s.step w env act).desk := by
  have hWait : R s.desk s.wait.desk := hR.asked s.desk _ (Nat.le_succ _)
  unfold Broker.step
  split
  · rename_i writer _
    cases act with
    | wait => exact hWait
    | call surface tool => exact s.call_follows hR writer surface tool
    | event event => exact s.onEvent_follows event hR hGain hDrop
    | sweep => exact hOrdinary.elim
    | restart => exact hOrdinary.elim
    | resume index outcome =>
      rw [Broker.handle]
      split
      · exact Std.Refl.refl _
      · rename_i pause hTask
        apply Broker.perform_follows { s with tasks := s.tasks.eraseIdx index }
        cases pause with
        | sending message =>
          cases outcome with
          | ok _ => exact Std.Refl.refl _
          | error cause => exact Std.Refl.refl _
        | posting req stage caller =>
          exact hR.parts.resumePosting req (fun eventId => hR.record eventId req.id) stage outcome
            caller s.desk
        | noticing rid rest => exact absurd hTask (hOrdinary rid rest)
  · split
    · exact hOrdinary.elim
    · exact hWait
    · exact Std.Refl.refl _

/-- Every step follows that gains and drops no other numbers. -/
theorem Broker.step_follows (s : Broker) (act : Act) (hR : Follows w env R gain drop)
    (hGain : ∀ rid, Approves w s rid act → gain rid) (hDrop : ∀ rid, Drops w s rid act → drop rid) :
    R s.desk (s.step w env act).desk := by
  by_cases hOrdinary : s.Ordinary act
  · exact s.step_attends act hR.attends hOrdinary hGain hDrop
  unfold Broker.step
  split
  · cases act with
    | wait | call _ _ | event _ => exact absurd trivial hOrdinary
    | sweep => exact s.perform_follows (hR.handles.sweep s.desk)
    | resume index outcome =>
      rw [Broker.handle]
      split
      · exact Std.Refl.refl _
      · rename_i pause _
        refine Broker.perform_follows { s with tasks := s.tasks.eraseIdx index }
          (hR.handles.resume pause outcome ?_ s.desk)
        intro req stage caller _
        exact hR.handles.resumePosting req (fun eventId => hR.record eventId req.id) stage outcome
          caller
    | restart => exact s.restart_follows hR
  · split
    · exact s.restart_follows hR
    · exact hR.asked s.desk _ (Nat.le_succ _)
    · exact Std.Refl.refl _

end AccessBroker.System
