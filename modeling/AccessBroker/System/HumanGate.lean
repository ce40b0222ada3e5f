import AccessBroker.MatrixBot.Narrowing
import AccessBroker.System.Following

/-! # The human gate

In every run of the broker a number becomes active only in a step that handles
an approval by the configured approver: the approve reaction on the message
posted for that number, or a reply that names it.
-/

namespace AccessBroker.System
open Py Grants MatrixBot Server
set_option autoImplicit false

theorem narrows_follows {w : Wiring} {env : Nextcloud.Environment} {gain : Nat → Prop} :
    Follows w env (Desk.Narrows gain) gain fun _ => True where
  handles := narrows_conforms.handles
  create := createRequest_narrows
  record := recordPosted_narrows
  asked d _ hAsked := ⟨hAsked, Std.Refl.refl d.db⟩
  restart d := by
    have hChange : Change ⟨0, 0, none⟩ 0 d.db .restart none _ := .restarted
    exact ⟨le_refl _, hChange.narrows.mono fun _ => False.elim⟩

theorem Broker.step_narrows (s : Broker) (w : Wiring) (env : Nextcloud.Environment) (act : Act) :
    s.desk.Narrows (fun rid => Approves w s rid act) (s.step w env act).desk :=
  s.step_follows act narrows_follows (fun _ hGain => hGain) fun _ _ => trivial

/-! ## Runs -/

/-- In every step, a grant that is active afterwards was active before with the same items
and the same expiry, or the step is the approval of its number by the approver, who is not
the bot; and a posted message stays mapped to its request. -/
theorem human_gate (w : Wiring) (env : Nextcloud.Environment) (hClock : Monotone env.clock)
    (acts : List Act) :
    Machine.EveryStep (Broker.step w env)
      (fun s act =>
        (∀ r ∈ (s.step w env act).active w env, r ∈ s.active w env ∨
          (Approves w s r.id act ∧ w.matrix.approver ≠ w.matrix.botUser)) ∧
        ∀ eventId rid, requestForEvent eventId s.desk.db = some rid →
          requestForEvent eventId (s.step w env act).desk.db = some rid)
      Broker.start acts := by
  rintro pre act post -
  generalize Machine.run (Broker.step w env) Broker.start pre = s
  have hStep := s.step_narrows w env act
  refine ⟨fun r hActive => ?_, fun eventId rid hPosted => hStep.db.requestForEvent hPosted⟩
  rcases hStep.db.activeGrants (hClock hStep.asked) hActive with hGain | hBefore
  · exact Or.inr ⟨hGain, w.matrix.approver_ne_botUser⟩
  · exact Or.inl hBefore

/-- A request is made and posted as the event `$m`; the bot's own approve reaction comes
back through the sync, and then the approver's. -/
def approvedRequest : List Act :=
  [.restart, .call .agent (.requestAccess "nc".toList (some "why".toList)
      [⟨some "docs".toList, some Paths.READ⟩])] ++
    List.replicate 5 (.resume 0 (.ok "$m".toList)) ++
    [.event ⟨"!room:x".toList, "$1".toList, "@bot:x".toList,
        .reaction "$m".toList APPROVE_EMOJI⟩,
      .event ⟨"!room:x".toList, "$2".toList, "@owner:x".toList,
        .reaction "$m".toList APPROVE_EMOJI⟩]

theorem human_gate_approved :
    Machine.EveryStep (Broker.step smallWiring smallEnvironment)
      (fun s act =>
        (∀ r ∈ (s.step smallWiring smallEnvironment act).active smallWiring smallEnvironment,
          r ∈ s.active smallWiring smallEnvironment ∨
          (Approves smallWiring s r.id act ∧
            smallWiring.matrix.approver ≠ smallWiring.matrix.botUser)) ∧
        ∀ eventId rid, requestForEvent eventId s.desk.db = some rid →
          requestForEvent eventId (s.step smallWiring smallEnvironment act).desk.db = some rid)
      Broker.start approvedRequest ∧
    ((Machine.run (Broker.step smallWiring smallEnvironment) Broker.start approvedRequest).active
      smallWiring smallEnvironment).map GrantRecord.id = [1] :=
  ⟨human_gate smallWiring smallEnvironment (fun _ _ h => Int.ofNat_le.mpr h) approvedRequest,
    by decide +kernel⟩

end AccessBroker.System
