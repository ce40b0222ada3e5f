import AccessBroker.Library.Simulation
import AccessBroker.Nextcloud.Speaking

/-! # The same operation against two transports

The transport gets into an operation by its replies alone. As long as the same verb gets the
same reply on both sides, the two runs of an operation are the same.
-/

namespace AccessBroker.Nextcloud
open Py Paths Grants Audit
set_option autoImplicit false

abbrev Replies := Nat → Except TransportError Reply

def Environment.answering (env : Environment) (replies : Replies) : Environment :=
  { env with reply := replies }

/-! ## Questions counted -/

/-- The trace grows by events that account for all the questions asked. -/
def Counts (w w' : World) : Prop :=
  ∃ events, w'.trace = w.trace ++ events ∧
    w'.asked = w.asked + (events.map Event.questions).sum

instance : Std.Refl Counts where
  refl _ := ⟨[], (List.append_nil _).symm, rfl⟩

instance : IsTrans World Counts where
  trans := by
    rintro w between w' ⟨events, hEvents, hAsked⟩ ⟨others, hOthers, hAsked'⟩
    refine ⟨events ++ others, by rw [hOthers, hEvents, List.append_assoc], ?_⟩
    rw [hAsked', hAsked, List.map_append, List.sum_append, Nat.add_assoc]

theorem Speaks.counts {env : Environment} {allowed : Verb → Prop} {w w' : World}
    (h : Speaks env allowed w w') : Counts w w' := by
  obtain ⟨_, ⟨events, hTrace, hAsked, _⟩, _⟩ := h
  exact ⟨events, hTrace, hAsked⟩

theorem counts_spans (platform : Platform) (env : Environment) : Spans platform env Counts where
  wall _ _ _ _ _ := .mono (fun _ _ => Speaks.counts)
    ((speaks_spans env (fun _ => True) platform).wall _ _ _ _ _)
  record _ _ := .mono (fun _ _ => Speaks.counts)
    ((speaks_spans env (fun _ => True) platform).record _ _)

theorem callVerb_counts (env : Environment) (instanceName : Text) (call : Verb) :
    Effect.Along Counts (callVerb env instanceName call) := by
  have hSaid : Effect.Along (Speaks env fun _ => True) (callVerb env instanceName call) :=
    callVerb_said trivial
  exact hSaid.mono fun _ _ => Speaks.counts

/-! ## Agreement -/

/-- Wherever both runs go on with the same verb after the same events, both replies are the same. -/
def Concur (replies replies' : Replies) (w u u' : World) : Prop :=
  ∀ before instanceName call after after',
    u.trace = w.trace ++ (before ++ .verb instanceName call :: after) →
    u'.trace = w.trace ++ (before ++ .verb instanceName call :: after') →
      replies (w.asked + (before.map Event.questions).sum) =
        replies' (w.asked + (before.map Event.questions).sum)

theorem concur_splits (replies replies' : Replies) :
    Effect.Splits Counts (Concur replies replies') := by
  constructor
  · rintro w t t' u u' ⟨more, hMore, _⟩ ⟨more', hMore', _⟩ h before instanceName call after after'
      hTrace hTrace'
    refine h before instanceName call (after ++ more) (after' ++ more') ?_ ?_
    · rw [hMore, hTrace]
      simp
    · rw [hMore', hTrace']
      simp
  · rintro w t u u' ⟨events, hEvents, hAsked⟩ h before instanceName call after after' hTrace hTrace'
    have hAgree := h (events ++ before) instanceName call after after'
      (by rw [hTrace, hEvents]; simp) (by rw [hTrace', hEvents]; simp)
    rwa [List.map_append, List.sum_append, ← Nat.add_assoc, ← hAsked] at hAgree

section Lockstep

variable (platform : Platform) (layer : Layer) (db : Database) (env : Environment)
variable (instanceName : Text) (replies replies' : Replies)

/-- The two runs of a part of an operation. -/
abbrev Together {α : Type} (part : Environment → Run α) : Prop :=
  Effect.Lockstep Counts (Concur replies replies') (part (env.answering replies))
    (part (env.answering replies'))

theorem callVerb_together (call : Verb) :
    Together env replies replies' fun env => callVerb env instanceName call := by
  refine ⟨callVerb_counts _ _ _, callVerb_counts _ _ _, fun w h => ?_⟩
  rw [callVerb_state, callVerb_state] at h
  have hReply : replies w.asked = replies' w.asked := h [] instanceName call [] [] rfl rfl
  simp only [callVerb, Environment.answering, hReply]

theorem auditAnd_together (path operation reason : Text) (call : Verb) (principal : Option Text) :
    Together env replies replies' fun env =>
      auditAnd platform layer env instanceName path operation reason call principal := by
  have hScrubbed : Together env replies replies' fun env =>
      scrubErrors layer instanceName (callVerb env instanceName call) := by
    refine .handle (concur_splits replies replies')
      (callVerb_together env instanceName replies replies' call) fun err => .refl ?_
    split
    · exact .raise _
    · exact .raise _
  refine .bind (concur_splits replies replies') (.refl .get) fun world => ?_
  split
  · exact hScrubbed
  · refine .bind (concur_splits replies replies') (.refl ?_) fun _ => hScrubbed
    exact (counts_spans platform _).record _ _

/-- An operation whose path the wall decides on. -/
theorem guarded_together (path mode : Text) {β : Type} {rest : Environment → Text → Run β}
    (hRest : ∀ norm, Together env replies replies' fun env => rest env norm) :
    Together env replies replies' fun env =>
      authorized platform layer db env instanceName path mode >>= rest env :=
  .bind (concur_splits replies replies')
    (.refl ((counts_spans platform (env.answering replies)).authorized path mode)) hRest

theorem list_together (path : Text) :
    Together env replies replies' fun env => list platform layer db env instanceName path := by
  unfold Nextcloud.list
  split
  · exact .refl (.raise _)
  split
  · exact .refl (.raise _)
  split
  · exact auditAnd_together platform layer env instanceName replies replies' _ _ _ _ _
  · refine .bind (concur_splits replies replies') (.refl (.bind
      ((counts_spans platform (env.answering replies)).wall _ _ _ _ _) fun decision => ?_))
      fun norm => auditAnd_together platform layer env instanceName replies replies' _ _ _ _ _
    split
    · exact .pure _
    · exact .raise _

/-- The transport gets into an operation by its replies alone. -/
theorem operation_together (op : Operation) :
    Together env replies replies' fun env => op.run platform layer db env instanceName := by
  have hCall (path operation reason : Text) (call : Verb) (principal : Option Text) :
      Together env replies replies' fun env =>
        auditAnd platform layer env instanceName path operation reason call principal :=
    auditAnd_together platform layer env instanceName replies replies' path operation reason call
      principal
  have hGuarded (path mode : Text) {β : Type} {rest : Environment → Text → Run β}
      (hRest : ∀ norm, Together env replies replies' fun env => rest env norm) :
      Together env replies replies' fun env =>
        authorized platform layer db env instanceName path mode >>= rest env :=
    guarded_together platform layer db env instanceName replies replies' path mode hRest
  have hAnswer {β : Type} {part : Environment → Run β} {f : β → Answer}
      (h : Together env replies replies' part) :
      Together env replies replies' fun env => part env >>= fun result => pure (f result) :=
    .bind (concur_splits replies replies') h fun _ => .refl (.pure _)
  cases op with
  | list path =>
    exact hAnswer (list_together platform layer db env instanceName replies replies' path)
  | read path principal => exact hAnswer (hGuarded _ _ fun _ => hCall _ _ _ _ _)
  | write path data principal => exact hAnswer (hGuarded _ _ fun _ => hCall _ _ _ _ _)
  | move src dst => exact hAnswer (hGuarded _ _ fun _ => hGuarded _ _ fun _ => hCall _ _ _ _ _)
  | trash path => exact hAnswer (hGuarded _ _ fun _ => hCall _ _ _ _ _)
  | mkdir path => exact hAnswer (hGuarded _ _ fun _ => hCall _ _ _ _ _)
  | checkout path timeout principal =>
    refine hAnswer (hGuarded _ _ fun norm => .bind (concur_splits replies replies')
      (hCall _ _ _ _ _) fun locked => .bind (concur_splits replies replies')
      (hCall _ _ _ _ _) fun content => .refl ?_)
    dsimp only
    split
    · exact .pure _
    · exact .raise _
  | checkin path data lockToken principal =>
    exact hAnswer (hGuarded _ _ fun norm => .bind (concur_splits replies replies')
      (hCall _ _ _ _ _) fun written => .bind (concur_splits replies replies')
      (hCall _ _ _ _ _) fun unlocked => .refl (.pure _))

end Lockstep

end AccessBroker.Nextcloud
