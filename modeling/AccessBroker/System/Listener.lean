import Mathlib.Data.List.Nodup
import AccessBroker.System.Steps

/-! # The sync loop

The listener asks the room for events from its token on and hands them to the
broker. The token and the set of seen events live as long as the process, so
what a new process is handed first may have been dispatched before it started.
-/

namespace AccessBroker.System
open Py Grants MatrixBot Server
set_option autoImplicit false

/-- The broker with its listener, the events of the room in their order, and the ids of those
that were dispatched. A token is a position in that order; an answered sync has the events that
are still to be handed to `on_event`, and the token to go on from. -/
structure Listener where
  broker : Broker
  timeline : List RoomEvent
  since : Option Nat
  answer : Option (List RoomEvent × Nat)
  dispatched : List Text

inductive Turn where
  | arrives (event : RoomEvent)
  /-- The sync is answered; without a token, with the events from the position `recent` on. -/
  | answers (recent : Nat)
  /-- `on_event` is called with the next event. -/
  | hands
  /-- The sync returns. -/
  | returns
  /-- The sync or a callback raises, and the loop tries again. -/
  | fails
  | restart
  /-- Anything else the broker does. -/
  | other (act : Act)
  deriving DecidableEq

section Steps

variable (w : Wiring) (env : Nextcloud.Environment)

def Dispatchable (event : RoomEvent) : Prop :=
  event.roomId = w.matrix.roomId ∧
    match event.content with
    | .reaction _ _ => True
    | .message _ => event.sender ≠ w.matrix.botUser

instance (event : RoomEvent) : Decidable (Dispatchable w event) := by
  unfold Dispatchable
  cases event.content <;> infer_instance

def Broker.Dispatches (s : Broker) (event : RoomEvent) : Prop :=
  Dispatchable w event ∧ ¬ (event.eventId ≠ [] ∧ event.eventId ∈ s.seen)

instance (s : Broker) (event : RoomEvent) : Decidable (s.Dispatches w event) :=
  inferInstanceAs (Decidable (_ ∧ _))

def Listener.hand (s : Listener) (event : RoomEvent) : Listener :=
  { s with
    broker := s.broker.onEvent w env event
    dispatched :=
      if s.broker.Dispatches w event then s.dispatched ++ [event.eventId] else s.dispatched }

def Listener.step (s : Listener) : Turn → Listener
  | .arrives event => { s with timeline := s.timeline ++ [event] }
  | .answers recent =>
    if s.broker.writer.isSome ∧ s.answer = none then
      { s with answer := some (s.timeline.drop (s.since.getD recent), s.timeline.length) }
    else s
  | .hands =>
    match s.answer with
    | some (event :: rest, token) => { s.hand w env event with answer := some (rest, token) }
    | _ => s
  | .returns =>
    match s.answer with
    | some ([], token) => { s with since := some token, answer := none }
    | _ => s
  | .fails => { s with answer := none }
  | .restart => { s with broker := s.broker.restart w, since := none, answer := none }
  | .other act =>
    match act with
    | .event _ | .restart => s
    | act => { s with broker := s.broker.step w env act }

def Listener.start : Listener := ⟨Broker.start, [], none, none, []⟩

end Steps

def Listener.ArrivesFresh (s : Listener) : Turn → Prop
  | .arrives event => event.eventId ≠ [] ∧ event.eventId ∉ s.timeline.map RoomEvent.eventId
  | _ => True

instance (s : Listener) (turn : Turn) : Decidable (s.ArrivesFresh turn) := by
  unfold Listener.ArrivesFresh
  cases turn <;> infer_instance

/-- If the event was dispatched, it was by this process. -/
def Listener.Own (s : Listener) (event : RoomEvent) : Prop :=
  event.eventId ∈ s.dispatched → event.eventId ∈ s.broker.seen

instance (s : Listener) (event : RoomEvent) : Decidable (s.Own event) :=
  inferInstanceAs (Decidable (_ → _))

/-- Before its first sync has returned, a process is handed no event that an earlier one
dispatched. -/
def Listener.StartsBehind (s : Listener) : Turn → Prop
  | .hands =>
    match s.since, s.answer with
    | none, some (event :: _, _) => s.Own event
    | _, _ => True
  | _ => True

instance (s : Listener) (turn : Turn) : Decidable (s.StartsBehind turn) := by
  unfold Listener.StartsBehind
  split
  · split <;> infer_instance
  · infer_instance

variable {w : Wiring} {env : Nextcloud.Environment} {s : Listener}

/-! ## The events a broker has seen -/

@[simp] theorem Broker.perform_seen (s : Broker) (handler : Handler Progress) :
    (s.perform handler).seen = s.seen := by
  rw [Broker.perform]
  split <;> rfl

@[simp] theorem Broker.dispatch_seen (s : Broker) (sender : Text) (content : Content) :
    (s.dispatch w env sender content).seen = s.seen := by
  cases content with
  | reaction reactsTo key => exact Broker.perform_seen _ _
  | message body =>
    rw [Broker.dispatch]
    split
    · rfl
    · exact Broker.perform_seen _ _

variable (w env) in
theorem Broker.onEvent_seen (s : Broker) (event : RoomEvent) :
    (s.onEvent w env event).seen =
      if event.roomId = w.matrix.roomId ∧ event.eventId ≠ [] ∧ event.eventId ∉ s.seen then
        event.eventId :: s.seen
      else s.seen := by
  rw [Broker.onEvent]
  split
  · rename_i hRoom
    rw [if_neg (fun h => hRoom h.1)]
  split
  · rename_i hSeen
    rw [if_neg (fun h => h.2.2 hSeen.2)]
  · rename_i hRoom hNew
    rw [Broker.dispatch_seen, Broker.see]
    by_cases hId : event.eventId = []
    · rw [if_neg (not_not.mpr hId), if_neg (fun h => h.2.1 hId)]
    · rw [if_pos hId, if_pos ⟨not_not.mp hRoom, hId, fun h => hNew ⟨hId, h⟩⟩]

variable (w env) in
theorem Broker.step_seen (s : Broker) {act : Act} (hEvent : ∀ event, act ≠ .event event)
    (hRestart : act ≠ .restart) : (s.step w env act).seen = s.seen := by
  unfold Broker.step
  split
  · cases act with
    | wait => rfl
    | call surface tool =>
      rw [Broker.handle]
      unfold Broker.call
      split
      · rfl
      split
      · exact Broker.perform_seen _ _
      · exact Broker.perform_seen _ _
      · split <;> rfl
    | event event => exact absurd rfl (hEvent event)
    | sweep => exact Broker.perform_seen _ _
    | resume index outcome =>
      rw [Broker.handle]
      split
      · rfl
      · exact Broker.perform_seen _ _
    | restart => exact absurd rfl hRestart
  · split
    · exact absurd rfl hRestart
    · rfl
    · rfl

/-! ## Events and tokens -/

variable (w) in
structure Listener.Ordered (s : Listener) : Prop where
  unique : (s.timeline.map RoomEvent.eventId).Nodup
  named : ∀ event ∈ s.timeline, event.eventId ≠ []
  dispatched : ∀ id ∈ s.dispatched, ∃ event ∈ s.timeline, event.eventId = id ∧ Dispatchable w event
  own : ∀ token, s.since = some token → ∀ event ∈ s.timeline.drop token, s.Own event
  answered : ∀ events next, s.answer = some (events, next) → next ≤ s.timeline.length ∧
    (∀ event ∈ events, event ∈ s.timeline.take next) ∧
    (s.since ≠ none → ∀ event ∈ events, s.Own event) ∧
    ∀ event ∈ s.timeline.drop next, event.eventId ∉ s.dispatched

theorem start_ordered : Listener.start.Ordered w where
  unique := List.nodup_nil
  named _ hEvent := by cases hEvent
  dispatched _ hId := by cases hId
  own _ hSince := by cases hSince
  answered _ _ hAnswer := by cases hAnswer

theorem Listener.Ordered.same_event (h : s.Ordered w) {event other : RoomEvent}
    (hEvent : event ∈ s.timeline) (hOther : other ∈ s.timeline)
    (hId : event.eventId = other.eventId) : event = other :=
  List.inj_on_of_nodup_map h.unique hEvent hOther hId

theorem Listener.Ordered.not_mem_drop (h : s.Ordered w) {event : RoomEvent} {next : Nat}
    (hTaken : event ∈ s.timeline.take next) : ∀ other ∈ s.timeline.drop next,
    other.eventId ≠ event.eventId := by
  intro other hOther hId
  have hSame := h.same_event (List.mem_of_mem_drop hOther) (List.mem_of_mem_take hTaken) hId
  have hDisjoint := List.disjoint_take_drop (List.Nodup.of_map _ h.unique) (Nat.le_refl next)
  exact hDisjoint hTaken (hSame ▸ hOther)

theorem mem_drop_concat {α : Type} {xs : List α} {n : Nat} {x y : α}
    (h : y ∈ (xs ++ [x]).drop n) : y ∈ xs.drop n ∨ y = x := by
  rw [List.drop_append, List.mem_append] at h
  exact h.imp id fun h => List.mem_singleton.mp (List.mem_of_mem_drop h)

theorem Listener.Ordered.arrives (h : s.Ordered w) {event : RoomEvent}
    (hName : event.eventId ≠ []) (hNew : event.eventId ∉ s.timeline.map RoomEvent.eventId) :
    Listener.Ordered w { s with timeline := s.timeline ++ [event] } := by
  have hUndispatched : event.eventId ∉ s.dispatched := by
    intro hId
    obtain ⟨earlier, hEarlier, hSame, _⟩ := h.dispatched _ hId
    exact hNew (hSame ▸ List.mem_map_of_mem hEarlier)
  constructor
  · rw [List.map_append, List.map_singleton, List.nodup_append_comm]
    exact List.nodup_cons.mpr ⟨hNew, h.unique⟩
  · intro other hOther
    rcases List.mem_append.mp hOther with hOther | hOther
    · exact h.named other hOther
    · rw [List.mem_singleton.mp hOther]
      exact hName
  · intro id hId
    obtain ⟨earlier, hEarlier, hSame⟩ := h.dispatched id hId
    exact ⟨earlier, List.mem_append_left _ hEarlier, hSame⟩
  · intro token hSince other hOther
    rcases mem_drop_concat hOther with hOther | rfl
    · exact h.own token hSince other hOther
    · exact fun hId => absurd hId hUndispatched
  · intro events next hAnswer
    obtain ⟨hNext, hTaken, hOwn, hLater⟩ := h.answered events next hAnswer
    refine ⟨?_, fun other hOther => ?_, hOwn, fun other hOther => ?_⟩
    · rw [List.length_append]
      omega
    · rw [List.take_append]
      exact List.mem_append_left _ (hTaken other hOther)
    · rcases mem_drop_concat hOther with hOther | rfl
      · exact hLater other hOther
      · exact hUndispatched

theorem Listener.Own.hand {event other : RoomEvent} (hName : event.eventId ≠ [])
    (h : s.Own other) : (s.hand w env event).Own other := by
  have hSeen := s.broker.onEvent_seen w env event
  intro hId
  have hBefore : other.eventId ∈ s.broker.seen → other.eventId ∈ (s.hand w env event).broker.seen := by
    intro hMem
    rw [Listener.hand, hSeen]
    split
    · exact List.mem_cons_of_mem _ hMem
    · exact hMem
  by_cases hDispatches : s.broker.Dispatches w event
  · rw [Listener.hand, if_pos hDispatches] at hId
    rcases List.mem_append.mp hId with hId | hId
    · exact hBefore (h hId)
    · have hFresh : event.eventId ∉ s.broker.seen := fun hMem => hDispatches.2 ⟨hName, hMem⟩
      rw [Listener.hand, hSeen, if_pos ⟨hDispatches.1.1, hName, hFresh⟩, List.mem_singleton.mp hId]
      exact List.mem_cons_self
  · rw [Listener.hand, if_neg hDispatches] at hId
    exact hBefore (h hId)

theorem Listener.hand_dispatched (w : Wiring) (env : Nextcloud.Environment) (s : Listener)
    (event : RoomEvent) {name : Text} (h : name ∈ (s.hand w env event).dispatched) :
    name ∈ s.dispatched ∨ name = event.eventId ∧ Dispatchable w event := by
  rw [Listener.hand] at h
  dsimp only at h
  split at h
  · rename_i hDispatches
    exact (List.mem_append.mp h).imp id fun h => ⟨List.mem_singleton.mp h, hDispatches.1⟩
  · exact Or.inl h

theorem Listener.Ordered.hands (h : s.Ordered w) {event : RoomEvent} {rest : List RoomEvent}
    {next : Nat} (hAnswer : s.answer = some (event :: rest, next)) :
    Listener.Ordered w { s.hand w env event with answer := some (rest, next) } := by
  obtain ⟨hNext, hTaken, hOwn, hLater⟩ := h.answered _ next hAnswer
  have hEvent := hTaken event List.mem_cons_self
  have hName := h.named event (List.mem_of_mem_take hEvent)
  constructor
  · exact h.unique
  · exact h.named
  · intro id hId
    rcases s.hand_dispatched w env event hId with hId | ⟨rfl, hDispatchable⟩
    · exact h.dispatched id hId
    · exact ⟨event, List.mem_of_mem_take hEvent, rfl, hDispatchable⟩
  · intro token hSince other hOther
    exact (h.own token hSince other hOther).hand hName
  · rintro events next' ⟨⟩
    refine ⟨hNext, fun other hOther => hTaken other (List.mem_cons_of_mem _ hOther),
      fun hSince other hOther => ?_, fun other hOther hId => ?_⟩
    · exact (hOwn hSince other (List.mem_cons_of_mem _ hOther)).hand hName
    · rcases s.hand_dispatched w env event hId with hId | ⟨hSame, _⟩
      · exact hLater other hOther hId
      · exact h.not_mem_drop hEvent other hOther hSame

theorem Listener.Ordered.step (h : s.Ordered w) (env : Nextcloud.Environment) {turn : Turn}
    (hFresh : s.ArrivesFresh turn) : (s.step w env turn).Ordered w := by
  cases turn with
  | arrives event => exact h.arrives hFresh.1 hFresh.2
  | answers recent =>
    rw [Listener.step]
    split
    · refine ⟨h.unique, h.named, h.dispatched, h.own, ?_⟩
      rintro events next ⟨⟩
      refine ⟨le_refl _, ?_, ?_, ?_⟩
      · intro event hEvent
        rw [List.take_length]
        exact List.mem_of_mem_drop hEvent
      · intro hSince event hEvent
        obtain ⟨token, hToken⟩ := Option.ne_none_iff_exists'.mp hSince
        rw [hToken] at hEvent
        exact h.own token hToken event hEvent
      · intro event hEvent
        rw [List.drop_length] at hEvent
        cases hEvent
    · exact h
  | hands =>
    rw [Listener.step]
    split
    · rename_i hAnswer
      exact h.hands hAnswer
    · exact h
  | returns =>
    rw [Listener.step]
    split
    · rename_i token hAnswer
      obtain ⟨_, _, _, hLater⟩ := h.answered _ _ hAnswer
      refine ⟨h.unique, h.named, h.dispatched, ?_, fun _ _ hNone => by cases hNone⟩
      rintro _ ⟨⟩ event hEvent hId
      exact absurd hId (hLater event hEvent)
    · exact h
  | fails => exact ⟨h.unique, h.named, h.dispatched, h.own, fun _ _ hNone => by cases hNone⟩
  | restart =>
    refine ⟨h.unique, h.named, h.dispatched, ?_, ?_⟩
    · intro token hNone
      cases hNone
    · intro events next hNone
      cases hNone
  | other act =>
    unfold Listener.step
    dsimp only
    split
    · exact h
    · exact h
    · rename_i hEvent hRestart
      have hSeen := s.broker.step_seen w env hEvent hRestart
      have hOwn : ∀ event, s.Own event →
          Listener.Own { s with broker := s.broker.step w env act } event := by
        intro event hOwn hId
        dsimp only
        rw [hSeen]
        exact hOwn hId
      refine ⟨h.unique, h.named, h.dispatched, ?_, ?_⟩
      · intro token hSince event hMem
        exact hOwn event (h.own token hSince event hMem)
      · intro events next hAnswer
        obtain ⟨hNext, hTaken, hOwned, hLater⟩ := h.answered events next hAnswer
        exact ⟨hNext, hTaken, fun hSince event hMem => hOwn event (hOwned hSince event hMem), hLater⟩

/-! ## At most once -/

theorem Listener.Ordered.hand_once_iff (h : s.Ordered w) (env : Nextcloud.Environment)
    (hOnce : s.dispatched.Nodup) {event : RoomEvent} {rest : List RoomEvent} {next : Nat}
    (hAnswer : s.answer = some (event :: rest, next)) :
    (s.hand w env event).dispatched.Nodup ↔ s.Own event := by
  obtain ⟨_, hTaken, _, _⟩ := h.answered _ next hAnswer
  have hEvent := List.mem_of_mem_take (hTaken event List.mem_cons_self)
  rw [Listener.hand]
  dsimp only
  split
  · rename_i hDispatches
    have hFresh : event.eventId ∉ s.broker.seen :=
      fun hMem => hDispatches.2 ⟨h.named event hEvent, hMem⟩
    rw [List.nodup_append_comm]
    constructor
    · intro hNodup hId
      exact absurd hId (List.nodup_cons.mp hNodup).1
    · intro hOwn
      exact List.nodup_cons.mpr ⟨fun hId => hFresh (hOwn hId), hOnce⟩
  · rename_i hDispatches
    refine iff_of_true hOnce fun hId => ?_
    obtain ⟨other, hOther, hSame, hDispatchable⟩ := h.dispatched _ hId
    rw [h.same_event hOther hEvent hSame] at hDispatchable
    by_contra hFresh
    exact hDispatches ⟨hDispatchable, fun hSeen => hFresh hSeen.2⟩

/-- A turn repeats a dispatch exactly if it hands out what an earlier process dispatched. -/
theorem Listener.step_once_iff (h : s.Ordered w) (env : Nextcloud.Environment)
    (hOnce : s.dispatched.Nodup) (turn : Turn) :
    (s.step w env turn).dispatched.Nodup ↔ s.StartsBehind turn := by
  cases turn with
  | hands =>
    rw [Listener.step, Listener.StartsBehind]
    cases hAnswer : s.answer with
    | none =>
      cases s.since <;> exact iff_of_true hOnce trivial
    | some answer =>
      obtain ⟨events, next⟩ := answer
      cases events with
      | nil => cases s.since <;> exact iff_of_true hOnce trivial
      | cons event rest =>
        have hHand := h.hand_once_iff env hOnce hAnswer
        obtain ⟨_, _, hOwn, _⟩ := h.answered _ next hAnswer
        cases hSince : s.since with
        | none => exact hHand
        | some token =>
          have hOwned := hOwn (by rw [hSince]; simp) event List.mem_cons_self
          exact iff_of_true (hHand.mpr hOwned) trivial
  | arrives event => exact iff_of_true hOnce trivial
  | answers recent =>
    rw [Listener.step]
    split <;> exact iff_of_true hOnce trivial
  | returns =>
    rw [Listener.step]
    split <;> exact iff_of_true hOnce trivial
  | fails => exact iff_of_true hOnce trivial
  | restart => exact iff_of_true hOnce trivial
  | other act =>
    unfold Listener.step
    dsimp only
    split <;> exact iff_of_true hOnce trivial

/-- In every run, each event is dispatched at most once if and only if no process is handed,
before its first sync has returned, what an earlier process dispatched. -/
theorem dispatched_once_iff (w : Wiring) (env : Nextcloud.Environment) (turns : List Turn)
    (hFresh : Machine.EveryStep (Listener.step w env) Listener.ArrivesFresh Listener.start turns) :
    Machine.EveryState (Listener.step w env) (fun s => s.dispatched.Nodup) Listener.start turns ↔
      Machine.EveryStep (Listener.step w env) Listener.StartsBehind Listener.start turns := by
  have hOrdered : Machine.EveryState (Listener.step w env) (Listener.Ordered w) Listener.start
      turns := by
    apply Machine.everyState_of_everyStep _ start_ordered hFresh
    intro s turn h hTurn
    exact h.step env hTurn
  apply Machine.everyState_iff_everyStep _ hOrdered List.nodup_nil
  intro s turn h hOnce
  exact Listener.step_once_iff h env hOnce turn

def replied (eventId body : Text) : List Turn :=
  [.arrives ⟨"!room:x".toList, eventId, "@owner:x".toList, .message body⟩, .answers 0, .hands,
    .returns, .other (.resume 0 (.ok "$d".toList))]

/-- A request is posted, the approver revokes everything and then approves the request; a new
process starts, and its first sync is answered with the events from the position `recent` on. -/
def restarted (recent : Nat) : List Turn :=
  .restart :: (postedRequest.drop 1).map .other ++ replied "$1".toList "revoke all".toList ++
    replied "$2".toList "approve 1".toList ++ [.restart, .answers recent]

theorem dispatched_once_iff_restarted :
    (Machine.EveryState (Listener.step smallWiring smallEnvironment)
        (fun s => s.dispatched.Nodup) Listener.start (restarted 2 ++ [.returns]) ↔
      Machine.EveryStep (Listener.step smallWiring smallEnvironment) Listener.StartsBehind
        Listener.start (restarted 2 ++ [.returns])) ∧
    Machine.EveryStep (Listener.step smallWiring smallEnvironment) Listener.StartsBehind
      Listener.start (restarted 2 ++ [.returns]) :=
  ⟨dispatched_once_iff smallWiring smallEnvironment (restarted 2 ++ [.returns])
    (by decide +kernel), by decide +kernel⟩

/-- Handed out again by the new process, the old `revoke all` revokes the later grant. -/
theorem old_revocation_repeated :
    let run := Machine.run (Listener.step smallWiring smallEnvironment) Listener.start
    Machine.EveryStep (Listener.step smallWiring smallEnvironment) Listener.ArrivesFresh
        Listener.start (restarted 0 ++ [.hands]) ∧
      ¬ Machine.EveryState (Listener.step smallWiring smallEnvironment)
        (fun s => s.dispatched.Nodup) Listener.start (restarted 0 ++ [.hands]) ∧
      (run (restarted 0 ++ [.hands])).dispatched = ["$1".toList, "$2".toList, "$1".toList] ∧
      ((run (restarted 0)).broker.active smallWiring smallEnvironment).map GrantRecord.id = [1] ∧
      (run (restarted 0 ++ [.hands])).broker.active smallWiring smallEnvironment = [] := by
  refine ⟨by decide +kernel, fun hOnce => ?_, by decide +kernel, by decide +kernel,
    by decide +kernel⟩
  have hEnd := hOnce (restarted 0 ++ [.hands]) [] (List.append_nil _).symm
  exact absurd hEnd (by decide +kernel)

end AccessBroker.System
