import AccessBroker.Library.Simulation
import AccessBroker.WebdavAdapter.Requests

/-! # What the adapter does not pass on

Two clients that raise the same exceptions with other texts are asked the same, and the layer is
told the same, but for the exceptions that no handler catches.
-/

namespace AccessBroker.WebdavAdapter
open Py Nextcloud
set_option autoImplicit false

/-- Exceptions that are the same but for their texts. -/
def SameButText (e e' : ClientError) : Prop := e.kind = e'.kind ∧ e.code = e'.code

abbrev SameOutcome {α : Type} (outcome outcome' : Except ClientError α) : Prop :=
  Effect.Alike Eq SameButText outcome outcome'

inductive SameExchange : Exchange → Exchange → Prop where
  | mk {call : ClientCall} {outcome outcome' : Except ClientError call.Returned}
      (same : SameOutcome outcome outcome') : SameExchange ⟨call, outcome⟩ ⟨call, outcome'⟩

/-- What the layer is told is the same, or was not the adapter's to tell. -/
def ToldSame (e e' : TransportError) : Prop :=
  e = e' ∨ ∃ exc exc', e = .other exc ∧ e' = .other exc'

theorem refusal_same (notFound : Text) (unsupported : Option Text) (failed : Text)
    {e e' : ClientError} (h : SameButText e e') :
    ToldSame (refusal notFound unsupported failed e) (refusal notFound unsupported failed e') := by
  obtain ⟨kind, code, text⟩ := e
  obtain ⟨kind', code', text'⟩ := e'
  obtain ⟨hKind, hCode⟩ := h
  cases hKind
  cases hCode
  cases kind with
  | notFound | responseErrorCode => exact Or.inl rfl
  | methodNotSupported =>
    cases unsupported with
    | none => exact Or.inr ⟨text, text', rfl, rfl⟩
    | some message => exact Or.inl rfl
  | other => exact Or.inr ⟨text, text', rfl, rfl⟩

theorem mkcolRefusal_same {e e' : ClientError} (h : SameButText e e') :
    ToldSame (mkcolRefusal e) (mkcolRefusal e') := by
  rw [mkcolRefusal, mkcolRefusal, h.1, h.2]
  split
  · exact Or.inl rfl
  · exact refusal_same _ _ _ h

namespace Adapter

section

variable {adapter : Adapter} {client : Nat → (call : ClientCall) → Except ClientError call.Returned}
  (hSame : ∀ k call, SameOutcome (adapter.client k call) (client k call))
include hSame

theorem ask_same (call : ClientCall) :
    Effect.Simulates (List.Forall₂ SameExchange) SameButText Eq (adapter.ask call)
      (ask { adapter with client } call) := by
  intro log log' hLog
  have hOutcome : SameOutcome (adapter.client log.length call) (client log'.length call) := by
    rw [← hLog.length_eq]
    exact hSame log.length call
  exact ⟨hOutcome, List.rel_append hLog (.cons (.mk hOutcome) .nil)⟩

theorem attempt_same (call : ClientCall) {refuse : ClientError → TransportError}
    (hRefuse : ∀ e e', SameButText e e' → ToldSame (refuse e) (refuse e')) :
    Effect.Simulates (List.Forall₂ SameExchange) ToldSame Eq (adapter.attempt call refuse)
      (attempt { adapter with client } call refuse) := by
  refine (ask_same hSame call).attempt.bind fun outcome outcome' hOutcome => ?_
  cases hOutcome with
  | ok hEq =>
    cases hEq
    exact .pure rfl
  | error hError => exact .raise (hRefuse _ _ hError)

/-- A verb that calls once and returns. -/
theorem once_same (call : ClientCall) {refuse : ClientError → TransportError}
    (hRefuse : ∀ e e', SameButText e e' → ToldSame (refuse e) (refuse e'))
    (f : call.Returned → VerbReply) :
    Effect.Simulates (List.Forall₂ SameExchange) ToldSame Eq
      (do return f (← adapter.attempt call refuse))
      (do return f (← attempt { adapter with client } call refuse)) :=
  (attempt_same hSame call hRefuse).bind fun _ _ hEq => .pure (congrArg f hEq)

theorem serve_same (verb : Verb) :
    Effect.Simulates (List.Forall₂ SameExchange) ToldSame Eq (adapter.serve verb)
      (serve { adapter with client } verb) := by
  cases verb with
  | propfind path =>
    refine (ask_same hSame _).attempt.bind fun outcome outcome' hOutcome => ?_
    cases hOutcome with
    | ok hEq =>
      cases hEq
      exact .pure rfl
    | error hError =>
      rw [propfind_error, propfind_error]
      exact .raise (refusal_same _ _ _ hError)
  | get path => exact once_same hSame _ (fun _ _ => refusal_same _ _ _) _
  | put path data lockToken => exact once_same hSame _ (fun _ _ => refusal_same _ _ _) fun _ => done
  | move src dst => exact once_same hSame _ (fun _ _ => refusal_same _ _ _) fun _ => done
  | delete path => exact once_same hSame _ (fun _ _ => refusal_same _ _ _) fun _ => done
  | mkcol path =>
    refine (attempt_same hSame _ fun e e' _ => Or.inr ⟨_, _, rfl, rfl⟩).bind fun found _ hEq => ?_
    cases hEq
    cases found with
    | true => exact .raise (Or.inl rfl)
    | false => exact once_same hSame _ (fun _ _ => mkcolRefusal_same) fun _ => done
  | lock path timeout =>
    refine (ask_same hSame _).attempt.bind fun outcome outcome' hOutcome => ?_
    cases hOutcome with
    | ok hEq =>
      cases hEq
      split
      · exact .raise (Or.inl rfl)
      · exact .pure rfl
    | error hError =>
      rw [lock_error, lock_error]
      exact .raise (refusal_same _ _ _ hError)
  | unlock path lockToken =>
    rw [serve, serve, unlock, unlock]
    split
    · exact .raise (Or.inl rfl)
    · exact once_same hSame _ (fun _ _ => refusal_same _ _ _) fun _ => done

end

end Adapter

/-- The same verb with the same result, or with exceptions that no handler caught. -/
def SameServed (served served' : Served) : Prop :=
  served.verb = served'.verb ∧ Effect.Alike Eq ToldSame served.result served'.result

/-- In every run, whatever texts the client's exceptions carry, it is asked the same, and what the
verbs return and raise is the same, but for the exceptions that go through uncaught. -/
theorem adapter_hides (adapter : Adapter)
    (client : Nat → (call : ClientCall) → Except ClientError call.Returned)
    (hSame : ∀ k call, SameOutcome (adapter.client k call) (client k call)) (verbs : List Verb) :
    let s := Machine.run adapter.step ⟨[], []⟩ verbs
    let s' := Machine.run (Adapter.step { adapter with client }) ⟨[], []⟩ verbs
    s.log.map Exchange.call = s'.log.map Exchange.call ∧
      List.Forall₂ SameServed s.served s'.served := by
  intro s s'
  suffices hRun : List.Forall₂ SameExchange s.log s'.log ∧
      List.Forall₂ SameServed s.served s'.served by
    have hCalls : List.Forall₂ Eq (s.log.map Exchange.call) (s'.log.map Exchange.call) := by
      rw [List.forall₂_map_left_iff, List.forall₂_map_right_iff]
      refine hRun.1.imp fun _ _ hExchange => ?_
      cases hExchange
      rfl
    rw [List.forall₂_eq_eq_eq] at hCalls
    exact ⟨hCalls, hRun.2⟩
  induction verbs using List.reverseRecOn with
  | nil => exact ⟨.nil, .nil⟩
  | append_singleton verbs verb ih =>
    obtain ⟨hLog, hServed⟩ := ih
    have hStep : s = adapter.step (Machine.run adapter.step ⟨[], []⟩ verbs) verb :=
      Machine.run_append _ _ _ _
    have hStep' : s' = Adapter.step { adapter with client }
        (Machine.run (Adapter.step { adapter with client }) ⟨[], []⟩ verbs) verb :=
      Machine.run_append _ _ _ _
    rw [hStep, hStep']
    generalize Machine.run adapter.step ⟨[], []⟩ verbs = before at hLog hServed ⊢
    generalize Machine.run (Adapter.step { adapter with client }) ⟨[], []⟩ verbs = before'
      at hLog hServed ⊢
    obtain ⟨hResult, hLater⟩ := Adapter.serve_same hSame verb before.log before'.log hLog
    exact ⟨hLater, List.rel_append hServed (.cons ⟨rfl, hResult⟩ .nil)⟩

/-- A client that knows no path, and says so. -/
def saying (text : Text) : Nat → (call : ClientCall) → Except ClientError call.Returned :=
  fun _ _ => .error ⟨.notFound, some 404, text⟩

theorem adapter_hides_missing :
    let adapter : Adapter := ⟨"u".toList, id, saying "no x".toList⟩
    let verbs : List Verb := [.get "x".toList, .move "x".toList "y".toList]
    let s := Machine.run adapter.step ⟨[], []⟩ verbs
    let s' := Machine.run (Adapter.step { adapter with client := saying "password=p".toList }) ⟨[], []⟩
      verbs
    s.log.map Exchange.call = s'.log.map Exchange.call ∧
      List.Forall₂ SameServed s.served s'.served :=
  adapter_hides ⟨"u".toList, id, saying "no x".toList⟩ (saying "password=p".toList)
    (fun _ _ => .error ⟨rfl, rfl⟩) [.get "x".toList, .move "x".toList "y".toList]

end AccessBroker.WebdavAdapter
