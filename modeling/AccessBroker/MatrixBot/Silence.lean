import AccessBroker.MatrixBot.Answering
import AccessBroker.MatrixBot.Grammar
import AccessBroker.MatrixBot.Revoking
import AccessBroker.MatrixBot.Undoing

/-! # No silent replies

Whatever the approver types is meant to end in a message. It does, unless a number of the
reply cannot be converted or the store does not take what an open undo window holds.
-/

namespace AccessBroker.MatrixBot
open Py Paths Grants Server
set_option autoImplicit false

variable {store : Settings} {bot : Bot} {clock : Nat → Int}

/-- The event of a message that is being posted is not recorded yet. -/
def Pause.Unrecorded (d : Desk) : Pause → Prop
  | .posting _ (.reaction eventId _ _) _ => d.db.posted.lookup eventId = none
  | _ => True

/-- The handler comes to its end if its sends succeed, whatever happens at the desk meanwhile. -/
inductive Completes (store : Settings) (clock : Nat → Int) : Except BotError Progress → Prop
  | returns (answer : Option Answer) : Completes store clock (.ok (.returns answer))
  | awaits {pause : Pause}
      (h : ∀ (d : Desk) (eventId : Text), pause.Unrecorded d →
        Completes store clock ((Server.resume store clock pause (.ok eventId)).run d).1) :
      Completes store clock (.ok (.awaits pause))

def Speaks : Except BotError Progress → Prop
  | .ok (.awaits (.sending _)) => True
  | .ok (.awaits (.posting _ .message _)) => True
  | _ => False

/-- The reply is answered: a message is sent and nothing is raised. -/
def Answered (store : Settings) (bot : Bot) (clock : Nat → Int) (d : Desk) (text : Text) : Prop :=
  Speaks ((handleReply store bot clock bot.approver text).run d).1 ∧
    Completes store clock ((handleReply store bot clock bot.approver text).run d).1

theorem completes_sending (message : Message) :
    Completes store clock (.ok (.awaits (.sending message))) :=
  .awaits fun _ _ _ => .returns none

/-- The reactions and the record that follow a posted request. -/
theorem completes_reactions (req : GrantRecord) (eventId : Text) (rest : List Text) (emoji : Text) :
    Completes store clock (.ok (.awaits (.posting req (.reaction eventId emoji rest) .undo))) := by
  induction rest generalizing emoji with
  | nil =>
    refine .awaits fun d sent hFresh => ?_
    have hRun := @resumePosting_recorded store clock req eventId emoji sent .undo d hFresh
    rw [resume, hRun]
    exact .returns _
  | cons next rest ih =>
    refine .awaits fun d sent _ => ?_
    rw [resume, resumePosting_reaction]
    exact ih next

theorem completes_posting (req : GrantRecord) :
    Completes store clock (.ok (.awaits (.posting req .message .undo))) := by
  refine .awaits fun d eventId _ => ?_
  rw [resume, resumePosting_message]
  exact completes_reactions req eventId _ _

theorem completes_of_speaks {result : Except BotError Progress × Desk}
    (h : Effect.Post (fun progress _ => progress.Says) (fun _ _ => False) result) :
    Speaks result.1 ∧ Completes store clock result.1 := by
  obtain ⟨outcome, d⟩ := result
  rcases outcome with err | progress
  · exact h.elim
  · cases progress with
    | returns answer => exact (show False from h).elim
    | awaits pause =>
      cases pause with
      | sending message => exact ⟨trivial, completes_sending message⟩
      | posting req stage caller => exact (show False from h).elim
      | noticing rid rest => exact (show False from h).elim

theorem not_completes_error {err : BotError} : ¬ Completes store clock (.error err) := by
  intro h
  cases h

theorem allRecords_knows {now : Int} {db : Database} {rid : Nat}
    (h : rid ∈ (allRecords store now db).map GrantRecord.id) : db.Knows rid := by
  obtain ⟨record, hRecord, rfl⟩ := List.mem_map.mp h
  obtain ⟨⟨key, row⟩, hRow, rfl⟩ := List.mem_map.mp hRecord
  change (db.grants.get? key).isSome = true
  rw [(db.grants.mem_rows_iff key row).mp hRow]
  rfl

theorem handleDecision_speaks (action : Text) (rid : Nat) (itemNumbers : Option (List Nat))
    (expiry : Option Text) (d : Desk) :
    Effect.Post (fun progress _ => progress.Says) (fun _ _ => False)
      ((handleDecision store clock action rid itemNumbers expiry).run d) := by
  have hRead : (readStore clock (allRecords store)).run d =
      (.ok (allRecords store (clock d.asked) d.db), { d with asked := d.asked + 1 }) := rfl
  rw [handleDecision, Effect.bind_ok hRead]
  split
  · trivial
  · rename_i hKnown
    have hKnows : Desk.Knows rid { d with asked := d.asked + 1 } :=
      allRecords_knows (not_not.mp hKnown)
    split
    · exact decideRequest_speaks action itemNumbers expiry _ hKnows
    split
    · exact decideRequest_speaks action none none _ hKnows
    · exact revokeRequest_speaks _ hKnows

/-- A reply that is no undo is answered as soon as it can be parsed. -/
theorem handleReply_speaks {text : Text} {parsed : Option Parsed}
    (hParsed : parseReply text = .ok parsed) (hUndo : ∀ rid, parsed ≠ some (.undo rid)) (d : Desk) :
    Effect.Post (fun progress _ => progress.Says) (fun _ _ => False)
      ((handleReply store bot clock bot.approver text).run d) := by
  rw [handleReply, if_neg (by simp), hParsed]
  cases parsed with
  | none =>
    dsimp only
    rw [teach]
    split <;> trivial
  | some parsed =>
    cases parsed with
    | status => trivial
    | revokeAll =>
      obtain ⟨message, d', hRun⟩ := @revokeMany_sends store clock none d
      dsimp only
      rw [hRun]
      trivial
    | revokeInstance name =>
      obtain ⟨message, d', hRun⟩ := @revokeMany_sends store clock (some name) d
      dsimp only
      rw [hRun]
      trivial
    | undo rid => exact absurd rfl (hUndo rid)
    | decision action rid itemNumbers expiry =>
      exact handleDecision_speaks action rid itemNumbers expiry d

theorem answered_undo {text : Text} {rid : Nat} {d : Desk}
    (hParsed : parseReply text = .ok (some (.undo rid))) :
    Answered store bot clock d text ↔
      ∀ window, d.WindowOpen clock rid window → window.Acceptable store := by
  have hHandle : handleReply store bot clock bot.approver text = undo store clock rid := by
    rw [handleReply, if_neg (by simp), hParsed]
  rw [Answered, hHandle]
  by_cases hOpen : ∃ window, d.WindowOpen clock rid window
  · obtain ⟨window, hWindow⟩ := hOpen
    have hOnly : (∀ other, d.WindowOpen clock rid other → other.Acceptable store) ↔
        window.Acceptable store := by
      constructor
      · exact fun h => h window hWindow
      · rintro h other ⟨hOther, _⟩
        rw [hWindow.1] at hOther
        cases hOther
        exact h
    rw [hOnly, undo_open hWindow]
    by_cases hAccepted : window.Acceptable store
    · obtain ⟨clean, _, hRun⟩ := @recreate_accepted store clock window hAccepted (d.closed rid)
      rw [hRun]
      exact iff_of_true ⟨trivial, completes_posting _⟩ hAccepted
    · obtain ⟨cause, hRun⟩ := @recreate_refused store clock window hAccepted (d.closed rid)
      rw [hRun]
      exact iff_of_false (fun h => not_completes_error h.2) hAccepted
  · obtain ⟨d', hRun, _⟩ := @undo_refused store clock rid d fun window h => hOpen ⟨window, h⟩
    rw [hRun]
    exact iff_of_true ⟨trivial, completes_sending _⟩ fun window h => absurd ⟨window, h⟩ hOpen

/-- A reply is answered exactly if its numbers can be converted and the store takes back what
the open window holds that it undoes. -/
theorem reply_answered_iff (store : Settings) (bot : Bot) (clock : Nat → Int) (d : Desk)
    (text : Text) :
    Answered store bot clock d text ↔
      ¬ Raises (words text) ∧
        ∀ rid window, parseReply text = .ok (some (.undo rid)) → d.WindowOpen clock rid window →
          window.Acceptable store := by
  cases hParsed : parseReply text with
  | error cause =>
    have hRaises := raises_of_error ((parseReply_words text).symm.trans hParsed)
    refine iff_of_false ?_ fun h => h.1 hRaises
    rintro ⟨_, hCompletes⟩
    rw [handleReply, if_neg (by simp), hParsed] at hCompletes
    exact not_completes_error hCompletes
  | ok parsed =>
    have hReads : ¬ Raises (words text) := by
      intro hRaises
      obtain ⟨error, hError⟩ := error_of_raises hRaises
      rw [← parseReply_words, hParsed] at hError
      cases hError
    rw [and_iff_right hReads]
    by_cases hUndo : ∃ rid, parsed = some (.undo rid)
    · obtain ⟨rid, rfl⟩ := hUndo
      rw [answered_undo hParsed]
      constructor
      · intro h rid' window hSame
        cases hSame
        exact h window
      · exact fun h window => h rid window rfl
    · refine iff_of_true ?_ fun rid window hSame => absurd ⟨rid, Except.ok.inj hSame⟩ hUndo
      exact completes_of_speaks (handleReply_speaks hParsed (fun rid h => hUndo ⟨rid, h⟩) d)

/-- An empty item in the list is raised on, and nobody hears of it. -/
theorem empty_item_unanswered :
    ¬ Answered defaultSettings ⟨"@owner".toList, fun _ => none⟩ (fun n => n)
      ⟨Database.empty, [], [], 0⟩ "approve 3 ,".toList := by
  rintro ⟨_, hCompletes⟩
  have hParsed : parseReply "approve 3 ,".toList = .error (.invalidLiteral []) := by decide +kernel
  rw [handleReply, if_neg (by simp), hParsed] at hCompletes
  exact not_completes_error hCompletes

end AccessBroker.MatrixBot
