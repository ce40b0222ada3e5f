import AccessBroker.Grants.Narrowing
import AccessBroker.MatrixBot.Following

/-! # What the handlers can make active

No handler can make a number active, except the approval of that number. A
clock reading or a change of the bot's memory touches neither the rows nor the
posted messages.
-/

namespace AccessBroker.MatrixBot
open Py Grants Server
set_option autoImplicit false

structure Desk.Narrows (gain : Nat → Prop) (d d' : Desk) : Prop where
  asked : d.asked ≤ d'.asked
  db : d.db.Narrows gain d'.db

variable {gain : Nat → Prop} {store : Settings} {bot : Bot} {clock : Nat → Int}

instance : Std.Refl (Desk.Narrows gain) where
  refl d := ⟨le_refl _, Std.Refl.refl d.db⟩

instance : IsTrans Desk (Desk.Narrows gain) where
  trans _ _ _ h h' := ⟨h.asked.trans h'.asked, IsTrans.trans _ _ _ h.db h'.db⟩

theorem onDatabase_narrows {α : Type} {op : Effect Database GrantError α}
    (h : Effect.Along (Database.Narrows gain) op) :
    Effect.Along (Desk.Narrows gain) (onDatabase op) :=
  Effect.Along.zoom (fun _ _ hDb => ⟨le_refl _, hDb⟩) h

/-- Every step but an approval narrows, and an approval gains the number it approves. -/
theorem narrows_conforms : Conforms store clock (Desk.Narrows gain) gain where
  clock d := ⟨Nat.le_succ _, Std.Refl.refl d.db⟩
  memory f hDb hAsked d := by
    refine ⟨le_of_eq (hAsked d).symm, ?_⟩
    rw [Effect.modify_run, hDb]
    exact Std.Refl.refl d.db
  approve _ _ _ _ hGain := onDatabase_narrows <| approve_along fun _ _ _ hChange =>
    hChange.narrows.mono fun _ h => h ▸ hGain
  reject _ _ := onDatabase_narrows <| reject_along fun _ _ _ hChange =>
    hChange.narrows.mono fun _ => False.elim
  revoke _ _ := onDatabase_narrows <| revoke_along fun _ _ _ hChange =>
    hChange.narrows.mono fun _ => False.elim

theorem createRequest_narrows (now : Int) (instanceName : Text) (reason : Option Text)
    (items : List RawItem) :
    Effect.Along (Desk.Narrows gain)
      (onDatabase (createRequest store now instanceName reason items)) := by
  apply onDatabase_narrows
  intro db
  rcases createRequest_cases store now instanceName reason items db with
    ⟨e, hRun⟩ | ⟨text, clean, rfl, hAllowed, hClean, hItems, hRun⟩ <;> rw [hRun]
  · exact Std.Refl.refl db
  · exact (Change.created hAllowed hClean hItems).narrows.mono fun _ => False.elim

theorem recordPosted_narrows (eventId : Text) (rid : Nat) :
    Effect.Along (Desk.Narrows gain) (onDatabase (recordPosted eventId rid)) := by
  apply onDatabase_narrows
  intro db
  rcases recordPosted_cases eventId rid db with hRun | ⟨hFresh, hRun⟩ <;> rw [hRun]
  · exact Std.Refl.refl db
  · have hChange : Change ⟨0, 0, none⟩ 0 db (.recordPosted eventId rid) none _ := .posted hFresh
    exact hChange.narrows.mono fun _ => False.elim

end AccessBroker.MatrixBot
