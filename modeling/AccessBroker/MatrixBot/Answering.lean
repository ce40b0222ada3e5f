import AccessBroker.MatrixBot.Settling

/-! # Decisions are answered

A decision on a stored request always ends in a message to the room: the store
raises only exceptions that the bot reports.
-/

namespace AccessBroker.Grants
open Py
set_option autoImplicit false

def Database.Knows (rid : Nat) (db : Database) : Prop := (db.grants.get? rid).isSome = true

/-- The exceptions that report a decision on a stored request that cannot be made. -/
def GrantError.Reportable (e : GrantError) : Prop := e.pyClass = .valueError

variable {cfg : Settings} {now : Int} {rid : Nat}

theorem chooseItems_raises {items : List Item} {numbers : List (Option Int)} {e : GrantError}
    (h : chooseItems items numbers = .error e) : e.Reportable := by
  induction numbers with
  | nil => cases h
  | cons number rest ih =>
    cases number with
    | none =>
      cases h
      rfl
    | some n =>
      rw [chooseItems] at h
      split at h
      · cases h
        rfl
      split at h
      · cases h
        rfl
      · cases hRest : chooseItems items rest with
        | error e' =>
          have hEq : e' = e := by simpa [hRest, bind, Except.bind] using h
          exact ih (by rw [hRest, hEq])
        | ok chosen => simp [hRest, bind, Except.bind, pure, Except.pure] at h

theorem parseExpiry_raises {expiry : Option Text} {e : GrantError}
    (h : parseExpiry expiry = .error e) : e.Reportable := by
  cases expiry with
  | none => cases h
  | some text =>
    rw [parseExpiry] at h
    split at h
    · cases h
      rfl
    · dsimp only at h
      split at h
      · cases h
        rfl
      · cases h

theorem getRow_knows :
    Effect.Triple (Database.Knows rid) (getRow cfg now rid)
      (fun _ => Database.Knows rid) (fun _ _ => False) := by
  intro db hKnown
  obtain ⟨row, hRow⟩ := Option.isSome_iff_exists.mp hKnown
  rw [getRow_run hRow]
  exact hKnown

theorem assertPending_knows :
    Effect.Triple (Database.Knows rid) (assertPending cfg now rid)
      (fun _ => Database.Knows rid) (fun e _ => e.Reportable) := by
  intro db hKnown
  obtain ⟨row, hRow⟩ := Option.isSome_iff_exists.mp hKnown
  rw [assertPending, Effect.bind_ok (Effect.get_run db), hRow]
  dsimp only
  split
  · exact rfl
  · exact hKnown

theorem updateGrant_knows (f : Row → Row) {E : GrantError → Database → Prop} :
    Effect.Triple (Database.Knows rid) (updateGrant rid f) (fun _ => Database.Knows rid) E := by
  apply Effect.Triple.modify
  intro db hKnown
  rw [Database.Knows, AutoTable.get?_modify, if_pos rfl, Option.isSome_map]
  exact hKnown

/-- Writing the row of a known request and reading it back raises nothing. -/
theorem rewrite_knows (f : Row → Row) {E : GrantError → Database → Prop} :
    Effect.Triple (Database.Knows rid) (do updateGrant rid f; getRow cfg now rid)
      (fun _ => Database.Knows rid) E :=
  (updateGrant_knows f).bind fun _ => getRow_knows.consequence (fun _ h => h) (fun _ _ h => h)
    fun _ _ h => h.elim

theorem approve_knows (expiry : Option Text) (itemNumbers : Option (List (Option Int))) :
    Effect.Triple (Database.Knows rid) (approve cfg now rid expiry itemNumbers)
      (fun _ => Database.Knows rid) (fun e _ => e.Reportable) := by
  apply assertPending_knows.bind
  intro row
  split
  · rename_i e hExpiry
    exact .raise fun _ _ => parseExpiry_raises hExpiry
  dsimp only
  split
  · rename_i e hItems
    refine .raise fun _ _ => ?_
    cases itemNumbers with
    | none => cases hItems
    | some numbers => exact chooseItems_raises hItems
  split
  · exact rewrite_knows _
  · exact rewrite_knows _

theorem reject_knows :
    Effect.Triple (Database.Knows rid) (reject cfg now rid)
      (fun _ => Database.Knows rid) (fun e _ => e.Reportable) :=
  assertPending_knows.bind fun _ => rewrite_knows _

theorem revoke_knows :
    Effect.Triple (Database.Knows rid) (revoke cfg now rid)
      (fun _ => Database.Knows rid) (fun e _ => e.Reportable) := by
  intro db hKnown
  obtain ⟨row, hRow⟩ := Option.isSome_iff_exists.mp hKnown
  rw [revoke, Effect.bind_ok (Effect.get_run db), hRow]
  dsimp only
  split
  · exact rewrite_knows _ db hKnown
  · exact rewrite_knows _ db hKnown
  · exact rfl

end AccessBroker.Grants

namespace AccessBroker.MatrixBot
open Py Grants Server
set_option autoImplicit false

variable {store : Settings} {bot : Bot} {clock : Nat → Int} {rid : Nat}

def Progress.Says : Progress → Prop
  | .awaits (.sending _) => True
  | _ => False

def Desk.Knows (rid : Nat) (d : Desk) : Prop := d.db.Knows rid

def BotError.Reportable : BotError → Prop
  | .store cause => cause.Reportable
  | _ => False

theorem say_speaks {P : Desk → Prop} {E : BotError → Desk → Prop} (message : Message) :
    Effect.Triple P (say message) (fun progress _ => progress.Says) E :=
  .pure fun _ _ => trivial

theorem onStore_knows {α : Type} {op : Int → Effect Database GrantError α}
    (h : ∀ now, Effect.Triple (Database.Knows rid) (op now) (fun _ => Database.Knows rid)
      (fun e _ => e.Reportable)) :
    Effect.Triple (Desk.Knows rid) (onStore clock op) (fun _ => Desk.Knows rid)
      (fun e _ => e.Reportable) := by
  have hClock : Effect.Triple (Desk.Knows rid) (readClock clock) (fun _ => Desk.Knows rid)
      (fun e _ => e.Reportable) := fun _ hKnown => hKnown
  apply hClock.bind
  intro now
  exact (h now).zoom (fun _ hKnown => hKnown) (fun _ _ _ hKnown => hKnown) fun _ _ _ hRaised => hRaised

theorem readBack_knows {E : BotError → Desk → Prop} :
    Effect.Triple (Desk.Knows rid) (onStore clock fun now => getRow store now rid)
      (fun _ => Desk.Knows rid) E := by
  intro d hKnown
  obtain ⟨row, hRow⟩ := Option.isSome_iff_exists.mp hKnown
  rw [onStore_run, getRow_run hRow]
  exact hKnown

theorem readStatus_knows {E : BotError → Desk → Prop} :
    Effect.Triple (Desk.Knows rid) (readStatus store clock) (fun _ => Desk.Knows rid) E :=
  fun _ hKnown => hKnown

theorem armUndo_knows {E : BotError → Desk → Prop} (record : GrantRecord) :
    Effect.Triple (Desk.Knows rid) (armUndo clock rid record) (fun _ => Desk.Knows rid) E :=
  fun _ hKnown => hKnown

theorem reportRefused_speaks (err : BotError) {E : BotError → Desk → Prop} :
    Effect.Triple (fun _ => err.Reportable) (reportRefused rid err)
      (fun progress _ => progress.Says) E := by
  intro d hReportable
  cases err with
  | store cause =>
    have hClass : cause.pyClass = .valueError := hReportable
    rw [reportRefused, if_pos hClass]
    trivial
  | send cause => exact hReportable.elim
  | number cause => exact hReportable.elim

theorem decideRequest_speaks (action : Text) (itemNumbers : Option (List Nat))
    (expiry : Option Text) :
    Effect.Triple (Desk.Knows rid) (decideRequest store clock rid action itemNumbers expiry)
      (fun progress _ => progress.Says) (fun _ _ => False) := by
  refine Effect.Triple.handle (F := fun err _ => err.Reportable) ?_ fun err => reportRefused_speaks err
  split
  · exact (onStore_knows fun now => approve_knows expiry _).bind fun _ =>
      readStatus_knows.bind fun _ => say_speaks _
  · exact (onStore_knows fun now => reject_knows).bind fun _ =>
      readBack_knows.bind fun record =>
        (armUndo_knows record).bind fun _ => readStatus_knows.bind fun _ => say_speaks _

theorem revokeRequest_speaks :
    Effect.Triple (Desk.Knows rid) (revokeRequest store clock rid)
      (fun progress _ => progress.Says) (fun _ _ => False) := by
  apply (onStore_knows fun now => revoke_knows).attempt.bind
  intro result d hPost
  rcases result with err | record
  · cases err with
    | store cause =>
      have hClass : cause.pyClass = .valueError := hPost
      dsimp only
      rw [if_pos (by rw [PyClass.isRevokeRefusal, hClass]; rfl)]
      trivial
    | send cause => exact hPost.elim
    | number cause => exact hPost.elim
  · exact (readBack_knows.bind fun record =>
      (armUndo_knows record).bind fun _ => readStatus_knows.bind fun _ => say_speaks _) d hPost

end AccessBroker.MatrixBot
