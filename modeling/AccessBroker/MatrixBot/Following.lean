import AccessBroker.Grants.Steps
import AccessBroker.Server

/-! # What the handlers do with the store

The handlers read the clock, keep things in memory and decide requests one at a
time; only the undo, the request tool and the end of a posting do more. A
relation that those three kinds of steps follow is followed by every handler. So is
one that also looks at the undo windows, if a rejection and a revocation follow it
as a whole.
-/

namespace AccessBroker.MatrixBot
open Py Grants Server
set_option autoImplicit false

/-- The steps that handlers are made of follow `R`, with the approvals of the numbers in
`gain`. -/
structure Conforms (store : Settings) (clock : Nat → Int) (R : Desk → Desk → Prop)
    (gain : Nat → Prop) : Prop where
  clock : Effect.Along R (readClock clock)
  memory : ∀ f : Desk → Desk, (∀ d, (f d).db = d.db) → (∀ d, (f d).asked = d.asked) →
    Effect.Along R (Effect.modify f : Handler Unit)
  approve : ∀ now rid expiry itemNumbers, gain rid →
    Effect.Along R (onDatabase (approve store now rid expiry itemNumbers))
  reject : ∀ now rid, Effect.Along R (onDatabase (reject store now rid))
  revoke : ∀ now rid, Effect.Along R (onDatabase (revoke store now rid))

/-- The parts that the handlers other than the sweep are made of follow `R`, with the approvals of
the numbers in `gain` and the rejections and revocations of those in `drop`. -/
structure Parts (store : Settings) (clock : Nat → Int) (R : Desk → Desk → Prop)
    (gain drop : Nat → Prop) : Prop where
  rejectRequest : ∀ rid, drop rid → Effect.Along R (MatrixBot.rejectRequest store clock rid)
  revokeRequest : ∀ rid, drop rid → Effect.Along R (MatrixBot.revokeRequest store clock rid)
  approve : ∀ rid expiry itemNumbers, gain rid →
    Effect.Along R (onStore clock fun now => approve store now rid expiry itemNumbers)
  reject : ∀ rid, Effect.Along R (onStore clock fun now => reject store now rid)
  revoke : ∀ rid, Effect.Along R (onStore clock fun now => revoke store now rid)
  close : ∀ rid, Effect.Along R (closeUndo rid)
  clock : Effect.Along R (readClock clock)

/-- The same for the sweep, which also changes what the bot remembers of it. -/
structure Handles (store : Settings) (clock : Nat → Int) (R : Desk → Desk → Prop)
    (gain drop : Nat → Prop) : Prop extends Parts store clock R gain drop where
  memory : ∀ f : Desk → Desk, (∀ d, (f d).db = d.db) → (∀ d, (f d).asked = d.asked) →
    (∀ d, (f d).undoWindows = d.undoWindows) → Effect.Along R (Effect.modify f : Handler Unit)

section Database

variable {store : Settings} {now : Int} {R : Database → Database → Prop} [Std.Refl R]

theorem approve_along {rid : Nat} {expiry : Option Text} {itemNumbers : Option (List (Option Int))}
    (h : ∀ db result db', Change store now db (.approve rid expiry itemNumbers) result db' →
      R db db') :
    Effect.Along R (approve store now rid expiry itemNumbers) := by
  intro db
  rcases approve_cases store now rid expiry itemNumbers db with
    ⟨e, hRun⟩ | ⟨record, db', hChange, hRun⟩ <;> rw [hRun]
  · exact Std.Refl.refl db
  · exact h db _ db' hChange

theorem reject_along {rid : Nat}
    (h : ∀ db result db', Change store now db (.reject rid) result db' → R db db') :
    Effect.Along R (reject store now rid) := by
  intro db
  rcases reject_cases store now rid db with ⟨e, hRun⟩ | ⟨record, db', hChange, hRun⟩ <;> rw [hRun]
  · exact Std.Refl.refl db
  · exact h db _ db' hChange

theorem revoke_along {rid : Nat}
    (h : ∀ db result db', Change store now db (.revoke rid) result db' → R db db') :
    Effect.Along R (revoke store now rid) := by
  intro db
  rcases revoke_cases store now rid db with ⟨e, hRun⟩ | ⟨record, db', hChange, hRun⟩ <;> rw [hRun]
  · exact Std.Refl.refl db
  · exact h db _ db' hChange

end Database

variable {R : Desk → Desk → Prop} {gain : Nat → Prop} {store : Settings} {bot : Bot}
variable {clock : Nat → Int}

theorem say_along [Std.Refl R] (message : Message) : Effect.Along R (say message) := .pure _

theorem getRow_along [Std.Refl R] (now : Int) (rid : Nat) :
    Effect.Along R (onDatabase (getRow store now rid)) := by
  intro d
  have hState : ((getRow store now rid).run d.db).2 = d.db := by
    rw [getRow, Effect.bind_ok (Effect.get_run d.db)]
    split <;> rfl
  have hDesk : ((onDatabase (getRow store now rid)).run d).2 =
      { d with db := ((getRow store now rid).run d.db).2 } := rfl
  rw [hDesk, hState]
  exact Std.Refl.refl d

theorem reportRefused_along [Std.Refl R] (rid : Nat) (err : BotError) :
    Effect.Along R (reportRefused rid err) := by
  cases err with
  | store cause =>
    rw [reportRefused]
    split
    · exact say_along _
    · exact .raise _
  | send cause => exact .raise _
  | number cause => exact .raise _

theorem teach_along [Std.Refl R] (text : Text) : Effect.Along R (teach bot text) := by
  rw [teach]
  split <;> exact say_along _

theorem sweepFrom_along [Std.Refl R] [IsTrans Desk R] (pending : List GrantRecord) :
    Effect.Along R (sweepFrom pending) := by
  induction pending with
  | nil => exact .pure _
  | cons record rest ih =>
    refine .bind .get fun d => ?_
    split
    · exact .pure _
    · exact ih

theorem posting_along [Std.Refl R] [IsTrans Desk R] {req : GrantRecord}
    (hRecord : ∀ eventId, Effect.Along R (onDatabase (recordPosted eventId req.id))) (stage : Posting)
    (outcome : Except SendError Text) : Effect.Along R (stage.resume req outcome) := by
  cases outcome with
  | error cause => cases stage <;> exact .raise _
  | ok eventId =>
    cases stage with
    | message => exact .pure _
    | reaction eventId' emoji rest =>
      cases rest with
      | cons next rest => exact .pure _
      | nil => exact .bind (hRecord _) fun _ => .pure _

/-- The end of a posting records it, and a send that fails may take it back. -/
theorem resumePosting_along [Std.Refl R] [IsTrans Desk R] {req : GrantRecord}
    (hRecord : ∀ eventId, Effect.Along R (onDatabase (recordPosted eventId req.id)))
    (hRollBack : ∀ cause, Effect.Along R (rollBack store clock req.id cause)) (stage : Posting)
    (outcome : Except SendError Text) (caller : Caller) :
    Effect.Along R (Server.resumePosting store clock req stage outcome caller) := by
  cases caller with
  | undo =>
    refine .bind (posting_along hRecord stage outcome) fun next => ?_
    split <;> exact .pure _
  | requestAccess =>
    refine .bind (.attempt (posting_along hRecord stage outcome)) fun result => ?_
    split
    · exact .pure _
    · exact .pure _
    · exact hRollBack _
    · exact .raise _

namespace Parts

variable {drop : Nat → Prop} [IsTrans Desk R]

theorem onStore {α : Type} {op : Int → Effect Database GrantError α}
    (hR : Parts store clock R gain drop) (h : ∀ now, Effect.Along R (onDatabase (op now))) :
    Effect.Along R (MatrixBot.onStore clock op) :=
  .bind hR.clock h

variable [Std.Refl R]

theorem readStore {α : Type} {view : Int → Database → α} (hR : Parts store clock R gain drop) :
    Effect.Along R (MatrixBot.readStore clock view) :=
  .bind hR.clock fun _ => .bind .get fun _ => .pure _

theorem readStatus (hR : Parts store clock R gain drop) :
    Effect.Along R (MatrixBot.readStatus store clock) :=
  .bind hR.readStore fun _ => .bind hR.readStore fun _ => .bind hR.clock fun _ => .pure _

theorem undo (hR : Parts store clock R gain drop)
    (hCreate : ∀ now instanceName reason items,
      Effect.Along R (onDatabase (createRequest store now instanceName reason items)))
    (rid : Nat) : Effect.Along R (MatrixBot.undo store clock rid) := by
  refine .bind .get fun d => ?_
  split
  · exact say_along _
  · refine .bind hR.clock fun now => .bind (hR.close rid) fun _ => ?_
    split
    · exact say_along _
    · exact .bind (hR.onStore fun now => hCreate now _ _ _) fun _ => .pure _

theorem approveRequest (hR : Parts store clock R gain drop) (rid : Nat)
    (itemNumbers : Option (List Nat)) (expiry : Option Text) (hGain : gain rid) :
    Effect.Along R (MatrixBot.approveRequest store clock rid itemNumbers expiry) :=
  .bind (hR.approve rid _ _ hGain) fun _ =>
    .bind hR.readStatus fun _ => say_along _

/-- A decision gains its number when the action is an approval, and else drops it. -/
theorem decideRequest (hR : Parts store clock R gain drop) (rid : Nat) (action : Text)
    (itemNumbers : Option (List Nat)) (expiry : Option Text)
    (hGain : action = "approve".toList → gain rid) (hDrop : action ≠ "approve".toList → drop rid) :
    Effect.Along R (MatrixBot.decideRequest store clock rid action itemNumbers expiry) := by
  refine .handle ?_ (reportRefused_along rid)
  split
  · rename_i hApprove
    exact hR.approveRequest rid itemNumbers expiry (hGain hApprove)
  · rename_i hReject
    exact hR.rejectRequest rid (hDrop hReject)

theorem revokeEach (hR : Parts store clock R gain drop) (active : List GrantRecord) :
    Effect.Along R (MatrixBot.revokeEach store clock active) := by
  induction active with
  | nil => exact .pure _
  | cons record rest ih =>
    refine .bind (.attempt (hR.revoke record.id)) fun result => ?_
    split
    · exact .bind ih fun _ => .pure _
    · split
      · exact ih
      · exact .raise _
    · exact .raise _

theorem revokeMany (hR : Parts store clock R gain drop) (instanceName : Option Text) :
    Effect.Along R (MatrixBot.revokeMany store clock instanceName) := by
  have hFinish (active : List GrantRecord) :
      Effect.Along R (MatrixBot.revokeMany.finish store clock instanceName active) := by
    refine .bind (hR.revokeEach active) fun revoked => ?_
    split
    · exact say_along _
    · exact .bind hR.readStatus fun _ => say_along _
  refine .bind hR.readStore fun active => ?_
  split
  · split
    · exact say_along _
    · exact hFinish active
  · exact hFinish active

theorem postSummary (hR : Parts store clock R gain drop) :
    Effect.Along R (MatrixBot.postSummary store clock) :=
  .bind hR.readStatus fun _ => say_along _

theorem sweep (hR : Parts store clock R gain drop) : Effect.Along R (MatrixBot.sweep store clock) :=
  .bind hR.readStore fun _ => sweepFrom_along _

theorem handleDecision (hR : Parts store clock R gain drop) (action : Text) (rid : Nat)
    (itemNumbers : Option (List Nat)) (expiry : Option Text)
    (hGain : action = "approve".toList → gain rid) (hDrop : action ≠ "approve".toList → drop rid) :
    Effect.Along R (MatrixBot.handleDecision store clock action rid itemNumbers expiry) := by
  refine .bind hR.readStore fun known => ?_
  split
  · exact say_along _
  split
  · exact hR.decideRequest rid action itemNumbers expiry hGain hDrop
  rename_i hApprove
  split
  · exact hR.decideRequest rid action none none (fun h => absurd h hApprove) hDrop
  · exact hR.revokeRequest rid (hDrop hApprove)

/-- A reaction gains or drops a number only as the approver's decision on an event posted for
it. -/
theorem handleReaction (hR : Parts store clock R gain drop) (sender eventId emoji : Text) (d : Desk)
    (hGain : sender = bot.approver → emoji = APPROVE_EMOJI →
      ∀ rid, requestForEvent eventId d.db = some rid → gain rid)
    (hDrop : sender = bot.approver → emoji = REJECT_EMOJI ∨ emoji = REVOKE_EMOJI →
      ∀ rid, requestForEvent eventId d.db = some rid → drop rid) :
    R d ((MatrixBot.handleReaction store bot clock sender eventId emoji).run d).2 := by
  rw [MatrixBot.handleReaction]
  split
  · exact Std.Refl.refl d
  rename_i hSender
  rw [Effect.bind_ok (Effect.get_run d)]
  cases hRequest : requestForEvent eventId d.db with
  | none => exact Std.Refl.refl d
  | some rid =>
    dsimp only
    split
    · rename_i hEmoji
      exact hR.decideRequest rid _ none none
        (fun _ => hGain (not_not.mp hSender) hEmoji rid hRequest) (fun h => absurd rfl h) d
    split
    · rename_i hEmoji
      exact hR.decideRequest rid _ none none (fun h => absurd h (by decide))
        (fun _ => hDrop (not_not.mp hSender) (Or.inl hEmoji) rid hRequest) d
    split
    · rename_i hEmoji
      exact hR.revokeRequest rid (hDrop (not_not.mp hSender) (Or.inr hEmoji) rid hRequest) d
    split
    · exact hR.postSummary d
    · exact Std.Refl.refl d

/-- A reply gains or drops a number only as the approver's typed decision on it. -/
theorem handleReply (hR : Parts store clock R gain drop) (sender text : Text)
    (hUndo : ∀ rid, parseReply text = .ok (some (.undo rid)) →
      Effect.Along R (MatrixBot.undo store clock rid))
    (hGain : sender = bot.approver → ∀ rid itemNumbers expiry,
      parseReply text = .ok (some (.decision "approve".toList rid itemNumbers expiry)) → gain rid)
    (hDrop : sender = bot.approver → ∀ action rid itemNumbers expiry, action ≠ "approve".toList →
      parseReply text = .ok (some (.decision action rid itemNumbers expiry)) → drop rid) :
    Effect.Along R (MatrixBot.handleReply store bot clock sender text) := by
  rw [MatrixBot.handleReply]
  split
  · exact .pure _
  rename_i hSender
  split
  · exact .raise _
  · exact teach_along text
  · exact hR.postSummary
  · exact hR.revokeMany none
  · exact hR.revokeMany _
  · rename_i rid hParsed
    exact hUndo rid hParsed
  · rename_i action rid itemNumbers expiry hParsed
    refine hR.handleDecision action rid itemNumbers expiry (fun hApprove => ?_) fun hOther => ?_
    · exact hGain (not_not.mp hSender) rid itemNumbers expiry (hApprove ▸ hParsed)
    · exact hDrop (not_not.mp hSender) action rid itemNumbers expiry hOther hParsed

/-! ## The tools of the store -/

theorem checkAccess (hR : Parts store clock R gain drop) (instanceName : Text) :
    Effect.Along R (Server.checkAccess store clock instanceName) :=
  hR.readStore

theorem requestAccess (hR : Parts store clock R gain drop)
    (hCreate : ∀ now instanceName reason items,
      Effect.Along R (onDatabase (createRequest store now instanceName reason items)))
    (instanceName : Text) (reason : Option Text) (items : List RawItem) :
    Effect.Along R (Server.requestAccess store clock instanceName reason items) := by
  refine .bind (.attempt (hR.onStore fun now => hCreate now _ _ _)) fun result => ?_
  split
  · exact .pure _
  · split
    · exact .pure _
    · exact .raise _
  · exact .raise _

theorem rollBack (hR : Parts store clock R gain drop) (rid : Nat) (cause : SendError) :
    Effect.Along R (Server.rollBack store clock rid cause) := by
  rw [Server.rollBack]
  split
  · exact .bind (hR.reject rid) fun _ => .pure _
  · exact .raise _

theorem resumePosting (hR : Parts store clock R gain drop) (req : GrantRecord)
    (hRecord : ∀ eventId, Effect.Along R (onDatabase (recordPosted eventId req.id))) (stage : Posting)
    (outcome : Except SendError Text) (caller : Caller) :
    Effect.Along R (Server.resumePosting store clock req stage outcome caller) :=
  resumePosting_along hRecord (fun _ => hR.rollBack _ _) stage outcome caller

end Parts

theorem Handles.resume [Std.Refl R] [IsTrans Desk R] {drop : Nat → Prop}
    (hR : Handles store clock R gain drop) (pause : Pause) (outcome : Except SendError Text)
    (hPosting : ∀ req stage caller, pause = .posting req stage caller →
      Effect.Along R (Server.resumePosting store clock req stage outcome caller)) :
    Effect.Along R (Server.resume store clock pause outcome) := by
  cases pause with
  | sending message =>
    cases outcome with
    | ok _ => exact .pure _
    | error cause => exact .raise _
  | posting req stage caller => exact hPosting req stage caller rfl
  | noticing rid rest =>
    cases outcome with
    | ok _ =>
      exact .bind (hR.memory _ (fun _ => rfl) (fun _ => rfl) fun _ => rfl) fun _ =>
        sweepFrom_along _
    | error cause => exact .raise _

/-! ## Relations that do not look at the windows -/

section Windows

variable [Std.Refl R] [IsTrans Desk R]

theorem parts_of (hClock : Effect.Along R (readClock clock))
    (hWindows : ∀ f : Desk → Desk, (∀ d, (f d).db = d.db) → (∀ d, (f d).asked = d.asked) →
      (∀ d, (f d).swept = d.swept) → Effect.Along R (Effect.modify f : Handler Unit))
    (hApprove : ∀ rid expiry itemNumbers, gain rid →
      Effect.Along R (onStore clock fun now => approve store now rid expiry itemNumbers))
    (hReject : ∀ rid, Effect.Along R (onStore clock fun now => reject store now rid))
    (hRevoke : ∀ rid, Effect.Along R (onStore clock fun now => revoke store now rid)) :
    Parts store clock R gain fun _ => True := by
  have hArm (rid : Nat) (record : GrantRecord) : Effect.Along R (armUndo clock rid record) :=
    .bind hClock fun _ => hWindows _ (fun _ => rfl) (fun _ => rfl) fun _ => rfl
  have hStatus : Effect.Along R (readStatus store clock) := by
    have hRead {α : Type} (view : Int → Database → α) : Effect.Along R (readStore clock view) :=
      .bind hClock fun _ => .bind .get fun _ => .pure _
    exact .bind (hRead _) fun _ => .bind (hRead _) fun _ => .bind hClock fun _ => .pure _
  have hReport (rid : Nat) (verb : Text) : Effect.Along R (do
      let record ← onStore clock fun now => getRow store now rid
      armUndo clock rid record
      let status ← readStatus store clock
      say (.decision record verb none true status)) :=
    .bind (.bind hClock fun now => getRow_along now rid) fun record =>
      .bind (hArm rid record) fun _ => .bind hStatus fun _ => say_along _
  constructor
  · exact fun rid _ => .bind (hReject rid) fun _ => hReport rid _
  · intro rid _
    refine .bind (.attempt (hRevoke rid)) fun result => ?_
    split
    · split
      · exact say_along _
      · exact .raise _
    · exact .raise _
    · exact hReport rid _
  · exact hApprove
  · exact hReject
  · exact hRevoke
  · exact fun rid => hWindows _ (fun _ => rfl) (fun _ => rfl) fun _ => rfl
  · exact hClock

theorem Conforms.handles (hR : Conforms store clock R gain) :
    Handles store clock R gain fun _ => True where
  toParts := parts_of hR.clock (fun f hDb hAsked _ => hR.memory f hDb hAsked)
    (fun rid expiry itemNumbers hGain => .bind hR.clock fun now =>
      hR.approve now rid expiry itemNumbers hGain)
    (fun rid => .bind hR.clock fun now => hR.reject now rid)
    fun rid => .bind hR.clock fun now => hR.revoke now rid
  memory f hDb hAsked _ := hR.memory f hDb hAsked

end Windows

end AccessBroker.MatrixBot
