import AccessBroker.Nextcloud.Outcomes
import AccessBroker.WebdavAdapter

/-! # A checkout that fails

The lock is taken first. Whatever fails after that leaves the file locked by a call
that returns no token.
-/

namespace AccessBroker.Nextcloud
open Py Paths Grants Audit WebdavAdapter
set_option autoImplicit false

/-- The question at which a checkout that passes the wall asks for the lock. -/
def lockQuestion (w : World) : Nat := callQuestion { w with asked := w.asked + 2 }

/-- The question at which it then asks for the content. -/
def contentQuestion (w : World) : Nat := callQuestion { w with asked := lockQuestion w + 1 }

/-- The lock was asked for and granted, and no unlocking was tried. -/
def LeavesLock (granted : Prop) (instanceName : Text) (w w' : World) : Prop :=
  granted ∧ ∃ events, w'.trace = w.trace ++ events ∧
    (∃ path timeout, .verb instanceName (.lock path timeout) ∈ events) ∧
    ∀ path lockToken, .verb instanceName (.unlock path lockToken) ∉ events

/-- What a checkout that has the lock still needs: the reply with the token, the record of
the read and the content. -/
structure Delivers (layer : Layer) (env : Environment) (instanceName : Text)
    (principal : Option Text) (w : World) (norm : Text) : Prop where
  locked : ∃ reply, env.reply (lockQuestion w) = .ok reply ∧ reply.isDict = true
  recorded : PermitsNext env (lockQuestion w + 1) w.audit
    (allowedEntry layer instanceName norm "read".toList "checkout read".toList principal)
  content : ∃ reply, env.reply (contentQuestion w) = .ok reply

section Checkouts

variable (platform : Platform) (layer : Layer) (db : Database) (env : Environment)
variable (instanceName path : Text) (timeout : Int) (principal : Option Text) (w : World)

/-- The wall passes the path, and the record of the checkout is written. -/
def Proceeds (norm : Text) : Prop :=
  Passes platform layer db env.clock w.asked instanceName path WRITE norm ∧
    Permits env (w.asked + 2) w.audit
      (allowedEntry layer instanceName norm "checkout".toList "granted write".toList principal)

variable {platform layer db env instanceName path timeout principal w}

theorem leaves_no_lock {granted : Prop} {written : Entry → Prop} {w' : World}
    (h : Leaves w w' written noCall) : ¬ LeavesLock granted instanceName w w' := by
  rintro ⟨_, events, hEvents, ⟨path, timeout, hLock⟩, _⟩
  obtain ⟨others, hOthers, _, hCalled⟩ := h
  rw [hOthers] at hEvents
  cases List.append_cancel_left hEvents
  exact (hCalled _ _).mp hLock

theorem leaves_lock {granted : Prop} {written : Entry → Prop} {called : Text → Verb → Prop}
    {w' : World} (h : Leaves w w' written called) {norm : Text}
    (hLock : called instanceName (.lock norm timeout))
    (hUnlock : ∀ path lockToken, ¬ called instanceName (.unlock path lockToken))
    (hGranted : granted) : LeavesLock granted instanceName w w' := by
  obtain ⟨events, hEvents, _, hCalled⟩ := h
  refine ⟨hGranted, events, hEvents, ⟨norm, timeout, (hCalled _ _).mpr hLock⟩, ?_⟩
  exact fun path lockToken hMem => hUnlock path lockToken ((hCalled _ _).mp hMem)

variable (platform) in
theorem deliver_leaves (norm : Text) (result : Reply) (w : World) :
    let entry := allowedEntry layer instanceName norm "read".toList "checkout read".toList principal
    ∃ returned w' written called, (do
        let content ← auditAnd platform layer env instanceName norm "read".toList
          "checkout read".toList (.get norm) principal
        let data := if content.isDict then content.content else none
        if result.isDict then return (result.lockToken, data)
        else Effect.raise .attributeError : Run (Option Text × Option Bytes)).run w =
          (returned, w') ∧
      ((∃ value, returned = .ok value) ↔ result.isDict = true ∧
        Permits env w.asked w.audit entry ∧ ∃ reply, env.reply (callQuestion w) = .ok reply) ∧
      Leaves w w' written called ∧ ∀ path lockToken, ¬ called instanceName (.unlock path lockToken) := by
  intro entry
  rcases auditAnd_leaves platform layer env instanceName w norm "read".toList
      "checkout read".toList (.get norm) principal with
    ⟨hPermits, content, w', hRun, hReply, _, _, _, hLeaves⟩ | ⟨hNot, err, w', hRun, hLeaves⟩
  · have hUnlock (path lockToken : Text) :
        ¬ (instanceName = instanceName ∧ Verb.unlock path lockToken = .get norm) :=
      fun h => by cases h.2
    cases content with
    | error err =>
      refine ⟨.error err, w', _, _, Effect.bind_error hRun, iff_of_false (by simp) ?_, hLeaves,
        hUnlock⟩
      rintro ⟨_, _, reply, hOk⟩
      cases (hReply reply).mpr hOk
    | ok content =>
      have hContent : ∃ reply, env.reply (callQuestion w) = .ok reply :=
        ⟨content, (hReply content).mp rfl⟩
      by_cases hDict : result.isDict = true
      · refine ⟨.ok (result.lockToken, if content.isDict then content.content else none), w', _, _,
          (Effect.bind_ok hRun).trans ?_, iff_of_true ⟨_, rfl⟩ ⟨hDict, hPermits, hContent⟩, hLeaves, hUnlock⟩
        dsimp only
        rw [if_pos hDict]
        rfl
      · refine ⟨.error .attributeError, w', _, _, (Effect.bind_ok hRun).trans ?_,
          iff_of_false (by simp) fun h => hDict h.1, hLeaves, hUnlock⟩
        dsimp only
        rw [if_neg hDict]
        rfl
  · exact ⟨.error err, w', _, _, Effect.bind_error hRun,
      iff_of_false (by simp) fun h => hNot h.2.1, hLeaves, fun _ _ h => h⟩

variable (timeout) in
/-- A checkout that proceeds calls LOCK and nothing to undo it, and returns exactly if it
delivers. -/
theorem checkout_proceeds {norm : Text}
    (h : Proceeds platform layer db env instanceName path principal w norm) :
    ∃ result w', (checkout platform layer db env instanceName path timeout principal).run w =
        (result, w') ∧
      ((∃ value, result = .ok value) ↔ Delivers layer env instanceName principal w norm) ∧
      ∀ granted : Prop, granted → LeavesLock granted instanceName w w' := by
  obtain ⟨hPasses, hPermits⟩ := h
  rcases authorized_decides platform layer db env instanceName path WRITE w with
    ⟨_, w₁, hPasses₁, hRun, hAsked, hAudit, hQuiet⟩ | ⟨hNone, _⟩
  swap
  · exact absurd hPasses (hNone norm)
  cases hPasses₁.norm_eq hPasses.guard
  rw [← hAsked, ← hAudit] at hPermits
  rcases auditAnd_leaves platform layer env instanceName w₁ norm "checkout".toList
      "granted write".toList (.lock norm timeout) principal with
    ⟨_, reply, w₂, hRun₂, hReply, hAsked₂, hPermits₂, hAudit₂, hLeaves⟩ | ⟨hNot, _⟩
  swap
  · exact absurd hPermits hNot
  have hQuestion : callQuestion w₁ = lockQuestion w :=
    callQuestion_congr hAsked (congrArg Option.isSome hAudit)
  rw [hQuestion] at hReply hAsked₂
  rw [hAudit] at hAudit₂ hPermits₂
  have hContent : callQuestion w₂ = contentQuestion w := callQuestion_congr hAsked₂ hAudit₂
  have hCalled := hQuiet.after hLeaves
  cases reply with
  | error err =>
    refine ⟨.error err, w₂, (Effect.bind_ok hRun).trans (Effect.bind_error hRun₂),
      iff_of_false (by simp) ?_, fun granted hGranted => ?_⟩
    · rintro ⟨⟨reply, hOk, _⟩, _, _⟩
      cases (hReply reply).mpr hOk
    · exact leaves_lock hCalled ⟨rfl, rfl⟩ (fun _ _ h => by cases h.2) hGranted
  | ok reply =>
    obtain ⟨result, w₃, written, called, hRun₃, hResult, hLeaves₃, hUnlock⟩ :=
      deliver_leaves platform norm reply w₂
    refine ⟨result, w₃, (Effect.bind_ok hRun).trans ((Effect.bind_ok hRun₂).trans hRun₃), ?_,
      fun granted hGranted => ?_⟩
    · rw [hResult, hContent, hPermits₂, hAsked₂]
      constructor
      · rintro ⟨hDict, hPermits, hOk⟩
        exact ⟨⟨reply, (hReply reply).mp rfl, hDict⟩, hPermits, hOk⟩
      · rintro ⟨⟨reply', hOk, hDict⟩, hPermits, hContent⟩
        cases (hReply reply').mpr hOk
        exact ⟨hDict, hPermits, hContent⟩
    · refine leaves_lock (hCalled.trans hLeaves₃) (Or.inl ⟨rfl, rfl⟩) ?_ hGranted
      rintro path lockToken (⟨_, h⟩ | h)
      · cases h
      · exact hUnlock path lockToken h

variable (timeout) in
theorem checkout_refused
    (h : ∀ norm, ¬ Proceeds platform layer db env instanceName path principal w norm) :
    ∃ err w' written, (checkout platform layer db env instanceName path timeout principal).run w =
      (.error err, w') ∧ Leaves w w' written noCall := by
  rcases authorized_decides platform layer db env instanceName path WRITE w with
    ⟨norm, w₁, hPasses, hRun, hAsked, hAudit, hQuiet⟩ | ⟨_, err, w₁, _, _, hRun, hLeaves⟩
  · rcases auditAnd_leaves platform layer env instanceName w₁ norm "checkout".toList
        "granted write".toList (.lock norm timeout) principal with
      ⟨hPermits, _⟩ | ⟨_, err, w₂, hRun₂, hLeaves⟩
    · rw [hAsked, hAudit] at hPermits
      exact absurd ⟨hPasses, hPermits⟩ (h norm)
    · exact ⟨err, w₂, _, (Effect.bind_ok hRun).trans (Effect.bind_error hRun₂),
        hQuiet.after hLeaves⟩
  · exact ⟨err, w₁, _, Effect.bind_error hRun, hLeaves⟩

end Checkouts

section Orphans

variable (platform : Platform) (layer : Layer) (db : Database) (env : Environment)
variable (instanceName path : Text) (timeout : Int) (principal : Option Text) (w : World)

/-- A checkout that raises leaves no lock behind, exactly if it does not ask for the lock, is
not granted it, or gets the token, the second record and the content. -/
theorem checkout_leaves_no_lock_iff (response : LockResponse)
    (hResponse : env.reply (lockQuestion w) = lock response) :
    (∀ err w', (checkout platform layer db env instanceName path timeout principal).run w =
        (.error err, w') → ¬ LeavesLock (response.granted = true) instanceName w w') ↔
      ∀ norm, Proceeds platform layer db env instanceName path principal w norm →
        response.granted = true → response.Tokened ∧
          PermitsNext env (lockQuestion w + 1) w.audit (allowedEntry layer instanceName norm
            "read".toList "checkout read".toList principal) ∧
          ∃ reply, env.reply (contentQuestion w) = .ok reply := by
  have hDelivers (norm : Text) : Delivers layer env instanceName principal w norm ↔
      response.Tokened ∧
        PermitsNext env (lockQuestion w + 1) w.audit (allowedEntry layer instanceName norm
          "read".toList "checkout read".toList principal) ∧
        ∃ reply, env.reply (contentQuestion w) = .ok reply := by
    constructor
    · rintro ⟨⟨reply, hReply, _⟩, hRecorded, hContent⟩
      rw [hResponse] at hReply
      exact ⟨lock_ok_iff.mp ⟨reply, hReply⟩, hRecorded, hContent⟩
    · rintro ⟨hTokened, hRecorded, hContent⟩
      obtain ⟨reply, hReply⟩ := lock_ok_iff.mpr hTokened
      exact ⟨⟨reply, hResponse.trans hReply, lock_isDict hReply⟩, hRecorded, hContent⟩
  constructor
  · intro h norm hProceeds hGranted
    obtain ⟨result, w', hRun, hResult, hLeaves⟩ := checkout_proceeds timeout hProceeds
    rw [← hDelivers, ← hResult]
    cases result with
    | ok value => exact ⟨value, rfl⟩
    | error err => exact absurd (hLeaves _ hGranted) (h err w' hRun)
  · intro h err w' hRun hLeaves
    by_cases hProceeds : ∃ norm, Proceeds platform layer db env instanceName path principal w norm
    · obtain ⟨norm, hProceeds⟩ := hProceeds
      obtain ⟨result, w₁, hRun₁, hResult, _⟩ := checkout_proceeds timeout hProceeds
      obtain ⟨value, hValue⟩ := hResult.mpr ((hDelivers norm).mpr (h norm hProceeds hLeaves.1))
      rw [hRun, hValue] at hRun₁
      cases hRun₁
    · obtain ⟨err₁, w₁, written, hRun₁, hQuiet⟩ :=
        checkout_refused timeout fun norm hNorm => hProceeds ⟨norm, hNorm⟩
      rw [hRun] at hRun₁
      cases hRun₁
      exact leaves_no_lock hQuiet hLeaves

end Orphans

/-! ## A small server -/

/-- A server's response to the LOCK, the write of the second record, and the reply to the GET. -/
structure Served where
  response : LockResponse
  record : Write
  content : Except TransportError Reply

def Served.environment (served : Served) : Environment where
  clock := calm.clock
  stamp := calm.stamp
  writes := fun k => (if k = 4 then served.record else .completes, .completes)
  reply := fun k => if k = 3 then lock served.response else served.content

/-- The checkout of `a/b` raises and leaves its lock behind. -/
def Served.Orphans (served : Served) : Prop :=
  ∃ err w', (checkout plainPlatform oneClient (oneGrant ⟨['a'], WRITE⟩) served.environment ['p']
      ['a', '/', 'b'] 0 none).run opened = (.error err, w') ∧
    LeavesLock (served.response.granted = true) ['p'] opened w'

def lockedReply : LockResponse := .answered (some "<t>".toList)

def contentReply : Reply := ⟨true, some [], none, true⟩

theorem served_proceeds (served : Served) : Proceeds plainPlatform oneClient
    (oneGrant ⟨['a'], WRITE⟩) served.environment ['p'] ['a', '/', 'b'] none opened
    ['a', '/', 'b'] := by
  refine ⟨⟨rfl, by decide +kernel, ?_⟩, ?_⟩
  · change (Paths.checkAccess ['a', '/', 'b'] WRITE (grantsAt oneClient (oneGrant ⟨['a'], WRITE⟩) 1
      ['p']) 1).allowed = true
    decide +kernel
  · rintro _ ⟨⟩
    exact (recordable_iff rfl rfl rfl).mpr ⟨rfl, rfl, by decide +kernel⟩

theorem checkout_leaves_no_lock_iff_delivered :
    ¬ Served.Orphans ⟨lockedReply, .completes, .ok contentReply⟩ := by
  rintro ⟨err, w', hRun, hLeaves⟩
  refine (checkout_leaves_no_lock_iff plainPlatform oneClient (oneGrant ⟨['a'], WRITE⟩)
    (Served.environment ⟨lockedReply, .completes, .ok contentReply⟩) ['p'] ['a', '/', 'b'] 0 none
    opened lockedReply rfl).mpr (fun norm _ _ => ⟨?_, ?_, contentReply, rfl⟩) err w' hRun hLeaves
  · exact ⟨_, rfl, by decide +kernel⟩
  · rintro _ ⟨⟩
    exact (recordable_iff rfl rfl rfl).mpr ⟨rfl, rfl, by decide +kernel⟩

theorem Served.orphans {served : Served} (hGranted : served.response.granted = true)
    (hDelivers : ¬ Delivers oneClient served.environment ['p'] none opened ['a', '/', 'b']) :
    served.Orphans := by
  obtain ⟨result, w', hRun, hResult, hLeaves⟩ := checkout_proceeds 0 (served_proceeds served)
  cases result with
  | error err => exact ⟨err, w', hRun, hLeaves _ hGranted⟩
  | ok value => exact absurd (hResult.mp ⟨value, rfl⟩) hDelivers

/-- The lock is granted without a token in the response, or the second record cannot be
written, or the content cannot be fetched. -/
theorem locks_orphaned :
    Served.Orphans ⟨.answered none, .completes, .ok contentReply⟩ ∧
    Served.Orphans ⟨lockedReply, .notOpened "disk full".toList, .ok contentReply⟩ ∧
    Served.Orphans ⟨lockedReply, .completes,
      .error (webDavError 502 "download failed".toList)⟩ := by
  refine ⟨Served.orphans rfl ?_, Served.orphans rfl ?_, Served.orphans rfl ?_⟩
  · rintro ⟨⟨reply, hReply, _⟩, _, _⟩
    cases hReply
  · rintro ⟨_, hRecorded, _⟩
    cases (hRecorded _ rfl).append
  · rintro ⟨_, _, reply, hContent⟩
    cases hContent

end AccessBroker.Nextcloud
