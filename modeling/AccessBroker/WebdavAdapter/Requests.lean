import AccessBroker.Library.Embedding
import AccessBroker.Library.Machine
import AccessBroker.WebdavAdapter

/-! # The adapter's requests

The eight verbs over the methods of webdav3's client: what each asks the client for, what it
makes of the answer, and what it makes of the exceptions.
-/

namespace AccessBroker.WebdavAdapter
open Py Nextcloud
set_option autoImplicit false

/-! ## The client -/

/-- The exceptions that the adapter tells apart. -/
inductive ErrorKind where
  | notFound
  | methodNotSupported
  | responseErrorCode
  | other
  deriving DecidableEq

structure ClientError where
  kind : ErrorKind
  code : Option Int
  text : Text
  deriving DecidableEq

inductive Body where
  | empty
  | bytes (data : Bytes)
  | text (content : Text)
  deriving DecidableEq

/-- The methods that the adapter calls; a listing of the root names no path. -/
inductive ClientCall where
  | list (path : Option Text)
  | downloadIter (path : Text)
  | uploadTo (data : Bytes) (path : Text)
  | executeRequest (action path : Text) (data : Body) (headersExt : List Text)
  | move (src dst : Text) (overwrite : Bool)
  | check (path : Text)
  | mkdir (path : Text)
  | clean (path : Text)
  deriving DecidableEq

/-- What is read of the value returned; of a response, its `Lock-Token` header. -/
abbrev ClientCall.Returned : ClientCall → Type
  | .list _ => List (Option Info)
  | .downloadIter _ => List Bytes
  | .executeRequest _ _ _ _ => Option Text
  | .check _ => Bool
  | .uploadTo _ _ | .move _ _ _ | .mkdir _ | .clean _ => Unit

/-- The client answers each call by the number of calls made before. -/
structure Adapter where
  username : Text
  quote : Text → Text
  client : Nat → (call : ClientCall) → Except ClientError call.Returned

structure Exchange where
  call : ClientCall
  outcome : Except ClientError call.Returned

structure VerbReply where
  entries : List ListEntry
  reply : Reply
  deriving DecidableEq

abbrev Talking := Effect (List Exchange) TransportError

/-! ## Handlers -/

/-- `except NotFound`, `except MethodNotSupported` where a verb has it, and
`except ResponseErrorCode`; what is not caught goes on as it is. -/
def refusal (notFound : Text) (unsupported : Option Text) (failed : Text) (e : ClientError) :
    TransportError :=
  match e.kind, unsupported with
  | .notFound, _ => webDavError 404 notFound
  | .methodNotSupported, some message => webDavError 405 message
  | .responseErrorCode, _ => webDavError (statusFrom e.code) failed
  | _, _ => .other e.text

def notFoundText : Text := "Not Found".toList

def parentMissing : Text := "Not Found (parent missing?)".toList

def alreadyExists : Text := "path already exists".toList

def notEnabled : Text := "files_lock not enabled on this instance".toList

def mkcolRefusal (e : ClientError) : TransportError :=
  if e.kind = .responseErrorCode ∧ statusFrom e.code = 405 then webDavError 405 alreadyExists
  else refusal parentMissing (some alreadyExists) "mkdir failed".toList e

/-- `check` is called outside of any `try`. -/
def uncaught (e : ClientError) : TransportError := .other e.text

def done : VerbReply := ⟨[], ⟨true, none, none, true⟩⟩

/-! ## The verbs -/

namespace Adapter

variable (adapter : Adapter)

def ask (call : ClientCall) : Effect (List Exchange) ClientError call.Returned :=
  ⟨fun log => (adapter.client log.length call, log ++ [⟨call, adapter.client log.length call⟩])⟩

def attempt (call : ClientCall) (refuse : ClientError → TransportError) : Talking call.Returned := do
  match ← Effect.attempt (adapter.ask call) with
  | .error e => Effect.raise (refuse e)
  | .ok value => return value

def listResponse : Except ClientError (List (Option Info)) → ListResponse
  | .ok infos => .answered infos
  | .error e =>
    match e.kind with
    | .notFound => .notFound
    | .responseErrorCode => .responseErrorCode e.code
    | .methodNotSupported | .other => .raised e.text

abbrev listCall (path : Text) : ClientCall := .list (if path = [] ∨ path = ['/'] then none else some path)

def propfind (path : Text) : Talking VerbReply := do
  let outcome ← Effect.attempt (adapter.ask (listCall path))
  match WebdavAdapter.propfind adapter.username path (listResponse outcome) with
  | .error e => Effect.raise e
  | .ok entries => return ⟨entries, done.reply⟩

def get (path : Text) : Talking VerbReply := do
  let chunks ← adapter.attempt (.downloadIter path)
    (refusal notFoundText none "download failed".toList)
  return ⟨[], ⟨true, some (List.flatten chunks), none, true⟩⟩

def lockHeader (lockToken : Text) : Text := "If: (<".toList ++ lockToken ++ ">)".toList

/-- A write under a lock names the lock, any other write is a plain upload. -/
def putCall (path : Text) (data : Bytes) (lockToken : Option Text) : ClientCall :=
  match lockToken with
  | none | some [] => .uploadTo data path
  | some token => .executeRequest "upload".toList (adapter.quote path) (.bytes data) [lockHeader token]

def put (path : Text) (data : Bytes) (lockToken : Option Text) : Talking VerbReply := do
  let _ ← adapter.attempt (adapter.putCall path data lockToken)
    (refusal parentMissing none "upload failed".toList)
  return done

def move (src dst : Text) : Talking VerbReply := do
  let _ ← adapter.attempt (.move src dst false) (refusal notFoundText none "move failed".toList)
  return done

def mkcol (path : Text) : Talking VerbReply := do
  let found ← adapter.attempt (.check path) uncaught
  if found then Effect.raise (webDavError 405 alreadyExists)
  else
    let _ ← adapter.attempt (.mkdir path) mkcolRefusal
    return done

def delete (path : Text) : Talking VerbReply := do
  let _ ← adapter.attempt (.clean path) (refusal notFoundText none "delete failed".toList)
  return done

def lockInfo : Text :=
  ("<D:lockinfo xmlns:D='DAV:'><D:lockscope><D:exclusive/>" ++
    "</D:lockscope><D:locktype><D:write/></D:locktype></D:lockinfo>").toList

abbrev lockCall (path : Text) (timeout : Int) : ClientCall :=
  .executeRequest "lock".toList (adapter.quote path) (.text lockInfo)
    (if 0 < timeout then ["Timeout: Second-".toList ++ decimal timeout] else [])

def lockResponse : Except ClientError (Option Text) → LockResponse
  | .ok lockToken => .answered lockToken
  | .error e =>
    match e.kind with
    | .notFound => .notFound
    | .methodNotSupported => .methodNotSupported
    | .responseErrorCode => .responseErrorCode e.code
    | .other => .raised e.text false

def lock (path : Text) (timeout : Int) : Talking VerbReply := do
  let outcome ← Effect.attempt (adapter.ask (adapter.lockCall path timeout))
  match WebdavAdapter.lock (lockResponse outcome) with
  | .error e => Effect.raise e
  | .ok reply => return ⟨[], reply⟩

abbrev unlockCall (path lockToken : Text) : ClientCall :=
  .executeRequest "unlock".toList (adapter.quote path) .empty
    ["Lock-Token: <".toList ++ lockToken ++ ">".toList, lockHeader lockToken]

def unlock (path lockToken : Text) : Talking VerbReply := do
  if lockToken = [] then Effect.raise (.other "lock_token is required for unlock".toList)
  else
    let _ ← adapter.attempt (adapter.unlockCall path lockToken)
      (refusal notFoundText (some notEnabled) "unlock failed".toList)
    return done

def serve : Verb → Talking VerbReply
  | .propfind path => adapter.propfind path
  | .get path => adapter.get path
  | .put path data lockToken => adapter.put path data lockToken
  | .move src dst => adapter.move src dst
  | .delete path => adapter.delete path
  | .mkcol path => adapter.mkcol path
  | .lock path timeout => adapter.lock path timeout
  | .unlock path lockToken => adapter.unlock path lockToken

end Adapter

/-! ## Runs -/

structure Served where
  verb : Verb
  result : Except TransportError VerbReply

/-- What the client was asked, and what the layer was told. -/
structure Talk where
  log : List Exchange
  served : List Served

def Adapter.step (adapter : Adapter) (s : Talk) (verb : Verb) : Talk :=
  let outcome := (adapter.serve verb).run s.log
  ⟨outcome.2, s.served ++ [⟨verb, outcome.1⟩]⟩

/-! ## What a verb keeps to -/

/-- The calls that a verb makes, in order, if each goes well. -/
def Adapter.plan (adapter : Adapter) : Verb → List ClientCall
  | .propfind path => [Adapter.listCall path]
  | .get path => [.downloadIter path]
  | .put path data lockToken => [adapter.putCall path data lockToken]
  | .move src dst => [.move src dst false]
  | .delete path => [.clean path]
  | .mkcol path => [.check path, .mkdir path]
  | .lock path timeout => [adapter.lockCall path timeout]
  | .unlock _ [] => []
  | .unlock path lockToken => [adapter.unlockCall path lockToken]

def refusals : List Text :=
  [notFoundText, parentMissing, alreadyExists, notEnabled, "listing failed".toList,
    "download failed".toList, "upload failed".toList, "move failed".toList, "mkdir failed".toList,
    "delete failed".toList, "lock failed".toList, "unlock failed".toList,
    "lock response carried no token".toList]

/-- The call returned: a check found nothing, and a lock came with its token. -/
def Exchange.good : Exchange → Bool
  | ⟨.check _, .ok found⟩ => !found
  | ⟨.executeRequest action _ _ _, .ok lockToken⟩ =>
    decide (action = "lock".toList → stripAngles (lockToken.getD []) ≠ [])
  | ⟨_, .ok _⟩ => true
  | ⟨_, .error _⟩ => false

def ClientError.status (e : ClientError) : Int :=
  match e.kind with
  | .notFound => 404
  | .methodNotSupported => 405
  | .responseErrorCode | .other => statusFrom e.code

/-- The status of the refusal that an exchange ends a verb with. -/
def Exchange.status : Exchange → Int
  | ⟨.check _, .ok _⟩ => 405
  | ⟨_, .ok _⟩ => 500
  | ⟨_, .error e⟩ => e.status

/-- What an exchange that is not good ends a verb with. -/
inductive Exchange.Ends (exchange : Exchange) : TransportError → Prop where
  | told {text : Text} : text ∈ refusals → exchange.Ends (webDavError exchange.status text)
  | raised {e : ClientError} : exchange.outcome = .error e → exchange.Ends (.other e.text)

/-- The exchanges are the plan's, as far as all went well; the verb returns when the plan is carried
out and all went well, and else raises what the last exchange ends it with, or for want of a plan. -/
structure Adapter.Keeps (adapter : Adapter) (verb : Verb) (result : Except TransportError VerbReply)
    (block : List Exchange) : Prop where
  asked : block.map Exchange.call <+: adapter.plan verb
  goesOn : ∀ exchange ∈ block.dropLast, exchange.good = true
  returns : (∃ reply, result = .ok reply) ↔
    adapter.plan verb ≠ [] ∧ block.map Exchange.call = adapter.plan verb ∧
      ∀ exchange ∈ block, exchange.good = true
  raises : ∀ e, result = .error e → block = [] ∧ adapter.plan verb = [] ∨
    ∃ exchange ∈ block.getLast?, exchange.Ends e

theorem refusal_ends {call : ClientCall} {notFound failed : Text} {unsupported : Option Text}
    (hNotFound : notFound ∈ refusals) (hUnsupported : ∀ text, unsupported = some text → text ∈ refusals)
    (hFailed : failed ∈ refusals) (e : ClientError) :
    Exchange.Ends ⟨call, .error e⟩ (refusal notFound unsupported failed e) := by
  have hTold (e : ClientError) {message : Text} (hMessage : message ∈ refusals) :
      Exchange.Ends ⟨call, .error e⟩ (webDavError e.status message) := by
    have hStatus : Exchange.status ⟨call, .error e⟩ = e.status := by cases call <;> rfl
    rw [← hStatus]
    exact .told hMessage
  obtain ⟨kind, code, text⟩ := e
  cases kind with
  | notFound => exact hTold _ hNotFound
  | methodNotSupported =>
    cases unsupported with
    | none => exact .raised rfl
    | some message => exact hTold _ (hUnsupported message rfl)
  | responseErrorCode => exact hTold _ hFailed
  | other => exact .raised rfl

theorem mkcolRefusal_ends {call : ClientCall} (e : ClientError) :
    Exchange.Ends ⟨call, .error e⟩ (mkcolRefusal e) := by
  rw [mkcolRefusal]
  split
  · rename_i hExists
    have hStatus : Exchange.status ⟨call, .error e⟩ = 405 := by
      rw [← hExists.2, ← (show e.status = statusFrom e.code by rw [ClientError.status, hExists.1])]
      cases call <;> rfl
    rw [← hStatus]
    exact .told (by simp [refusals])
  · exact refusal_ends (by simp [refusals]) (by simp [refusals]) (by simp [refusals]) e

theorem good_error {call : ClientCall} (e : ClientError) : Exchange.good ⟨call, .error e⟩ = false := by
  cases call <;> rfl

namespace Adapter

variable {adapter : Adapter}

theorem ask_run (call : ClientCall) (log : List Exchange) :
    (Effect.attempt (adapter.ask call) : Talking (Except ClientError call.Returned)).run log =
      (.ok (adapter.client log.length call), log ++ [⟨call, adapter.client log.length call⟩]) := rfl

theorem attempt_run (adapter : Adapter) (call : ClientCall) (refuse : ClientError → TransportError)
    (log : List Exchange) : (adapter.attempt call refuse).run log =
      ((adapter.client log.length call).mapError refuse,
        log ++ [⟨call, adapter.client log.length call⟩]) := by
  rw [Adapter.attempt, Effect.bind_ok (ask_run call log)]
  cases adapter.client log.length call <;> rfl

/-- However the computation is begun, it adds exchanges that the verb keeps to. -/
def KeepsTo (adapter : Adapter) (verb : Verb) (m : Talking VerbReply) : Prop :=
  ∀ log, ∃ block, (m.run log).2 = log ++ block ∧ adapter.Keeps verb (m.run log).1 block

/-- A verb with one call. -/
theorem keeps_single {verb : Verb} {exchange : Exchange} {result : Except TransportError VerbReply}
    (hPlan : adapter.plan verb = [exchange.call])
    (hReturns : (∃ reply, result = .ok reply) ↔ exchange.good = true)
    (hRaises : ∀ e, result = .error e → exchange.Ends e) :
    adapter.Keeps verb result [exchange] where
  asked := by simp [hPlan]
  goesOn := by simp
  returns := by simp [hReturns, hPlan]
  raises e hResult := Or.inr ⟨exchange, by simp, hRaises e hResult⟩

theorem attempt_keeps {verb : Verb} {call : ClientCall} {refuse : ClientError → TransportError}
    {f : call.Returned → VerbReply} (hPlan : adapter.plan verb = [call])
    (hGood : ∀ value, Exchange.good ⟨call, .ok value⟩ = true)
    (hRefuse : ∀ e, Exchange.Ends ⟨call, .error e⟩ (refuse e)) :
    adapter.KeepsTo verb (do return f (← adapter.attempt call refuse)) := by
  intro log
  have hRun := attempt_run adapter call refuse log
  cases hOutcome : adapter.client log.length call with
  | ok value =>
    rw [hOutcome] at hRun
    rw [Effect.bind_ok hRun]
    refine ⟨_, rfl, keeps_single hPlan ?_ ?_⟩
    · simp [hGood, pure]
    · intro e hResult
      cases hResult
  | error e =>
    rw [hOutcome] at hRun
    rw [Effect.bind_error hRun]
    refine ⟨_, rfl, keeps_single hPlan ?_ ?_⟩
    · simp [good_error]
    · rintro _ ⟨⟩
      exact hRefuse e

theorem propfind_error (username path : Text) (e : ClientError) :
    WebdavAdapter.propfind username path (listResponse (.error e)) =
      .error (refusal notFoundText none "listing failed".toList e) := by
  obtain ⟨kind, code, text⟩ := e
  cases kind <;> rfl

theorem lock_error (e : ClientError) : WebdavAdapter.lock (lockResponse (.error e)) =
    .error (refusal notFoundText (some notEnabled) "lock failed".toList e) := by
  obtain ⟨kind, code, text⟩ := e
  cases kind <;> rfl

theorem propfind_keeps (path : Text) : adapter.KeepsTo (.propfind path) (adapter.propfind path) := by
  intro log
  rw [Adapter.propfind, Effect.bind_ok (ask_run _ log)]
  cases adapter.client log.length (listCall path) with
  | ok infos =>
    refine ⟨_, rfl, keeps_single rfl (iff_of_true ⟨_, rfl⟩ rfl) ?_⟩
    intro e hResult
    cases hResult
  | error e =>
    rw [propfind_error]
    refine ⟨_, rfl, keeps_single rfl (iff_of_false ?_ (ne_true_of_eq_false (good_error e))) ?_⟩
    · rintro ⟨reply, ⟨⟩⟩
    · rintro _ ⟨⟩
      exact refusal_ends (by simp [refusals]) (by simp) (by simp [refusals]) e

theorem lock_keeps (path : Text) (timeout : Int) :
    adapter.KeepsTo (.lock path timeout) (adapter.lock path timeout) := by
  intro log
  rw [Adapter.lock, Effect.bind_ok (ask_run _ log)]
  cases adapter.client log.length (adapter.lockCall path timeout) with
  | ok lockToken =>
    have hGood : Exchange.good ⟨adapter.lockCall path timeout, .ok lockToken⟩ =
        decide (stripAngles (lockToken.getD []) ≠ []) := by
      simp [Exchange.good]
    by_cases hToken : stripAngles (lockToken.getD []) = []
    · have hLock : WebdavAdapter.lock (lockResponse (.ok lockToken)) =
          .error (webDavError 500 "lock response carried no token".toList) := if_pos hToken
      rw [hLock]
      refine ⟨_, rfl, keeps_single rfl (iff_of_false ?_ (by simp [hGood, hToken])) ?_⟩
      · rintro ⟨reply, ⟨⟩⟩
      · rintro _ ⟨⟩
        exact .told (by simp [refusals])
    · have hLock : WebdavAdapter.lock (lockResponse (.ok lockToken)) =
          .ok ⟨true, none, some (stripAngles (lockToken.getD [])), true⟩ := if_neg hToken
      rw [hLock]
      refine ⟨_, rfl, keeps_single rfl (iff_of_true ⟨_, rfl⟩ (by simp [hGood, hToken])) ?_⟩
      intro e hResult
      cases hResult
  | error e =>
    rw [lock_error]
    refine ⟨_, rfl, keeps_single rfl (iff_of_false ?_ (ne_true_of_eq_false (good_error e))) ?_⟩
    · rintro ⟨reply, ⟨⟩⟩
    · rintro _ ⟨⟩
      exact refusal_ends (by simp [refusals]) (by simp [refusals]) (by simp [refusals]) e

theorem putCall_good (path : Text) (data : Bytes) (lockToken : Option Text)
    (value : (adapter.putCall path data lockToken).Returned) :
    Exchange.good ⟨adapter.putCall path data lockToken, .ok value⟩ = true := by
  rcases lockToken with - | - | ⟨c, token⟩
  · rfl
  · rfl
  · have hUpload : "upload".toList ≠ "lock".toList := by decide
    simp only [putCall, Exchange.good]
    exact decide_eq_true fun hLock => absurd hLock hUpload

theorem unlock_keeps (path lockToken : Text) :
    adapter.KeepsTo (.unlock path lockToken) (adapter.unlock path lockToken) := by
  cases lockToken with
  | nil =>
    refine fun log => ⟨[], (List.append_nil log).symm, ⟨List.nil_prefix, by simp, ?_, ?_⟩⟩
    · exact iff_of_false (by rintro ⟨reply, ⟨⟩⟩) fun h => h.1 rfl
    · exact fun _ _ => Or.inl ⟨rfl, rfl⟩
  | cons c token =>
    have hRun : adapter.unlock path (c :: token) = (do
        let _ ← adapter.attempt (adapter.unlockCall path (c :: token))
          (refusal notFoundText (some notEnabled) "unlock failed".toList)
        return done) := if_neg (List.cons_ne_nil c token)
    rw [hRun]
    exact attempt_keeps rfl (fun _ => rfl)
      (refusal_ends (by simp [refusals]) (by simp [refusals]) (by simp [refusals]))

theorem mkcol_keeps (path : Text) : adapter.KeepsTo (.mkcol path) (adapter.mkcol path) := by
  intro log
  have hCheck := attempt_run adapter (.check path) uncaught log
  rw [Adapter.mkcol]
  cases hFound : adapter.client log.length (.check path) with
  | error e =>
    rw [hFound] at hCheck
    rw [Effect.bind_error hCheck]
    refine ⟨_, rfl, ⟨?_, by simp, iff_of_false ?_ ?_, ?_⟩⟩
    · exact ⟨[.mkdir path], rfl⟩
    · rintro ⟨reply, ⟨⟩⟩
    · exact fun h => absurd h.2.1 (by simp [plan])
    · rintro _ ⟨⟩
      exact Or.inr ⟨_, rfl, .raised rfl⟩
  | ok found =>
    rw [hFound] at hCheck
    rw [Effect.bind_ok hCheck]
    cases found with
    | true =>
      refine ⟨_, rfl, ⟨⟨[.mkdir path], rfl⟩, by simp, iff_of_false ?_ ?_, ?_⟩⟩
      · rintro ⟨reply, ⟨⟩⟩
      · exact fun h => absurd h.2.1 (by simp [plan])
      · rintro _ ⟨⟩
        exact Or.inr ⟨_, rfl, .told (by simp [refusals])⟩
    | false =>
      -- the check is the first of the plan's two calls, and went well
      have hMkdir := attempt_run adapter (.mkdir path) mkcolRefusal
        (log ++ [⟨.check path, .ok false⟩])
      rw [if_neg Bool.false_ne_true]
      cases hMade : adapter.client (log ++ [(⟨.check path, .ok false⟩ : Exchange)]).length (.mkdir path) with
      | error e =>
        rw [hMade] at hMkdir
        rw [Effect.bind_error hMkdir]
        refine ⟨[⟨.check path, .ok false⟩, ⟨.mkdir path, .error e⟩], by simp,
          ⟨List.prefix_refl _, ?_, iff_of_false ?_ ?_, ?_⟩⟩
        · rintro exchange hExchange
          rw [List.mem_singleton.mp hExchange]
          rfl
        · rintro ⟨reply, ⟨⟩⟩
        · rintro ⟨-, -, hGood⟩
          have hLast : Exchange.good ⟨.mkdir path, .error e⟩ = true := hGood _ (by simp)
          exact absurd hLast Bool.false_ne_true
        · rintro _ ⟨⟩
          exact Or.inr ⟨_, rfl, mkcolRefusal_ends e⟩
      | ok value =>
        rw [hMade] at hMkdir
        rw [Effect.bind_ok hMkdir]
        refine ⟨[⟨.check path, .ok false⟩, ⟨.mkdir path, .ok value⟩], by simp [pure],
          ⟨List.prefix_refl _, ?_, iff_of_true ⟨_, rfl⟩ ⟨by simp [plan], rfl, ?_⟩, ?_⟩⟩
        · rintro exchange hExchange
          rw [List.mem_singleton.mp hExchange]
          rfl
        · rintro exchange hExchange
          rcases List.mem_pair.mp hExchange with rfl | rfl <;> rfl
        · intro e hResult
          cases hResult

/-- Every verb. -/
theorem serve_keeps (verb : Verb) : adapter.KeepsTo verb (adapter.serve verb) := by
  cases verb with
  | propfind path => exact propfind_keeps path
  | get path =>
    exact attempt_keeps rfl (fun _ => rfl)
      (refusal_ends (by simp [refusals]) (by simp) (by simp [refusals]))
  | put path data lockToken =>
    exact attempt_keeps rfl (putCall_good path data lockToken)
      (refusal_ends (by simp [refusals]) (by simp) (by simp [refusals]))
  | move src dst =>
    exact attempt_keeps rfl (fun _ => rfl)
      (refusal_ends (by simp [refusals]) (by simp) (by simp [refusals]))
  | delete path =>
    exact attempt_keeps rfl (fun _ => rfl)
      (refusal_ends (by simp [refusals]) (by simp) (by simp [refusals]))
  | mkcol path => exact mkcol_keeps path
  | lock path timeout => exact lock_keeps path timeout
  | unlock path lockToken => exact unlock_keeps path lockToken

end Adapter

/-! ## What a run keeps to -/

def Exchange.made? : Exchange → Option Text
  | ⟨.mkdir path, _⟩ => some path
  | _ => none

def Exchange.missing? : Exchange → Option Text
  | ⟨.check path, .ok false⟩ => some path
  | _ => none

theorem made?_eq_some {exchange : Exchange} {path : Text} (h : exchange.made? = some path) :
    exchange.call = .mkdir path := by
  obtain ⟨call, outcome⟩ := exchange
  cases call <;> cases h
  rfl

theorem missing?_of_good {exchange : Exchange} {path : Text} (hCall : exchange.call = .check path)
    (hGood : exchange.good = true) : exchange.missing? = some path := by
  obtain ⟨call, outcome⟩ := exchange
  subst hCall
  cases outcome with
  | error e => cases hGood
  | ok found =>
    cases found with
    | true => cases hGood
    | false => rfl

theorem mkdir_mem_plan {adapter : Adapter} {verb : Verb} {path : Text}
    (h : .mkdir path ∈ adapter.plan verb) : verb = .mkcol path := by
  cases verb with
  | mkcol other => simpa [Adapter.plan, eq_comm] using h
  | put other data lockToken =>
    rcases lockToken with - | - | ⟨c, token⟩ <;> simp [Adapter.plan, Adapter.putCall] at h
  | unlock other lockToken =>
    cases lockToken <;> simp [Adapter.plan] at h
  | propfind | get | move | delete | lock => simp [Adapter.plan] at h

/-- A folder is made right after its path was checked. -/
theorem Adapter.Keeps.preceded {adapter : Adapter} {verb : Verb}
    {result : Except TransportError VerbReply} {block : List Exchange}
    (h : adapter.Keeps verb result block) :
    Embedding.Preceded Exchange.made? Exchange.missing? Eq block := by
  rintro before exchange after path rfl hMade
  have hCall := made?_eq_some hMade
  have hMem : exchange.call ∈ adapter.plan verb := h.asked.subset (by simp)
  rw [hCall] at hMem
  cases mkdir_mem_plan hMem
  obtain ⟨rest, hPlan⟩ := h.asked
  rw [List.map_append, List.map_cons, hCall, Adapter.plan] at hPlan
  match before, hPlan with
  | [], hPlan => cases hPlan
  | [checked], hPlan =>
    have hCheck : checked.call = .check path := (List.cons.inj hPlan).1
    refine ⟨[], checked, path, rfl, missing?_of_good hCheck (h.goesOn checked ?_), rfl⟩
    simp
  | _ :: _ :: _, hPlan => simp at hPlan

/-- In every run, whatever the client answers, the requests come in one block for each verb, in
order, and each verb keeps to its plan: it goes on only after what went well, returns when all did,
and otherwise raises one of the adapter's own texts or what the client raised uncaught. A folder is
made only right after a check that found nothing at its path. -/
theorem adapter_keeps (adapter : Adapter) (verbs : List Verb) :
    let s := Machine.run adapter.step ⟨[], []⟩ verbs
    s.served.map Served.verb = verbs ∧
      (∃ blocks, s.log = blocks.flatten ∧
        List.Forall₂ (fun served => adapter.Keeps served.verb served.result) s.served blocks) ∧
      Embedding.Preceded Exchange.made? Exchange.missing? Eq s.log := by
  intro s
  induction verbs using List.reverseRecOn with
  | nil => exact ⟨rfl, ⟨[], rfl, .nil⟩, Embedding.preceded_nil⟩
  | append_singleton verbs verb ih =>
    obtain ⟨hVerbs, ⟨blocks, hLog, hBlocks⟩, hPreceded⟩ := ih
    have hStep : s = adapter.step (Machine.run adapter.step ⟨[], []⟩ verbs) verb :=
      Machine.run_append _ _ _ _
    generalize Machine.run adapter.step ⟨[], []⟩ verbs = before at *
    obtain ⟨block, hBlock, hKeeps⟩ := Adapter.serve_keeps verb before.log
    rw [hStep, Adapter.step]
    refine ⟨by simp [hVerbs], ⟨blocks ++ [block], ?_, ?_⟩, ?_⟩
    · rw [List.flatten_concat, ← hLog]
      exact hBlock
    · exact List.rel_append hBlocks (.cons hKeeps .nil)
    · dsimp only
      rw [hBlock]
      exact hPreceded.append hKeeps.preceded

end AccessBroker.WebdavAdapter
