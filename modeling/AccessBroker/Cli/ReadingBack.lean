import AccessBroker.Cli.Endings
import AccessBroker.Cli.LockTokens
import AccessBroker.Nextcloud.Dialogue
import AccessBroker.Server.Serving

/-! # Writes that are read back

A push and a checkin against the broker that serves their tool calls. A push reads the file
back before it reports success; a checkin leaves that to the file layer, which unlocks the
file without having read it.
-/

namespace AccessBroker.Cli
open Py
set_option autoImplicit false

def b64decode (content : Json.Str) : Option Bytes := (Server.text? content).bind Base64.decode

def Platform.Decodes (platform : Platform) : Prop :=
  ∀ data, platform.decode (Json.codes (Base64.encode data)) = some data

def Transfer.sends : Transfer → Option (Text × Bytes)
  | .push path fromFile _ _ _ | .checkin path _ fromFile => fromFile.map fun data => (path, data)
  | .fetch _ | .checkout _ _ => none

/-- The bytes were put at the path, and then read back there with the same digest. Nothing was
unlocked before that. -/
def ReadsBack (sha256 : Bytes → Text) (env : Nextcloud.Environment) (instanceName norm : Text)
    (data : Bytes) (w w' : Nextcloud.World) : Prop :=
  ∃ before between after lockToken written reply back, Nextcloud.Says env w w'
      (before ++ ⟨instanceName, .put norm data lockToken, written⟩ ::
        (between ++ ⟨instanceName, .get norm, .ok reply⟩ :: after)) ∧
    reply.content = some back ∧ sha256 back = sha256 data ∧
    ∀ exchange ∈ before ++ between, ∀ path token, exchange.call ≠ .unlock path token

/-- If the command succeeds, the remote file holds the local bytes, as far as reading it tells. -/
def Verified (platform : Platform) (broker : Server.Broker) (instanceName : Text) (t : Transfer)
    (result : Except Failure Outcome) (w w' : Nextcloud.World) : Prop :=
  (exitOf result).code = EXIT_OK → ∀ path data, t.sends = some (path, data) →
    ∃ norm, Nextcloud.namespaceGuard broker.platform path = some norm ∧
      ReadsBack platform.sha256 broker.env instanceName norm data w w'

/-- A checkin that gets to the broker, is carried through there and hears of it. -/
def Transfer.ChecksIn (broker : Server.Broker) (instanceName : Text) (inv : Invocation)
    (staging : Staging) (deliveries : Nat → Server.Delivery) (w : Nextcloud.World) :
    Transfer → Prop
  | .checkin path manifestSha fromFile => deliveries 0 = .delivered ∧ ∃ data found,
      Attempts inv staging.manifests manifestSha fromFile data found ∧
      ∃ s token norm, found.value.lockToken = some (.str s) ∧ Server.text? s = some token ∧
        Nextcloud.CarriesThrough broker.env broker.platform broker.layer (broker.db 0)
          instanceName path (some Server.Surface.transfer.principal) w norm
  | _ => False

section ReadingBack

variable {platform : Platform} {instanceName : Text} {inv : Invocation} {staging : Staging}
  {clock : Int} {broker : Server.Broker} {deliveries : Nat → Server.Delivery}
  {w w' : Nextcloud.World}

theorem not_readsBack {sha256 : Bytes → Text} {env : Nextcloud.Environment} {norm : Text}
    {data : Bytes} {said : List Nextcloud.Exchange} (hSays : Nextcloud.Says env w w' said)
    (hNoGet : ∀ exchange ∈ said, ∀ path, exchange.call ≠ .get path) :
    ¬ ReadsBack sha256 env instanceName norm data w w' := by
  rintro ⟨before, between, after, lockToken, written, reply, back, hReads, _⟩
  have hMem : (⟨instanceName, .get norm, .ok reply⟩ : Nextcloud.Exchange) ∈ said := by
    rw [hSays.unique hReads]
    simp
  exact hNoGet _ hMem norm rfl

/-! ## Answers -/

theorem said_ok_iff (dict : Json.Dict) :
    said dict = .ok ↔ isText "ok".toList (field dict "status".toList .null) = true := by
  rw [said]
  cases hRefused : isText "refused".toList (field dict "status".toList .null) with
  | true =>
    rw [isText_eq hRefused]
    decide
  | false => cases isText "ok".toList (field dict "status".toList .null) <;> simp

theorem checkinStatus_ok_iff (answer : Except Failure Json.Value) :
    answer >>= checkinStatus = .ok none ↔ ∃ out, answer = .ok out ∧ Server.Succeeds out := by
  constructor
  · intro h
    cases answer with
    | error failure => cases h
    | ok out =>
      change checkinStatus out = .ok none at h
      cases out with
      | obj dict =>
        rw [checkinStatus_said] at h
        refine ⟨_, rfl, dict, rfl, (said_ok_iff dict).mp ?_⟩
        cases hSaid : said dict with
        | ok => rfl
        | refused | failed =>
          rw [hSaid] at h
          cases h
      | null | bool | int | float | str | arr => cases h
  · rintro ⟨_, rfl, dict, rfl, hOk⟩
    change checkinStatus (.obj dict) = .ok none
    rw [checkinStatus_said, (said_ok_iff dict).mpr hOk]

/-- Only a good envelope comes to a content. -/
theorem okResult_succeeds {α : Type} {infra : Text}
    (hInfra : ∀ message, cliErrorExit (infra ++ message) = EXIT_INFRA)
    {content : Json.Dict → Except Failure α} {out : Json.Value} {a : α}
    (h : okResult platform infra out >>= content = .ok a) : Server.Succeeds out := by
  cases out with
  | obj dict =>
    rcases envelope_cases platform infra hInfra dict content with
      ⟨_, failure, hFailure, _⟩ | ⟨_, failure, hFailure, _⟩ | ⟨hSaid, _⟩
    · rw [hFailure] at h
      cases h
    · rw [hFailure] at h
      cases h
    · exact ⟨dict, rfl, (said_ok_iff dict).mp hSaid⟩
  | null | bool | int | float | str | arr => cases h

/-- What the read of a file comes to is the content that the layer was given. -/
theorem readReply_content (hDecode : platform.Decodes) {reply : Nextcloud.Reply}
    {back : Bytes}
    (h : readReply platform (.obj (Server.Envelope.ok (.reply reply)).json) = .ok back) :
    reply.content = some back := by
  obtain ⟨isDict, content, lockToken, truth⟩ := reply
  have hNone (result : Json.Value)
      (hResult : result = .obj [(Json.codes "ok".toList, .bool true)]) :
      readReply platform (.obj [(Json.codes "result".toList, result),
        (Json.codes "status".toList, .ofText "ok".toList)]) ≠ .ok back := by
    rw [hResult]
    exact nofun
  cases isDict with
  | false => exact absurd h (hNone _ rfl)
  | true =>
    cases content with
    | none => exact absurd h (hNone _ rfl)
    | some content =>
      change decodeContent platform _ (Json.codes (Base64.encode content)) = .ok back at h
      rw [decodeContent, hDecode] at h
      cases h
      rfl

/-! ## Calls -/

theorem read_served (hDecode : platform.Decodes) {k : Nat} {path : Text} {back : Bytes}
    {out : Json.Value} (hOut : (broker.serve instanceName k (.read path) w).1 = .ok out)
    (hBack : readReply platform out = .ok back) :
    ∃ norm reply, Nextcloud.namespaceGuard broker.platform path = some norm ∧
      reply.content = some back ∧
      Nextcloud.Says broker.env w (broker.serve instanceName k (.read path) w).2
        [⟨instanceName, .get norm, .ok reply⟩] := by
  obtain ⟨operation, result, hAsked, hRun, rfl⟩ :=
    Server.Broker.serve_succeeds hOut
      (okResult_succeeds (fun _ => rfl) ((readReply_eq platform out).symm.trans hBack))
  rw [Server.asked_read] at hAsked
  cases hAsked
  obtain ⟨reply, hRead, rfl⟩ := Effect.of_bind_pure hRun
  obtain ⟨norm, hGuard, hSays⟩ := Nextcloud.guarded_speaks hRead
  exact ⟨norm, reply, hGuard, readReply_content hDecode hBack, hSays⟩

theorem write_served {k : Nat} {path : Text} {data : Bytes} {out : Json.Value}
    (hOut : (broker.serve instanceName k (.write path data) w).1 = .ok out)
    (hOk : Server.Succeeds out) :
    ∃ norm reply, Nextcloud.namespaceGuard broker.platform path = some norm ∧
      Nextcloud.Says broker.env w (broker.serve instanceName k (.write path data) w).2
        [⟨instanceName, .put norm data none, .ok reply⟩] := by
  obtain ⟨operation, result, hAsked, hRun, rfl⟩ := Server.Broker.serve_succeeds hOut hOk
  rw [Server.asked_write] at hAsked
  cases hAsked
  obtain ⟨reply, hWrite, rfl⟩ := Effect.of_bind_pure hRun
  obtain ⟨norm, hGuard, hSays⟩ := Nextcloud.guarded_speaks hWrite
  exact ⟨norm, reply, hGuard, hSays⟩

/-- A checkin succeeds exactly if it is carried through, and nothing is read then. -/
theorem checkin_served (k : Nat) (path : Text) (data : Bytes) {lockToken : Json.Value}
    (hToken : truth lockToken = true) :
    ((∃ out, (broker.serve instanceName k (.checkin path data lockToken) w).1 = .ok out ∧
        Server.Succeeds out) ↔
      ∃ s token norm, lockToken = .str s ∧ Server.text? s = some token ∧
        Nextcloud.CarriesThrough broker.env broker.platform broker.layer (broker.db k)
          instanceName path (some Server.Surface.transfer.principal) w norm) ∧
    ((∃ out, (broker.serve instanceName k (.checkin path data lockToken) w).1 = .ok out ∧
        Server.Succeeds out) →
      ∃ said, Nextcloud.Says broker.env w
          (broker.serve instanceName k (.checkin path data lockToken) w).2 said ∧
        ∀ exchange ∈ said, ∀ path, exchange.call ≠ .get path) := by
  have hAsked {s : Json.Str} {token : Text} (hStr : lockToken = .str s)
      (hText : Server.text? s = some token) :
      Server.asked instanceName (.checkin path data lockToken) = some (instanceName,
        .checkin path data token (some Server.Surface.transfer.principal)) := by
    refine (Server.asked_checkin instanceName path data).mpr ⟨s, token, hStr, hText, ?_, rfl⟩
    refine Server.text?_ne_nil hText fun hNil => ?_
    rw [hStr, hNil] at hToken
    cases hToken
  have hCases (token : Text) := Nextcloud.operation_checkin_cases broker.env broker.platform
    broker.layer (broker.db k) instanceName path data token (some Server.Surface.transfer.principal) w
  have hServed (h : ∃ out, (broker.serve instanceName k (.checkin path data lockToken) w).1 = .ok out ∧
      Server.Succeeds out) :
      ∃ s token, lockToken = .str s ∧ Server.text? s = some token ∧ ∃ answer,
        ((Nextcloud.Operation.checkin path data token (some Server.Surface.transfer.principal)).run
          broker.platform broker.layer (broker.db k) broker.env instanceName).run w =
            (.ok answer, (broker.serve instanceName k (.checkin path data lockToken) w).2) := by
    obtain ⟨out, hOut, hOk⟩ := h
    obtain ⟨operation, answer, hOperation, hRun, _⟩ := Server.Broker.serve_succeeds hOut hOk
    obtain ⟨s, token, hStr, hText, _, rfl⟩ :=
      (Server.asked_checkin instanceName path data).mp hOperation
    exact ⟨s, token, hStr, hText, answer, hRun⟩
  refine ⟨⟨fun h => ?_, ?_⟩, fun h => ?_⟩
  · obtain ⟨s, token, hStr, hText, answer, hRun⟩ := hServed h
    obtain ⟨result, w', hRun', hIff, _⟩ := hCases token
    rw [hRun] at hRun'
    cases hRun'
    obtain ⟨norm, hCarries⟩ := hIff.mp ⟨answer, rfl⟩
    exact ⟨s, token, norm, hStr, hText, hCarries⟩
  · rintro ⟨s, token, norm, hStr, hText, hCarries⟩
    obtain ⟨result, w', hRun, hIff, _⟩ := hCases token
    obtain ⟨answer, rfl⟩ := hIff.mpr ⟨norm, hCarries⟩
    rw [Server.Broker.serve_returns (hAsked hStr hText) hRun]
    exact ⟨_, rfl, Server.succeeds_ok answer⟩
  · obtain ⟨s, token, hStr, hText, answer, hRun⟩ := hServed h
    obtain ⟨result, w', hRun', _, hSays⟩ := hCases token
    rw [hRun] at hRun'
    cases hRun'
    obtain ⟨norm, written, unlocked, hSaid⟩ := hSays ⟨answer, rfl⟩
    refine ⟨_, hSaid, fun exchange hMem path => ?_⟩
    simp only [List.mem_cons, List.not_mem_nil, or_false] at hMem
    rcases hMem with rfl | rfl <;> exact nofun

/-! ## Commands -/

/-- A push that succeeds was answered that its bytes are written, and read the same bytes. -/
theorem push_succeeds {path : Text} {fromFile : Option Bytes} {force : Bool}
    {expectSize : Option Int} {expectSha : Option Text}
    (h : (exitOf ((runTransfer platform instanceName inv
      (.push path fromFile force expectSize expectSha)).run ⟨staging, clock, []⟩).1).code = EXIT_OK) :
    ∃ data back, fromFile = some data ∧ ((runTransfer platform instanceName inv
        (.push path fromFile force expectSize expectSha)).run ⟨staging, clock, []⟩).2.calls =
          [.write path data, .read path] ∧
      inv.answer 0 >>= checkinStatus = .ok none ∧
      inv.answer 1 >>= readReply platform = .ok back ∧
      platform.sha256 back = platform.sha256 data := by
  have hEnds := transfer_ends platform instanceName inv staging clock
    (.push path fromFile force expectSize expectSha)
  rw [runTransfer_run] at h ⊢
  generalize (transfer platform instanceName inv (.push path fromFile force expectSize expectSha)).run
    ⟨staging, clock, []⟩ = run at hEnds h ⊢
  cases hEnds with
  | stops _ hResult _ _ =>
    rw [hResult] at h
    cases h
  | @written _ data _ _ _ w result _ _ _ hResult =>
    exfalso
    rcases hResult with ⟨code, hStatus, rfl⟩ | ⟨failure, _, rfl⟩
    · rcases checkinStatus_code hStatus with rfl | rfl <;> cases h
    · exact handled_ne_ok failure (by cases failure <;> exact h)
  | @readBack _ data _ _ _ w _ _ hCalls hAccepted =>
    dsimp only at h ⊢
    match hBack : inv.answer 1 >>= readReply platform with
    | .error (.cli message) =>
      rw [hBack] at h
      cases h
    | .error (.escaped exc) =>
      rw [hBack] at h
      cases h
    | .ok back =>
      rw [hBack, readBackEnd] at h
      split at h
      · cases h
      · rename_i hSame
        exact ⟨data, back, rfl, hCalls, hAccepted, rfl, not_not.mp hSame⟩

/-- A checkin succeeds exactly if it gets to the broker and is accepted there. -/
theorem checkin_succeeds_iff {path : Text} {manifestSha : Option Text} {fromFile : Option Bytes} :
    (exitOf ((runTransfer platform instanceName inv (.checkin path manifestSha fromFile)).run
        ⟨staging, clock, []⟩).1).code = EXIT_OK ↔
      inv.answer 0 >>= checkinStatus = .ok none ∧
        ∃ data found, Attempts inv staging.manifests manifestSha fromFile data found := by
  have hEnds := transfer_ends platform instanceName inv staging clock
    (.checkin path manifestSha fromFile)
  rw [runTransfer_run]
  generalize (transfer platform instanceName inv (.checkin path manifestSha fromFile)).run
    ⟨staging, clock, []⟩ = run at hEnds ⊢
  cases hEnds with
  | stops hReaches hResult _ _ =>
    rw [hResult]
    exact iff_of_false nofun fun h => hReaches h.2
  | checkin hAttempts _ _ =>
    match hStatus : inv.answer 0 >>= checkinStatus with
    | .ok none => exact iff_of_true rfl ⟨rfl, _, _, hAttempts⟩
    | .ok (some code) =>
      refine iff_of_false (fun h => ?_) fun h => nomatch h.1
      rcases checkinStatus_code hStatus with rfl | rfl <;> cases h
    | .error failure =>
      refine iff_of_false (fun h => ?_) fun h => nomatch h.1
      exact handled_ne_ok failure (by cases failure <;> exact h)

theorem checkin_calls {path : Text} {manifestSha : Option Text} {data : Bytes}
    {fromFile : Option Bytes} {found : Staged Manifest}
    (hAttempts : Attempts inv staging.manifests manifestSha fromFile data found) :
    ((runTransfer platform instanceName inv (.checkin path manifestSha fromFile)).run
      ⟨staging, clock, []⟩).2.calls = [.checkin path data (found.value.lockToken.getD .null)] := by
  have hEnds := transfer_ends platform instanceName inv staging clock
    (.checkin path manifestSha fromFile)
  rw [runTransfer_run]
  generalize (transfer platform instanceName inv (.checkin path manifestSha fromFile)).run
    ⟨staging, clock, []⟩ = run at hEnds ⊢
  cases hEnds with
  | stops hReaches _ _ _ => exact absurd ⟨data, found, hAttempts⟩ hReaches
  | checkin hOther _ hCalls =>
    cases hOther.fromFile.symm.trans hAttempts.fromFile
    cases hOther.picked.symm.trans hAttempts.picked
    generalize inv.answer 0 >>= checkinStatus = status
    match status with
    | .ok none => exact hCalls
    | .ok (some code) => exact hCalls
    | .error failure => exact hCalls

theorem push_verified {path : Text} {fromFile : Option Bytes} {force : Bool}
    {expectSize : Option Int} {expectSha : Option Text} (hDecode : platform.Decodes)
    (hServes : broker.Serves instanceName deliveries inv.answer 0 ((runTransfer platform instanceName
      inv (.push path fromFile force expectSize expectSha)).run ⟨staging, clock, []⟩).2.calls w w') :
    Verified platform broker instanceName (.push path fromFile force expectSize expectSha)
      ((runTransfer platform instanceName inv (.push path fromFile force expectSize expectSha)).run
        ⟨staging, clock, []⟩).1 w w' := by
  intro hCode path' data' hSends
  obtain ⟨data, back, rfl, hCalls, hStatus, hBack, hSame⟩ := push_succeeds hCode
  cases hSends
  rw [hCalls] at hServes
  obtain ⟨hFirst, hSecond, rfl⟩ := hServes
  obtain ⟨out, hOut, hOk⟩ := (checkinStatus_ok_iff _).mp hStatus
  rw [hFirst] at hOut
  have hDelivered := Server.Broker.deliver_ok hOut
  rw [hDelivered] at hOut hSecond ⊢
  obtain ⟨norm, written, hGuard, hWritten⟩ := write_served hOut hOk
  cases hAnswer : inv.answer 1 with
  | error failure =>
    rw [hAnswer] at hBack
    cases hBack
  | ok read =>
    rw [hAnswer] at hBack
    have hRead : _ = Except.ok read := hSecond.symm.trans hAnswer
    have hDelivered' := Server.Broker.deliver_ok hRead
    rw [hDelivered'] at hRead ⊢
    obtain ⟨norm', reply, hGuard', hContent, hSaid⟩ := read_served hDecode hRead hBack
    cases hGuard.symm.trans hGuard'
    exact ⟨norm, hGuard, [], [], [], none, _, reply, back, hWritten.trans hSaid, hContent, hSame, by simp⟩

end ReadingBack

/-- A transfer that succeeds has read back what it wrote, exactly if it is no checkin: in none that
the broker carries through is the file read at all. -/
theorem verified_iff (platform : Platform) (hDecode : platform.Decodes)
    (instanceName : Text) (inv : Invocation) (staging : Staging) (clock : Int) (t : Transfer)
    (broker : Server.Broker) (deliveries : Nat → Server.Delivery) (w w' : Nextcloud.World)
    (hServes : broker.Serves instanceName deliveries inv.answer 0
      ((runTransfer platform instanceName inv t).run ⟨staging, clock, []⟩).2.calls w w') :
    Verified platform broker instanceName t
        ((runTransfer platform instanceName inv t).run ⟨staging, clock, []⟩).1 w w' ↔
      ¬ t.ChecksIn broker instanceName inv staging deliveries w := by
  cases t with
  | fetch path => exact iff_of_true (fun _ _ _ h => nomatch h) id
  | checkout path timeout => exact iff_of_true (fun _ _ _ h => nomatch h) id
  | push path fromFile force expectSize expectSha =>
    exact iff_of_true (push_verified hDecode hServes) id
  | checkin path manifestSha fromFile =>
    constructor
    · rintro hVerified ⟨hDelivered, data, found, hAttempts, s, token, norm, hToken, hText, hCarries⟩
      have hTruth : truth (found.value.lockToken.getD .null) = true := hAttempts.token
      rw [checkin_calls hAttempts] at hServes
      obtain ⟨hFirst, rfl⟩ := hServes
      rw [hDelivered] at hFirst hVerified
      obtain ⟨hServed, hSaid⟩ := @checkin_served instanceName broker w 0 path data _ hTruth
      have hOk := hServed.mpr ⟨s, token, norm, by rw [hToken]; rfl, hText, hCarries⟩
      obtain ⟨said, hSays, hNoGet⟩ := hSaid hOk
      have hStatus : inv.answer 0 >>= checkinStatus = .ok none := by
        rw [checkinStatus_ok_iff, hFirst]
        exact hOk
      obtain ⟨norm', _, hReads⟩ :=
        hVerified (checkin_succeeds_iff.mpr ⟨hStatus, data, found, hAttempts⟩) path data
          (by rw [Transfer.sends, hAttempts.fromFile]; rfl)
      exact not_readsBack hSays hNoGet hReads
    · intro hNot hCode
      exfalso
      obtain ⟨hStatus, data, found, hAttempts⟩ := checkin_succeeds_iff.mp hCode
      rw [checkin_calls hAttempts] at hServes
      obtain ⟨hFirst, rfl⟩ := hServes
      obtain ⟨out, hOut, hOk⟩ := (checkinStatus_ok_iff _).mp hStatus
      rw [hFirst] at hOut
      have hDelivered := Server.Broker.deliver_ok hOut
      rw [hDelivered] at hOut
      obtain ⟨s, token, norm, hToken, hText, hCarries⟩ :=
        (checkin_served 0 path data hAttempts.token).1.mp ⟨out, hOut, hOk⟩
      refine hNot ⟨hDelivered, data, found, hAttempts, s, token, norm, ?_, hText, hCarries⟩
      cases hLock : found.value.lockToken with
      | none =>
        rw [hLock] at hToken
        cases hToken
      | some lockToken =>
        rw [hLock] at hToken
        exact congrArg some hToken

/-! ## A small broker -/

def strictPlatform : Platform := { plainPlatform with decode := b64decode }

theorem strictPlatform_decodes : strictPlatform.Decodes := fun data => by
  change (Server.text? _).bind Base64.decode = some data
  rw [Server.text?_codes, Option.bind_some, Base64.decode_encode]

/-- A broker with a write grant, over a server that takes everything and returns empty files. -/
def plainBroker : Server.Broker where
  platform := Nextcloud.plainPlatform
  layer := Nextcloud.oneClient
  env := Nextcloud.calm
  db := fun _ => Nextcloud.oneGrant ⟨['a'], Paths.WRITE⟩
  exceptions := Server.quoting
  logPath := []
  rejects := fun _ => .error (.cli [])
  rejects_not := fun _ _ h => nomatch h

def brokered (first second : ToolCall) : Invocation :=
  { plainInvocation with
    answer := fun
      | 0 => (plainBroker.serve ['p'] 0 first Nextcloud.opened).1
      | _ => (plainBroker.serve ['p'] 1 second
          (plainBroker.serve ['p'] 0 first Nextcloud.opened).2).1 }

theorem verified_iff_push :
    let inv := brokered (.write ['a', '/', 'b'] []) (.read ['a', '/', 'b'])
    let t := Transfer.push ['a', '/', 'b'] (some []) false none none
    let run := (runTransfer strictPlatform ['p'] inv t).run ⟨⟨[], []⟩, 0, []⟩
    let w' := (plainBroker.serve ['p'] 1 (.read ['a', '/', 'b'])
      (plainBroker.serve ['p'] 0 (.write ['a', '/', 'b'] []) Nextcloud.opened).2).2
    (exitOf run.1).code = EXIT_OK ∧
      Verified strictPlatform plainBroker ['p'] t run.1 Nextcloud.opened w' := by
  intro inv t run w'
  have hCalls : run.2.calls = [.write ['a', '/', 'b'] [], .read ['a', '/', 'b']] := rfl
  have hServes : plainBroker.Serves ['p'] (fun _ => .delivered) inv.answer 0 run.2.calls
      Nextcloud.opened w' := by
    rw [hCalls]
    exact ⟨rfl, rfl, rfl⟩
  exact ⟨rfl, (verified_iff strictPlatform strictPlatform_decodes ['p'] inv ⟨[], []⟩ 0 t plainBroker _ _ _
    hServes).mpr id⟩

/-- The file is put and unlocked, and the checkin succeeds without having read anything. -/
theorem checkin_unread :
    let manifest : Manifest := ⟨['d'], 0, ['p'], ['a', '/', 'b'], some (.ofText ['t']), some true⟩
    let call := ToolCall.checkin ['a', '/', 'b'] [] (.ofText ['t'])
    let t := Transfer.checkin ['a', '/', 'b'] none (some [])
    let run := (runTransfer strictPlatform ['p'] (brokered call call) t).run
      ⟨⟨[], [⟨['d'], 0, manifest⟩]⟩, 0, []⟩
    let w' := (plainBroker.serve ['p'] 0 call Nextcloud.opened).2
    run.2.calls = [call] ∧ (exitOf run.1).code = EXIT_OK ∧
      ¬ Verified strictPlatform plainBroker ['p'] t run.1 Nextcloud.opened w' := by
  intro manifest call t run w'
  have hCode : (exitOf run.1).code = EXIT_OK := rfl
  have hSays : ∃ written unlocked, Nextcloud.Says plainBroker.env Nextcloud.opened w'
      [⟨['p'], .put ['a', '/', 'b'] [] (some ['t']), written⟩,
        ⟨['p'], .unlock ['a', '/', 'b'] ['t'], unlocked⟩] := ⟨_, _, _, rfl, rfl, rfl⟩
  obtain ⟨written, unlocked, hSays⟩ := hSays
  refine ⟨rfl, hCode, fun h => ?_⟩
  obtain ⟨norm, _, hReads⟩ := h hCode _ _ rfl
  refine not_readsBack hSays (fun exchange hMem path => ?_) hReads
  simp only [List.mem_cons, List.not_mem_nil, or_false] at hMem
  rcases hMem with rfl | rfl <;> exact nofun

end AccessBroker.Cli
