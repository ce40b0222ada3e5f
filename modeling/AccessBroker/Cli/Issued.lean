import AccessBroker.Cli.ReadingBack
import AccessBroker.Nextcloud.Speaking
import Mathlib.Logic.Relation

/-! # Where staged files come from

The staging directory of an instance through any run of transfers, against a broker that others
use as well. What is staged was served, and a lock token that is sent was issued.
-/

namespace AccessBroker.Cli
open Py
set_option autoImplicit false

/-! ## What a tool call can say -/

section Saying

variable {broker : Server.Broker} {instanceName : Text} {w w' : Nextcloud.World}
variable {allowed : Nextcloud.Verb → Prop}

/-- Each operation the call can come down to makes only these verbs. -/
def ToolCall.Allowed (allowed : Nextcloud.Verb → Prop) (instanceName : Text) (call : ToolCall) :
    Prop :=
  ∀ operation verb, Server.asked instanceName call = some operation → operation.2.Makes verb →
    allowed verb

theorem serve_speaks {call : ToolCall} (hCall : call.Allowed allowed instanceName) (k : Nat)
    (w : Nextcloud.World) :
    Nextcloud.Speaks broker.env allowed w (broker.serve instanceName k call w).2 := by
  cases hTool : Server.transferTool instanceName call with
  | none =>
    simp only [Server.Broker.serve, hTool]
    exact Std.Refl.refl w
  | some tool =>
    cases hOperation : tool.operation Base64.decode .transfer with
    | none =>
      simp only [Server.Broker.serve, hTool, Server.Broker.runTool, hOperation]
      exact Std.Refl.refl w
    | some operation =>
      have hAsked : Server.asked instanceName call = some operation := by
        rw [Server.asked, hTool, Option.bind_some, hOperation]
      simp only [Server.Broker.serve, hTool, Server.Broker.runTool, hOperation]
      exact Nextcloud.operation_speaks operation.2 (fun verb => hCall operation verb hAsked) w

theorem deliver_speaks {call : ToolCall} (hCall : call.Allowed allowed instanceName) (k : Nat)
    (w : Nextcloud.World) (delivery : Server.Delivery) :
    Nextcloud.Speaks broker.env allowed w (broker.deliver instanceName k call w delivery).2 := by
  cases delivery with
  | delivered => exact serve_speaks hCall k w
  | lost served failure =>
    cases served with
    | false => exact Std.Refl.refl w
    | true => exact serve_speaks hCall k w

theorem serves_speaks {deliveries : Nat → Server.Delivery}
    {answer : Nat → Except Failure Json.Value} {calls : List ToolCall} :
    ∀ {k : Nat} {w : Nextcloud.World}, (∀ call ∈ calls, call.Allowed allowed instanceName) →
      broker.Serves instanceName deliveries answer k calls w w' →
        Nextcloud.Speaks broker.env allowed w w' := by
  induction calls with
  | nil =>
    rintro k w _ rfl
    exact Std.Refl.refl w'
  | cons call calls ih =>
    rintro k w hCalls ⟨_, hRest⟩
    have hFirst : Nextcloud.Speaks broker.env allowed w
        (broker.deliver instanceName k call w (deliveries k)).2 :=
      deliver_speaks (hCalls call List.mem_cons_self) k w (deliveries k)
    exact IsTrans.trans _ _ _ hFirst
      (ih (fun other hMem => hCalls other (List.mem_cons_of_mem _ hMem)) hRest)

theorem asked_checkout (instanceName path : Text) (timeout : Int) :
    Server.asked instanceName (.checkout path timeout) = some (instanceName,
      .checkout path timeout (some Server.Surface.transfer.principal)) := rfl

end Saying

/-! ## What a checkout is given -/

section Checkouts

variable {platform : Platform} {broker : Server.Broker} {instanceName : Text}
  {w : Nextcloud.World}

theorem checkoutReply_eq (platform : Platform) (out : Json.Value) : checkoutReply platform out =
    okResult platform "INFRA: ".toList out >>= lockedContent platform := rfl

/-- What the checkout of a file comes to is the token and the content that the layer was given. -/
theorem checkoutReply_content (hDecode : platform.Decodes) {lockToken : Option Text}
    {content : Option Bytes} {data : Bytes} {token : Json.Value}
    (h : checkoutReply platform (.obj (Server.Envelope.ok (.checkedOut lockToken content)).json) =
      .ok (data, token)) :
    content = some data ∧ ∃ text, lockToken = some text ∧ token = .ofText text := by
  cases content with
  | none => cases lockToken <;> cases h
  | some content =>
    cases lockToken with
    | none => cases h
    | some text =>
      have hTruth (c : Char) (rest : Text) : truth (.ofText (c :: rest)) = true := rfl
      cases text with
      | nil => cases h
      | cons c rest =>
        change (decodeContent platform _ (Json.codes (Base64.encode content)) >>= fun data =>
          pure (data, Json.Value.ofText (c :: rest))) = .ok (data, token) at h
        rw [decodeContent, hDecode] at h
        cases h
        exact ⟨rfl, c :: rest, rfl, rfl⟩

theorem checkout_served (hDecode : platform.Decodes) {k : Nat} {path : Text}
    {timeout : Int} {data : Bytes} {token out : Json.Value}
    (hOut : (broker.serve instanceName k (.checkout path timeout) w).1 = .ok out)
    (hLocked : checkoutReply platform out = .ok (data, token)) :
    ∃ norm locked got text, Nextcloud.namespaceGuard broker.platform path = some norm ∧
      Nextcloud.Says broker.env w (broker.serve instanceName k (.checkout path timeout) w).2
        [⟨instanceName, .lock norm timeout, .ok locked⟩, ⟨instanceName, .get norm, .ok got⟩] ∧
      locked.lockToken = some text ∧ token = .ofText text ∧ got.content = some data := by
  obtain ⟨operation, result, hAsked, hRun, rfl⟩ :=
    Server.Broker.serve_succeeds hOut
      (okResult_succeeds (fun _ => rfl) ((checkoutReply_eq platform out).symm.trans hLocked))
  rw [asked_checkout] at hAsked
  cases hAsked
  obtain ⟨⟨lockToken, content⟩, hCheckout, rfl⟩ := Effect.of_bind_pure hRun
  obtain ⟨norm, locked, got, hGuard, hSays, rfl, rfl⟩ := Nextcloud.checkout_said hCheckout
  obtain ⟨hContent, text, hText, hToken⟩ := checkoutReply_content hDecode hLocked
  refine ⟨norm, locked, got, text, hGuard, hSays, hText, hToken, ?_⟩
  split at hContent
  · exact hContent
  · cases hContent

end Checkouts

/-! ## Where things come from -/

section Origins

variable (platform : Platform) (backing : Nextcloud.Platform) (instanceName : Text)
  (said : List Nextcloud.Exchange)

def Issued (path token : Text) : Prop :=
  ∃ norm timeout reply, Nextcloud.namespaceGuard backing path = some norm ∧
    ⟨instanceName, .lock norm timeout, .ok reply⟩ ∈ said ∧ reply.lockToken = some token

def Fetched (path : Text) (data : Bytes) : Prop :=
  ∃ norm reply, Nextcloud.namespaceGuard backing path = some norm ∧
    ⟨instanceName, .get norm, .ok reply⟩ ∈ said ∧ reply.content = some data

/-- What the manifest says of its file is so. -/
structure Manifest.Tells (manifest : Manifest) : Prop where
  fetched : ∃ data, Fetched backing instanceName said manifest.remotePath data ∧
    manifest.sha256 = platform.sha256 data ∧ manifest.sizeBytes = data.length
  issued : ∀ token, manifest.lockToken = some token →
    ∃ text, token = .ofText text ∧ Issued backing instanceName said manifest.remotePath text

/-- Every file of the directory is filed under its own digest, and comes from the server or from
the one who works on it. -/
structure Staging.Honest (edits : List (Text × Bytes)) (staging : Staging) : Prop where
  contents : ∀ entry ∈ staging.contents, (entry.digest, entry.value) ∈ edits ∨
    entry.digest = platform.sha256 entry.value ∧
      ∃ path, Fetched backing instanceName said path entry.value
  manifests : ∀ entry ∈ staging.manifests, entry.digest = entry.value.sha256 ∧
    entry.value.Tells platform backing instanceName said

variable {platform backing instanceName said}

theorem Issued.append {path token : Text} (h : Issued backing instanceName said path token)
    (more : List Nextcloud.Exchange) : Issued backing instanceName (said ++ more) path token := by
  obtain ⟨norm, timeout, reply, hGuard, hMem, hToken⟩ := h
  exact ⟨norm, timeout, reply, hGuard, List.mem_append_left more hMem, hToken⟩

theorem Fetched.append {path : Text} {data : Bytes} (h : Fetched backing instanceName said path data)
    (more : List Nextcloud.Exchange) : Fetched backing instanceName (said ++ more) path data := by
  obtain ⟨norm, reply, hGuard, hMem, hContent⟩ := h
  exact ⟨norm, reply, hGuard, List.mem_append_left more hMem, hContent⟩

theorem Manifest.Tells.append {manifest : Manifest}
    (h : manifest.Tells platform backing instanceName said) (more : List Nextcloud.Exchange) :
    manifest.Tells platform backing instanceName (said ++ more) where
  fetched := by
    obtain ⟨data, hFetched, hSha, hSize⟩ := h.fetched
    exact ⟨data, hFetched.append more, hSha, hSize⟩
  issued := by
    intro token hToken
    obtain ⟨text, hText, hIssued⟩ := h.issued token hToken
    exact ⟨text, hText, hIssued.append more⟩

namespace Staging.Honest

variable {edits : List (Text × Bytes)} {staging : Staging}

theorem append (h : staging.Honest platform backing instanceName said edits)
    (more : List Nextcloud.Exchange) :
    staging.Honest platform backing instanceName (said ++ more) edits where
  contents := by
    intro entry hMem
    rcases h.contents entry hMem with hEdit | ⟨hSha, path, hFetched⟩
    · exact Or.inl hEdit
    · exact Or.inr ⟨hSha, path, hFetched.append more⟩
  manifests := by
    intro entry hMem
    obtain ⟨hSha, hTells⟩ := h.manifests entry hMem
    exact ⟨hSha, hTells.append more⟩

theorem collect (h : staging.Honest platform backing instanceName said edits) (clock : Int) :
    (staging.collect clock).Honest platform backing instanceName said edits where
  contents entry hMem := h.contents entry (List.mem_filter.mp hMem).1
  manifests entry hMem := h.manifests entry (List.mem_filter.mp hMem).1

theorem stagedIn (h : staging.Honest platform backing instanceName said edits) {manifest : Manifest}
    {data : Bytes} (hSha : manifest.sha256 = platform.sha256 data)
    (hFetched : Fetched backing instanceName said manifest.remotePath data)
    (hTells : manifest.Tells platform backing instanceName said) (clock : Int) :
    (stagedIn data manifest clock staging).Honest platform backing instanceName said edits where
  contents := by
    intro entry hMem
    rcases List.mem_cons.mp hMem with rfl | hMem
    · exact Or.inr ⟨hSha, _, hFetched⟩
    · exact h.contents entry (List.mem_filter.mp hMem).1
  manifests := by
    intro entry hMem
    rcases List.mem_cons.mp hMem with rfl | hMem
    · exact ⟨rfl, hTells⟩
    · exact h.manifests entry (List.mem_filter.mp hMem).1

/-- The manifest that a checkin files again says what it said. -/
theorem markedIn (h : staging.Honest platform backing instanceName said edits)
    {found : Staged Manifest} (hFound : found ∈ staging.manifests) (clock : Int) :
    (markedIn found clock staging).Honest platform backing instanceName said edits where
  contents := h.contents
  manifests := by
    intro entry hMem
    rcases List.mem_cons.mp hMem with rfl | hMem
    · exact ⟨rfl, (h.manifests found hFound).2.fetched, (h.manifests found hFound).2.issued⟩
    · exact h.manifests entry (List.mem_filter.mp hMem).1

end Staging.Honest

theorem findManifest_mem {manifests : List (Staged Manifest)} {manifestSha : Option Text}
    {found : Staged Manifest} (h : findManifest manifests manifestSha = .ok found) :
    found ∈ manifests := by
  unfold findManifest at h
  split at h
  · split at h
    · rename_i hFind
      cases h
      exact List.mem_of_find?_eq_some hFind
    · cases h
  · split at h
    · rename_i hFind
      cases h
      exact (List.mem_insertionSort _).mp (List.mem_of_find?_eq_some hFind)
    · cases h

end Origins

/-! ## Workplaces -/

/-- The staging directory of an instance with what was written into it by hand, and the world
behind the broker. -/
structure Workplace where
  staging : Staging
  clock : Int
  edits : List (Text × Bytes)
  world : Nextcloud.World

namespace Workplace

section Steps

variable (platform : Platform) (backing : Nextcloud.Platform) (env : Nextcloud.Environment)
  (instanceName : Text)

def transfer (s : Workplace) (inv : Invocation) (t : Transfer) : Except Failure Outcome × World :=
  (runTransfer platform instanceName inv t).run ⟨s.staging, s.clock, []⟩

/-- The tool calls of the transfer are served by a broker, whatever its configuration and its
grants are by then. -/
def Serves (s : Workplace) (inv : Invocation) (t : Transfer) (w' : Nextcloud.World) : Prop :=
  ∃ (broker : Server.Broker) (deliveries : Nat → Server.Delivery), broker.platform = backing ∧
    broker.env = env ∧ broker.Serves instanceName deliveries inv.answer 0
      (s.transfer platform instanceName inv t).2.calls s.world w'

def edit (s : Workplace) (digest : Text) (data : Bytes) : Workplace :=
  { s with
    staging := { s.staging with contents := s.staging.contents.map fun entry =>
      if entry.digest = digest then ⟨digest, s.clock, data⟩ else entry }
    edits := (digest, data) :: s.edits }

inductive Step : Workplace → Workplace → Prop
  | transfer {s : Workplace} {w' : Nextcloud.World} (inv : Invocation) (t : Transfer)
      (hServes : s.Serves platform backing env instanceName inv t w') :
      Step s { s with
        staging := (s.transfer platform instanceName inv t).2.staging
        clock := (s.transfer platform instanceName inv t).2.clock
        world := w' }
  | gc (s : Workplace) : Step s { s with staging := s.staging.collect s.clock }
  | edit (s : Workplace) (digest : Text) (data : Bytes) : Step s (s.edit digest data)
  | wait (s : Workplace) (elapsed : Int) : Step s { s with clock := s.clock + elapsed }
  /-- An operation on any instance that is not one of these transfers. -/
  | elsewhere (s : Workplace) (layer : Nextcloud.Layer) (db : Grants.Database) (other : Text)
      (op : Nextcloud.Operation) :
      Step s { s with world := ((op.run backing layer db env other).run s.world).2 }
  /-- The broker is started again, with the audit log as it is then. -/
  | restart (s : Workplace) (audit : Option Audit.AuditState) :
      Step s { s with world := { s.world with audit } }

end Steps

end Workplace

/-- The verbs a transfer may have called, with only those lock tokens. -/
def Transfer.MaySay (issued : Text → Prop) : Transfer → Nextcloud.Verb → Prop
  | .fetch _, .get _ | .push .., .get _ | .checkout _ _, .get _ => True
  | .push _ fromFile _ _ _, .put _ data lockToken => fromFile = some data ∧ lockToken = none
  | .checkout _ timeout, .lock _ asked => asked = timeout
  | .checkin _ _ fromFile, .put _ data lockToken =>
    fromFile = some data ∧ ∃ token, lockToken = some token ∧ issued token
  | .checkin _ _ _, .unlock _ token => issued token
  | _, _ => False

section Runs

variable {platform : Platform} {backing : Nextcloud.Platform} {env : Nextcloud.Environment}
  {instanceName : Text} {said : List Nextcloud.Exchange}

/-! ## What a transfer says -/

theorem allowed_read {allowed : Nextcloud.Verb → Prop} (hGet : ∀ norm, allowed (.get norm))
    (path : Text) : (ToolCall.read path).Allowed allowed instanceName := by
  intro operation verb hAsked hMakes
  rw [Server.asked_read] at hAsked
  cases hAsked
  cases hMakes
  exact hGet _

theorem allowed_write {allowed : Nextcloud.Verb → Prop} {data : Bytes}
    (hPut : ∀ norm, allowed (.put norm data none)) (path : Text) :
    (ToolCall.write path data).Allowed allowed instanceName := by
  intro operation verb hAsked hMakes
  rw [Server.asked_write] at hAsked
  cases hAsked
  cases hMakes
  exact hPut _

theorem allowed_checkout {allowed : Nextcloud.Verb → Prop} {timeout : Int}
    (hLock : ∀ norm, allowed (.lock norm timeout)) (hGet : ∀ norm, allowed (.get norm))
    (path : Text) : (ToolCall.checkout path timeout).Allowed allowed instanceName := by
  intro operation verb hAsked hMakes
  rw [asked_checkout] at hAsked
  cases hAsked
  cases hMakes with
  | checkout => exact hLock _
  | checkoutRead => exact hGet _

theorem allowed_checkin {allowed : Nextcloud.Verb → Prop} {data : Bytes} {token : Text}
    (hPut : ∀ norm, allowed (.put norm data (some token)))
    (hUnlock : ∀ norm, allowed (.unlock norm token)) (path : Text) :
    (ToolCall.checkin path data (.ofText token)).Allowed allowed instanceName := by
  intro operation verb hAsked hMakes
  obtain ⟨s, text, hStr, hText, _, rfl⟩ := (Server.asked_checkin instanceName path data).mp hAsked
  cases hStr
  rw [Server.text?_codes] at hText
  cases hText
  cases hMakes with
  | checkin => exact hPut _
  | checkinUnlock => exact hUnlock _

/-- The token that a checkin picks was issued. -/
theorem picked_issued {edits : List (Text × Bytes)} {staging : Staging} {inv : Invocation}
    {manifestSha : Option Text} {fromFile : Option Bytes} {data : Bytes} {found : Staged Manifest}
    (hHonest : staging.Honest platform backing instanceName said edits)
    (h : Attempts inv staging.manifests manifestSha fromFile data found) :
    ∃ token, found.value.lockToken.getD .null = .ofText token ∧
      Issued backing instanceName said found.value.remotePath token := by
  have hTells := (hHonest.manifests found (findManifest_mem h.picked)).2
  have hTruth := h.token
  cases hToken : found.value.lockToken with
  | none =>
    rw [hToken] at hTruth
    cases hTruth
  | some token => exact hTells.issued token hToken

theorem transfer_allowed {edits : List (Text × Bytes)} {staging : Staging}
    (hHonest : staging.Honest platform backing instanceName said edits) (inv : Invocation)
    (t : Transfer) (clock : Int) :
    ∀ call ∈ ((runTransfer platform instanceName inv t).run ⟨staging, clock, []⟩).2.calls,
      call.Allowed (t.MaySay fun token => ∃ path, Issued backing instanceName said path token)
        instanceName := by
  have hEnds := transfer_ends platform instanceName inv staging clock t
  rw [runTransfer_run]
  generalize (transfer platform instanceName inv t).run ⟨staging, clock, []⟩ = run at hEnds ⊢
  have hOne {call other : ToolCall} {calls : List ToolCall} {allowed : Nextcloud.Verb → Prop}
      (hCalls : calls = [call]) (hAllowed : call.Allowed allowed instanceName)
      (hMem : other ∈ calls) : other.Allowed allowed instanceName := by
    rw [hCalls] at hMem
    rw [List.mem_singleton.mp hMem]
    exact hAllowed
  cases hEnds with
  | stops _ _ hCalls _ =>
    dsimp only
    rw [hCalls]
    exact fun _ hMem => absurd hMem List.not_mem_nil
  | fetch _ _ hCalls _ =>
    refine fun call hMem => hOne hCalls (allowed_read (fun _ => trivial) _) ?_
    cases hReply : inv.answer 0 >>= readReply platform <;> rw [hReply] at hMem <;> exact hMem
  | checkout _ _ hCalls _ =>
    refine fun call hMem => hOne hCalls (allowed_checkout (fun _ => rfl) (fun _ => trivial) _) ?_
    cases hReply : inv.answer 0 >>= checkoutReply platform <;> rw [hReply] at hMem <;> exact hMem
  | @checkin _ _ _ data found w hAttempts _ hCalls =>
    obtain ⟨token, hToken, hIssued⟩ := picked_issued hHonest hAttempts
    rw [hToken] at hCalls
    refine fun call hMem => hOne hCalls (allowed_checkin
      (fun _ => ⟨hAttempts.fromFile, token, rfl, _, hIssued⟩) (fun _ => ⟨_, hIssued⟩) _) ?_
    match hStatus : inv.answer 0 >>= checkinStatus with
    | .ok none | .ok (some code) | .error failure =>
      rw [hStatus] at hMem
      exact hMem
  | written _ _ hCalls _ =>
    exact fun call hMem => hOne hCalls (allowed_write (fun _ => ⟨rfl, rfl⟩) _) hMem
  | readBack _ _ hCalls _ =>
    intro call hMem
    rw [show _ = _ from hCalls] at hMem
    rcases List.mem_cons.mp hMem with rfl | hMem
    · exact allowed_write (fun _ => ⟨rfl, rfl⟩) _
    · rw [List.mem_singleton.mp hMem]
      exact allowed_read (fun _ => trivial) _

/-! ## What a transfer stages -/

section Staged

variable {broker : Server.Broker} {deliveries : Nat → Server.Delivery}
  {answer : Nat → Except Failure Json.Value} {edits : List (Text × Bytes)} {staging : Staging}
  {w : World} {world world' : Nextcloud.World}

theorem serves_said {calls : List ToolCall} {k : Nat}
    (h : broker.Serves instanceName deliveries answer k calls world world') :
    ∃ more, Nextcloud.Says broker.env world world' more := by
  have hSpeaks : Nextcloud.Speaks broker.env (fun _ => True) world world' :=
    serves_speaks (fun _ _ _ _ _ _ => trivial) h
  obtain ⟨more, hSays, _⟩ := hSpeaks
  exact ⟨more, hSays⟩

/-- The answer of a call that is served alone is the tool's, if there is one. -/
theorem serves_one {call : ToolCall} {out : Json.Value} (hOut : answer 0 = .ok out)
    (h : broker.Serves instanceName deliveries answer 0 [call] world world') :
    (broker.serve instanceName 0 call world).1 = .ok out ∧
      (broker.serve instanceName 0 call world).2 = world' := by
  obtain ⟨hAnswer, rfl⟩ := h
  rw [hOut] at hAnswer
  have hDelivered : deliveries 0 = .delivered := Server.Broker.deliver_ok hAnswer.symm
  rw [hDelivered] at hAnswer ⊢
  exact ⟨hAnswer.symm, rfl⟩

theorem answered_ok {α : Type} {read : Json.Value → Except Failure α} {a : α}
    {answered : Except Failure Json.Value} (h : answered >>= read = .ok a) :
    ∃ out, answered = .ok out ∧ read out = .ok a := by
  cases answered with
  | error failure => cases h
  | ok out => exact ⟨out, rfl, h⟩

theorem fetch_honest (hDecode : platform.Decodes) {path : Text} {data : Bytes}
    (hHonest : w.staging.Honest platform broker.platform instanceName said edits)
    (hReply : answer 0 >>= readReply platform = .ok data)
    (hServes : broker.Serves instanceName deliveries answer 0 [.read path] world world') :
    ∃ more, Nextcloud.Says broker.env world world' more ∧
      (w.stage data (fetchManifest platform instanceName path data)).staging.Honest platform
        broker.platform instanceName (said ++ more) edits := by
  obtain ⟨out, hOut, hRead⟩ := answered_ok hReply
  obtain ⟨hServed, rfl⟩ := serves_one hOut hServes
  obtain ⟨norm, reply, hGuard, hContent, hSays⟩ := read_served hDecode hServed hRead
  have hFetched : Fetched broker.platform instanceName
      (said ++ [⟨instanceName, .get norm, .ok reply⟩]) path data :=
    ⟨norm, reply, hGuard, by simp, hContent⟩
  refine ⟨_, hSays, (hHonest.append _).stagedIn rfl hFetched ⟨⟨data, hFetched, rfl, rfl⟩, ?_⟩ _⟩
  rintro token ⟨⟩

theorem checkout_honest (hDecode : platform.Decodes) {path : Text} {timeout : Int}
    {data : Bytes} {token : Json.Value}
    (hHonest : w.staging.Honest platform broker.platform instanceName said edits)
    (hReply : answer 0 >>= checkoutReply platform = .ok (data, token))
    (hServes : broker.Serves instanceName deliveries answer 0 [.checkout path timeout] world
      world') :
    ∃ more, Nextcloud.Says broker.env world world' more ∧
      (w.stage data (checkoutManifest platform instanceName path data token)).staging.Honest platform
        broker.platform instanceName (said ++ more) edits := by
  obtain ⟨out, hOut, hLocked⟩ := answered_ok hReply
  obtain ⟨hServed, rfl⟩ := serves_one hOut hServes
  obtain ⟨norm, locked, got, text, hGuard, hSays, hText, rfl, hContent⟩ :=
    checkout_served hDecode hServed hLocked
  have hFetched : Fetched broker.platform instanceName
      (said ++ [⟨instanceName, .lock norm timeout, .ok locked⟩, ⟨instanceName, .get norm, .ok got⟩])
      path data := ⟨norm, got, hGuard, by simp, hContent⟩
  refine ⟨_, hSays, (hHonest.append _).stagedIn rfl hFetched ⟨⟨data, hFetched, rfl, rfl⟩, ?_⟩ _⟩
  rintro token ⟨⟩
  exact ⟨text, rfl, norm, timeout, locked, hGuard, by simp, hText⟩

/-- A transfer that is served leaves the directory as honest as it was. -/
theorem transfer_honest (hDecode : platform.Decodes)
    (hHonest : staging.Honest platform broker.platform instanceName said edits) (inv : Invocation)
    (t : Transfer) (clock : Int)
    (hServes : broker.Serves instanceName deliveries inv.answer 0
      ((runTransfer platform instanceName inv t).run ⟨staging, clock, []⟩).2.calls world world') :
    ∃ more, Nextcloud.Says broker.env world world' more ∧
      ((runTransfer platform instanceName inv t).run ⟨staging, clock, []⟩).2.staging.Honest platform
        broker.platform instanceName (said ++ more) edits := by
  have hEnds := transfer_ends platform instanceName inv staging clock t
  obtain ⟨more, hSays⟩ := serves_said hServes
  rw [runTransfer_run] at hServes ⊢
  generalize (transfer platform instanceName inv t).run ⟨staging, clock, []⟩ = run
    at hEnds hServes ⊢
  have hSame {other : Staging} (h : other = staging ∨ other = staging.collect clock) :
      other.Honest platform broker.platform instanceName said edits := by
    rcases h with rfl | rfl
    · exact hHonest
    · exact hHonest.collect clock
  cases hEnds with
  | stops _ _ _ hStaging => exact ⟨more, hSays, (hSame hStaging).append more⟩
  | @fetch path w _ hStaging hCalls _ =>
    have hBefore := hSame (Or.inr hStaging)
    cases hReply : inv.answer 0 >>= readReply platform with
    | error failure => exact ⟨more, hSays, hBefore.append more⟩
    | ok data =>
      rw [hReply] at hServes
      exact fetch_honest hDecode hBefore hReply (hCalls ▸ hServes)
  | @checkout path timeout w _ hStaging hCalls _ =>
    have hBefore := hSame (Or.inr hStaging)
    match hReply : inv.answer 0 >>= checkoutReply platform with
    | .error failure => exact ⟨more, hSays, hBefore.append more⟩
    | .ok (data, token) =>
      rw [hReply] at hServes
      exact checkout_honest hDecode hBefore hReply (hCalls ▸ hServes)
  | @checkin _ _ _ data found w hAttempts hStaging hCalls =>
    have hBefore := (hSame (Or.inl hStaging)).append more
    match inv.answer 0 >>= checkinStatus with
    | .ok none =>
      refine ⟨more, hSays, hBefore.markedIn ?_ w.clock⟩
      rw [hStaging]
      exact findManifest_mem hAttempts.picked
    | .ok (some code) | .error failure => exact ⟨more, hSays, hBefore⟩
  | written _ hStaging _ _ => exact ⟨more, hSays, (hSame (Or.inl hStaging)).append more⟩
  | readBack _ hStaging _ _ => exact ⟨more, hSays, (hSame (Or.inl hStaging)).append more⟩

end Staged

/-! ## Runs -/

/-- The directory is as honest after a step as it was before. -/
theorem Workplace.Step.honest (hDecode : platform.Decodes) {s s' : Workplace}
    (h : Workplace.Step platform backing env instanceName s s')
    (hHonest : s.staging.Honest platform backing instanceName said s.edits) :
    ∃ more, Nextcloud.Says env s.world s'.world more ∧
      s'.staging.Honest platform backing instanceName (said ++ more) s'.edits := by
  have hQuiet {staging : Staging} {edits : List (Text × Bytes)}
      (h : staging.Honest platform backing instanceName said edits) :
      ∃ more, Nextcloud.Says env s.world s.world more ∧
        staging.Honest platform backing instanceName (said ++ more) edits :=
    ⟨[], .refl env s.world, h.append []⟩
  cases h with
  | transfer inv t hServes =>
    obtain ⟨broker, deliveries, rfl, rfl, hServes⟩ := hServes
    exact transfer_honest hDecode hHonest inv t s.clock hServes
  | gc => exact hQuiet (hHonest.collect s.clock)
  | edit digest data =>
    refine hQuiet ⟨fun entry hMem => ?_, hHonest.manifests⟩
    obtain ⟨before, hBefore, rfl⟩ := List.mem_map.mp hMem
    split
    · exact Or.inl List.mem_cons_self
    · rcases hHonest.contents before hBefore with hEdit | hServed
      · exact Or.inl (List.mem_cons_of_mem _ hEdit)
      · exact Or.inr hServed
  | wait elapsed => exact hQuiet hHonest
  | elsewhere layer db other op =>
    have hSpeaks : Nextcloud.Speaks env (fun _ => True) s.world
        ((op.run backing layer db env other).run s.world).2 :=
      Nextcloud.operation_speaks op (fun _ _ => trivial) s.world
    obtain ⟨more, hSays, _⟩ := hSpeaks
    exact ⟨more, hSays, hHonest.append more⟩
  | restart audit => exact ⟨[], ⟨[], (List.append_nil _).symm, rfl, rfl⟩, hHonest.append []⟩

theorem reached_honest (hDecode : platform.Decodes) {clock : Int}
    {w₀ : Nextcloud.World} {s : Workplace}
    (hReached : Relation.ReflTransGen (Workplace.Step platform backing env instanceName)
      ⟨⟨[], []⟩, clock, [], w₀⟩ s) :
    ∃ said, Nextcloud.Says env w₀ s.world said ∧
      s.staging.Honest platform backing instanceName said s.edits := by
  induction hReached with
  | refl =>
    exact ⟨[], .refl env w₀, fun _ hMem => absurd hMem List.not_mem_nil,
      fun _ hMem => absurd hMem List.not_mem_nil⟩
  | tail _ hStep ih =>
    obtain ⟨said, hSays, hHonest⟩ := ih
    obtain ⟨more, hMore, hHonest'⟩ := hStep.honest hDecode hHonest
    exact ⟨said ++ more, hSays.trans hMore, hHonest'⟩

end Runs

/-- Through any run, what is staged was read from the server or written by hand, each manifest tells
of a file that was read and of a lock that was granted, and a transfer sends no lock token but one
that an earlier lock was granted with. -/
theorem staged_from_server {platform : Platform} (hDecode : platform.Decodes)
    {backing : Nextcloud.Platform} {env : Nextcloud.Environment} {instanceName : Text} {clock : Int}
    {w₀ : Nextcloud.World} {s : Workplace}
    (hReached : Relation.ReflTransGen (Workplace.Step platform backing env instanceName)
      ⟨⟨[], []⟩, clock, [], w₀⟩ s) :
    ∃ said, Nextcloud.Says env w₀ s.world said ∧
      s.staging.Honest platform backing instanceName said s.edits ∧
      ∀ inv t w', s.Serves platform backing env instanceName inv t w' →
        Nextcloud.Speaks env
          (t.MaySay fun token => ∃ path, Issued backing instanceName said path token) s.world w' := by
  obtain ⟨said, hSays, hHonest⟩ := reached_honest hDecode hReached
  refine ⟨said, hSays, hHonest, ?_⟩
  rintro inv t w' ⟨broker, deliveries, rfl, rfl, hServes⟩
  exact serves_speaks (transfer_allowed hHonest inv t s.clock) hServes

def emptyPlace : Workplace := ⟨⟨[], []⟩, 0, [], Nextcloud.opened⟩

def workedOn : Workplace :=
  let call := ToolCall.checkout ['a', '/', 'b'] 0
  let run := emptyPlace.transfer strictPlatform ['p'] (brokered call call) (.checkout ['a', '/', 'b'] 0)
  Workplace.edit { emptyPlace with
    staging := run.2.staging
    clock := run.2.clock
    world := (plainBroker.serve ['p'] 0 call Nextcloud.opened).2 } [] [1]

theorem staged_from_server_checkout :
    workedOn.staging.contents.map (fun entry => entry.value) = [[1]] ∧
      ∃ said, Nextcloud.Says Nextcloud.calm Nextcloud.opened workedOn.world said ∧
        workedOn.staging.Honest strictPlatform Nextcloud.plainPlatform ['p'] said workedOn.edits ∧
        ∀ inv t w', workedOn.Serves strictPlatform Nextcloud.plainPlatform Nextcloud.calm ['p'] inv t w' →
          Nextcloud.Speaks Nextcloud.calm
            (t.MaySay fun token => ∃ path, Issued Nextcloud.plainPlatform ['p'] said path token)
            workedOn.world w' := by
  have hServes : emptyPlace.Serves strictPlatform Nextcloud.plainPlatform Nextcloud.calm ['p']
      (brokered (.checkout ['a', '/', 'b'] 0) (.checkout ['a', '/', 'b'] 0))
      (.checkout ['a', '/', 'b'] 0)
      (plainBroker.serve ['p'] 0 (.checkout ['a', '/', 'b'] 0) Nextcloud.opened).2 :=
    ⟨plainBroker, fun _ => .delivered, rfl, rfl, rfl, rfl⟩
  have hReached : Relation.ReflTransGen
      (Workplace.Step strictPlatform Nextcloud.plainPlatform Nextcloud.calm ['p'])
      ⟨⟨[], []⟩, 0, [], Nextcloud.opened⟩ workedOn :=
    .tail (.tail .refl (.transfer _ _ hServes)) (.edit _ [] [1])
  exact ⟨by decide +kernel, staged_from_server strictPlatform_decodes hReached⟩

end AccessBroker.Cli
