import AccessBroker.Library.Redaction
import AccessBroker.Nextcloud.Mediation
import AccessBroker.Server
import AccessBroker.WebdavAdapter

/-! # The envelopes of the file tools

`_op` puts the result of a file operation, or the exception it ends with, into what the
tool answers. Only the last rung of its ladder takes the passwords of all clients out.
-/

namespace AccessBroker.Server
open Py Paths Grants Nextcloud
set_option autoImplicit false

/-- The `except` clause that catches what the transport raises besides `WebDavError`. -/
inductive Rung where
  | accessRefused
  | logWriteError
  | unreachable
  | otherwise
  deriving DecidableEq

/-- What is behind the names of exceptions: the clause that catches them, and their text. -/
structure Exceptions where
  rung : Text → Rung
  str : Text → Text
  /-- The texts of the exceptions Python itself raises in the layer. -/
  strLayer : LayerError → Text

/-- The envelope of a failed operation; `key` is where the message stands. -/
structure Failure where
  status : Text
  key : Text
  message : Text
  deriving DecidableEq

inductive Envelope where
  | ok (result : Nextcloud.Answer)
  | failed (failure : Failure)
  deriving DecidableEq

def Failure.strings (failure : Failure) : List Text :=
  [failure.status, failure.key, failure.message]

def refusal (reason : Text) : Failure := ⟨"refused".toList, "reason".toList, reason⟩

def error (message : Text) : Failure := ⟨"error".toList, "message".toList, message.take 300⟩

def scrubClients (clients : List (Text × Client)) (message : Text) : Text :=
  clients.foldl (fun message client =>
    match client.2.password with
    | some secret => if secret ≠ [] then replace secret "[redacted]".toList message else message
    | none => message) message

def webDavMessage (status : Int) (message : Text) : Text :=
  "nextcloud error ".toList ++ decimal status ++ ": ".toList ++ message

def auditMessage (message : Text) : Text :=
  "audit failure, operation refused: ".toList ++ message

def unreachableMessage (message : Text) : Text := "backend unreachable: ".toList ++ message

def unexpectedMessage (clients : List (Text × Client)) (message : Text) : Text :=
  "unexpected transport failure: ".toList ++ (scrubClients clients message).take 200

section Ladder

variable (exceptions : Exceptions) (logPath : Text) (clients : List (Text × Client))

def caught : LayerError → Failure
  | .accessRefused reason => refusal reason
  | .webDav status message => error (webDavMessage status message)
  | .audit (.logWriteError cause) => error (auditMessage (cause.message logPath))
  | .audit .secretInField =>
    error (unexpectedMessage clients
      "refusing to log a value containing a configured secret".toList)
  | .transport exc =>
    match exceptions.rung exc with
    | .accessRefused => refusal (exceptions.str exc)
    | .logWriteError => error (auditMessage (exceptions.str exc))
    | .unreachable => error (unreachableMessage (exceptions.str exc))
    | .otherwise => error (unexpectedMessage clients (exceptions.str exc))
  | err => error (unexpectedMessage clients (exceptions.strLayer err))

/-- `_op`. -/
def op : Except LayerError Nextcloud.Answer → Envelope
  | .ok result => .ok result
  | .error err => .failed (caught exceptions logPath clients err)

end Ladder

/-! ## What the transport raises -/

def ownSecret (layer : Layer) (instanceName : Text) : Text :=
  ((layer.clients.lookup instanceName).bind Client.password).getD []

/-- The exception of the transport as the layer lets it through. -/
def surfaced (layer : Layer) (instanceName : Text) : TransportError → LayerError
  | .webDav status message =>
    .webDav status (scrubValue (ownSecret layer instanceName) message)
  | .other exc => .transport exc

def OfTransport : LayerError → Prop
  | .webDav _ _ | .transport _ => True
  | _ => False

/-- An error of the transport is the answer to some question. -/
def Origin (layer : Layer) (env : Environment) (instanceName : Text) (err : LayerError) : Prop :=
  OfTransport err → ∃ k raised, env.reply k = .error raised ∧ err = surfaced layer instanceName raised

section Origins

variable {platform : Platform} {layer : Layer} {db : Grants.Database} {env : Environment}
variable {instanceName : Text}

/-- Whatever the computation raises, it has that origin. -/
abbrev Raises {α : Type} (layer : Layer) (env : Environment) (instanceName : Text)
    (m : Run α) : Prop :=
  Effect.Triple (fun _ => True) m (fun _ _ => True) fun err _ => Origin layer env instanceName err

theorem raises_raise {α : Type} {err : LayerError} (h : ¬ OfTransport err) :
    Raises layer env instanceName (Effect.raise err : Run α) :=
  .raise fun _ _ hTransport => absurd hTransport h

theorem raises_pure {α : Type} (a : α) : Raises layer env instanceName (pure a : Run α) :=
  .pure fun _ _ => trivial

theorem raises_bind {α β : Type} {m : Run α} {f : α → Run β}
    (hm : Raises layer env instanceName m) (hf : ∀ a, Raises layer env instanceName (f a)) :
    Raises layer env instanceName (m >>= f) := .bind hm hf

theorem raises_auditRecord (s : Audit.AuditState) (entry : Audit.Entry) :
    Raises layer env instanceName (auditRecord platform env s entry) := by
  intro w _
  rcases auditRecord_cases platform env s entry w with ⟨s', hRun, _⟩ | ⟨s', cause, hRun⟩
  · rw [hRun]
    trivial
  · rw [hRun]
    exact fun h => h.elim

theorem raises_auditRefusal (path operation reason : Text) :
    Raises layer env instanceName
      (auditRefusal platform layer env instanceName path operation reason) := by
  refine raises_bind (.get fun _ _ => trivial) fun world => ?_
  split
  · exact raises_pure ()
  · have hRecord (s : Audit.AuditState) (entry : Audit.Entry) :
        Raises layer env instanceName (auditRecord platform env s entry) := raises_auditRecord s entry
    exact .handle (hRecord _ _) fun _ => .pure fun _ _ => trivial

theorem raises_wall (norm mode : Text) :
    Raises layer env instanceName (wall layer db env instanceName norm mode) := by
  intro w _
  obtain ⟨w', hRun, _⟩ := wall_run layer db env instanceName norm mode w
  rw [hRun]
  trivial

theorem raises_authorized (path mode : Text) :
    Raises layer env instanceName (authorized platform layer db env instanceName path mode) := by
  rw [authorized]
  split
  · exact raises_bind (raises_auditRefusal _ _ _) fun _ => raises_raise id
  split
  · exact raises_bind (raises_auditRefusal _ _ _) fun _ => raises_raise id
  · refine raises_bind (raises_wall _ _) fun decision => ?_
    split
    · exact raises_pure _
    · exact raises_bind (raises_auditRefusal _ _ _) fun _ => raises_raise id

theorem raises_call (call : Verb) :
    Raises layer env instanceName (scrubErrors layer instanceName (callVerb env instanceName call)) := by
  intro w _
  rw [scrubErrors]
  cases hReply : env.reply w.asked with
  | ok reply =>
    have hCall : (callVerb env instanceName call).run w = (.ok reply, { w with
        asked := w.asked + 1, trace := w.trace ++ [.verb instanceName call] }) := by
      simp only [callVerb, hReply]
    rw [Effect.handle_ok hCall]
    trivial
  | error raised =>
    cases raised with
    | webDav status message =>
      have hCall : (callVerb env instanceName call).run w = (.error (.webDav status message),
          { w with asked := w.asked + 1, trace := w.trace ++ [.verb instanceName call] }) := by
        simp only [callVerb, hReply]
      rw [Effect.handle_error hCall]
      exact fun _ => ⟨w.asked, _, hReply, rfl⟩
    | other exc =>
      have hCall : (callVerb env instanceName call).run w = (.error (.transport exc),
          { w with asked := w.asked + 1, trace := w.trace ++ [.verb instanceName call] }) := by
        simp only [callVerb, hReply]
      rw [Effect.handle_error hCall]
      exact fun _ => ⟨w.asked, _, hReply, rfl⟩

theorem raises_auditAnd (path operation reason : Text) (call : Verb) (principal : Option Text) :
    Raises layer env instanceName
      (auditAnd platform layer env instanceName path operation reason call principal) := by
  refine raises_bind (.get fun _ _ => trivial) fun world => ?_
  split
  · exact raises_call call
  · exact raises_bind (raises_auditRecord _ _) fun _ => raises_call call

theorem raises_list (path : Text) :
    Raises layer env instanceName (Nextcloud.list platform layer db env instanceName path) := by
  rw [Nextcloud.list]
  split
  · exact raises_raise id
  split
  · exact raises_raise id
  split
  · exact raises_auditAnd _ _ _ _ _
  · refine raises_bind (raises_bind (raises_wall _ _) fun decision => ?_)
      fun _ => raises_auditAnd _ _ _ _ _
    split
    · exact raises_pure _
    · exact raises_raise id

theorem operation_raises (operation : Nextcloud.Operation) :
    Raises layer env instanceName (operation.run platform layer db env instanceName) := by
  have hOne (path mode : Text) {rest : Text → Run Reply}
      (hRest : ∀ norm, Raises layer env instanceName (rest norm)) : Raises layer env instanceName
        (authorized platform layer db env instanceName path mode >>= rest) :=
    raises_bind (raises_authorized path mode) hRest
  have hAnswer (reply : Reply) :
      Raises layer env instanceName (pure (.reply reply) : Run Nextcloud.Answer) := raises_pure _
  cases operation with
  | list path => exact raises_bind (raises_list path) hAnswer
  | read path principal =>
    exact raises_bind (hOne _ _ fun _ => raises_auditAnd _ _ _ _ _) hAnswer
  | write path data principal =>
    exact raises_bind (hOne _ _ fun _ => raises_auditAnd _ _ _ _ _) hAnswer
  | move src dst =>
    exact raises_bind (hOne _ _ fun _ => hOne _ _ fun _ => raises_auditAnd _ _ _ _ _) hAnswer
  | trash path => exact raises_bind (hOne _ _ fun _ => raises_auditAnd _ _ _ _ _) hAnswer
  | mkdir path => exact raises_bind (hOne _ _ fun _ => raises_auditAnd _ _ _ _ _) hAnswer
  | checkout path timeout principal =>
    refine raises_bind (raises_bind (raises_authorized _ _) fun norm =>
      raises_bind (raises_auditAnd _ _ _ _ _) fun result =>
        raises_bind (raises_auditAnd _ _ _ _ _) fun content => ?_) fun _ => raises_pure _
    dsimp only
    split
    · exact raises_pure _
    · exact raises_raise id
  | checkin path data lockToken principal =>
    exact raises_bind (raises_bind (raises_authorized _ _) fun norm =>
      raises_bind (raises_auditAnd _ _ _ _ _) fun _ =>
        raises_bind (raises_auditAnd _ _ _ _ _) fun _ => raises_pure _) fun _ => raises_pure _

end Origins

/-! ## Passwords in the envelope -/

def passwords (clients : List (Text × Client)) : List Text :=
  clients.filterMap fun client => client.2.password

/-- The texts that `_op` puts around a message. -/
def fixedTexts : List Text :=
  ["refused".toList, "reason".toList, "error".toList, "message".toList, "nextcloud error ".toList,
    ": ".toList, "audit failure, operation refused: ".toList, "backend unreachable: ".toList,
    "unexpected transport failure: ".toList, "[redacted]".toList]

/-- A word that can be mistaken for no part of a fixed text. -/
structure Unmistakable (word : Text) : Prop where
  opening : '[' ∉ word
  closing : ']' ∉ word
  space : ' ' ∉ word

/-- What keeps a password out of the envelope of a raised exception. The last clause takes every
password out; of a `WebDavError` the layer takes out that of its own instance; whatever else
is raised is shown as it is, up to the length of a message. -/
def Hidden (exceptions : Exceptions) (layer : Layer) (instanceName : Text)
    (raised : TransportError) (password : Text) : Prop :=
  match raised with
  | .webDav status message =>
    (Unmistakable password ∧ password = ownSecret layer instanceName ∧
      ¬ password <:+: decimal status ++ [':']) ∨
    ¬ password <:+: (webDavMessage status
      (scrubValue (ownSecret layer instanceName) message)).take 300
  | .other exc =>
    match exceptions.rung exc with
    | .accessRefused => ¬ password <:+: exceptions.str exc
    | .logWriteError => ¬ password <:+: (auditMessage (exceptions.str exc)).take 300
    | .unreachable => ¬ password <:+: (unreachableMessage (exceptions.str exc)).take 300
    | .otherwise => Unmistakable password ∨
      ¬ password <:+: (unexpectedMessage layer.clients (exceptions.str exc)).take 300

section Secrets

variable {exceptions : Exceptions} {logPath : Text} {layer : Layer} {instanceName : Text}
variable {clients : List (Text × Client)} {password : Text}

theorem Unmistakable.apart (h : Unmistakable password)
    (hFixed : ∀ text ∈ fixedTexts, ¬ password <:+: text) : Apart "redacted".toList password :=
  ⟨h.opening, h.closing, fun hInfix => hFixed "[redacted]".toList
    (by simp only [fixedTexts, List.mem_cons, true_or, or_true])
    (hInfix.trans ⟨['['], [']'], by decide +kernel⟩)⟩

theorem scrubClients_eq (clients : List (Text × Client)) (message : Text) :
    scrubClients clients message =
      redact "redacted".toList ((passwords clients).filter (· ≠ [])) message := by
  induction clients generalizing message with
  | nil => rfl
  | cons client clients ih =>
    rw [scrubClients, List.foldl_cons, passwords, List.filterMap_cons]
    cases client.2.password with
    | none => exact ih message
    | some secret =>
      dsimp only
      rw [List.filter_cons]
      by_cases hSecret : secret ≠ []
      · rw [if_pos hSecret, if_pos (decide_eq_true hSecret)]
        exact ih _
      · rw [if_neg hSecret, if_neg fun h => hSecret (of_decide_eq_true h)]
        exact ih message

/-- After a text that ends in a blank, the word can only stand in what follows. -/
theorem Unmistakable.infix_after (h : Unmistakable password) {fixed before after : Text}
    (hShape : fixed = before ++ [' ']) (hFixed : ¬ password <:+: fixed)
    (hInfix : password <:+: fixed ++ after) : password <:+: after := by
  rw [hShape, List.append_assoc, List.singleton_append] at hInfix
  rcases (infix_append_cons_iff h.space).mp hInfix with hBefore | hAfter
  · rw [hShape] at hFixed
    exact absurd (hBefore.trans (List.prefix_append before [' ']).isInfix) hFixed
  · exact hAfter

theorem Unmistakable.unexpected (h : Unmistakable password)
    (hFixed : ∀ text ∈ fixedTexts, ¬ password <:+: text) (hNonempty : password ≠ [])
    (hMem : password ∈ passwords clients) (message : Text) :
    ¬ password <:+: unexpectedMessage clients message := by
  intro hInfix
  have hPrefix : ¬ password <:+: "unexpected transport failure: ".toList :=
    hFixed _ (by simp only [fixedTexts, List.mem_cons, true_or, or_true])
  have hShape : "unexpected transport failure: ".toList =
      "unexpected transport failure:".toList ++ [' '] := by decide +kernel
  have hShown : password <:+: (scrubClients clients message).take 200 :=
    h.infix_after hShape hPrefix hInfix
  have hWhole := hShown.trans (List.take_prefix 200 (scrubClients clients message)).isInfix
  rw [scrubClients_eq] at hWhole
  refine (h.apart hFixed).redacted ?_ ?_ message hWhole
  · intro hEmpty
    exact of_decide_eq_true (List.mem_filter.mp hEmpty).2 rfl
  · exact List.mem_filter.mpr ⟨hMem, decide_eq_true hNonempty⟩

theorem append_colon (title status message : Text) :
    title ++ status ++ [':', ' '] ++ message =
      title ++ ((status ++ [':']) ++ ' ' :: message) := by simp

theorem Unmistakable.webDav (h : Unmistakable password)
    (hFixed : ∀ text ∈ fixedTexts, ¬ password <:+: text) (hNonempty : password ≠ [])
    {status : Int} (hStatus : ¬ password <:+: decimal status ++ [':']) (message : Text) :
    ¬ password <:+: webDavMessage status (scrubValue password message) := by
  have hScrubbed : ¬ password <:+: scrubValue password message := by
    rw [scrubValue]
    split
    · exact (h.apart hFixed).replaced hNonempty message
    · rename_i hNot
      rw [contains_iff, not_and] at hNot
      exact hNot hNonempty
  intro hInfix
  have hPrefix : ¬ password <:+: "nextcloud error ".toList :=
    hFixed _ (by simp only [fixedTexts, List.mem_cons, true_or, or_true])
  have hShape : "nextcloud error ".toList = "nextcloud error".toList ++ [' '] := by decide +kernel
  have hColon : ": ".toList = [':', ' '] := by decide +kernel
  have hMessage : webDavMessage status (scrubValue password message) = "nextcloud error ".toList ++
      ((decimal status ++ [':']) ++ ' ' :: scrubValue password message) :=
    (congrArg (fun colon => "nextcloud error ".toList ++ decimal status ++ colon ++
      scrubValue password message) hColon).trans (append_colon _ _ _)
  rw [hMessage] at hInfix
  have hRest := h.infix_after hShape hPrefix hInfix
  exact hScrubbed (((infix_append_cons_iff h.space).mp hRest).resolve_left hStatus)

theorem strings_free_iff (failure : Failure) (hStatus : ¬ password <:+: failure.status)
    (hKey : ¬ password <:+: failure.key) :
    (∀ text ∈ failure.strings, ¬ password <:+: text) ↔ ¬ password <:+: failure.message := by
  rw [Failure.strings, List.forall_mem_cons, List.forall_mem_cons, List.forall_mem_singleton,
    and_iff_right hStatus, and_iff_right hKey]

theorem hidden_iff (hFixed : ∀ text ∈ fixedTexts, ¬ password <:+: text)
    (hNonempty : password ≠ []) (hMem : password ∈ passwords layer.clients)
    (raised : TransportError) :
    (∀ text ∈ (caught exceptions logPath layer.clients
        (surfaced layer instanceName raised)).strings, ¬ password <:+: text) ↔
      Hidden exceptions layer instanceName raised password := by
  have hShort {text : Text} (h : ¬ password <:+: text) : ¬ password <:+: text.take 300 :=
    fun hInfix => h (hInfix.trans (List.take_prefix 300 text).isInfix)
  have hRefusal (reason : Text) :
      (∀ text ∈ (refusal reason).strings, ¬ password <:+: text) ↔ ¬ password <:+: reason := by
    have hStatus := hFixed "refused".toList (by simp only [fixedTexts, List.mem_cons, true_or])
    have hKey := hFixed "reason".toList (by simp only [fixedTexts, List.mem_cons, true_or, or_true])
    exact strings_free_iff (refusal reason) hStatus hKey
  have hError (message : Text) : (∀ text ∈ (error message).strings, ¬ password <:+: text) ↔
      ¬ password <:+: message.take 300 := by
    have hStatus := hFixed "error".toList (by simp only [fixedTexts, List.mem_cons, true_or, or_true])
    have hKey := hFixed "message".toList (by simp only [fixedTexts, List.mem_cons, true_or, or_true])
    exact strings_free_iff (error message) hStatus hKey
  cases raised with
  | webDav status message =>
    rw [surfaced, caught, hError, Hidden, iff_or_self]
    rintro ⟨hUnmistakable, rfl, hStatus⟩
    exact hShort (hUnmistakable.webDav hFixed hNonempty hStatus message)
  | other exc =>
    rw [surfaced, caught, Hidden]
    split
    · exact hRefusal _
    · exact hError _
    · exact hError _
    · rw [hError, iff_or_self]
      exact fun hUnmistakable =>
        hShort (hUnmistakable.unexpected hFixed hNonempty hMem _)

end Secrets

/-- Of every call that an exception of the transport ends, the envelope is free of the
passwords of all clients exactly if each of them is hidden. -/
theorem no_credential_iff (exceptions : Exceptions) (logPath : Text) (platform : Platform)
    (layer : Layer) (db : Grants.Database) (env : Environment) (instanceName : Text)
    (operation : Nextcloud.Operation) (w : World)
    (hPasswords : ∀ password ∈ passwords layer.clients,
      password ≠ [] ∧ ∀ text ∈ fixedTexts, contains password text = false)
    (err : LayerError)
    (hErr : ((operation.run platform layer db env instanceName).run w).1 = .error err)
    (hTransport : OfTransport err) :
    ∃ k raised failure, env.reply k = .error raised ∧ err = surfaced layer instanceName raised ∧
      op exceptions logPath layer.clients
        ((operation.run platform layer db env instanceName).run w).1 = .failed failure ∧
      ((∀ password ∈ passwords layer.clients, ∀ text ∈ failure.strings,
          contains password text = false) ↔
        ∀ password ∈ passwords layer.clients,
          Hidden exceptions layer instanceName raised password) := by
  have hOrigin : Origin layer env instanceName err := by
    have hRaises : Raises layer env instanceName (operation.run platform layer db env instanceName) :=
      operation_raises operation
    have hPost := hRaises w trivial
    rcases hRun : (operation.run platform layer db env instanceName).run w with ⟨result, w'⟩
    rw [hRun] at hPost hErr
    cases hErr
    exact hPost
  obtain ⟨k, raised, hReply, rfl⟩ := hOrigin hTransport
  refine ⟨k, raised, _, hReply, rfl, by rw [hErr]; rfl, ?_⟩
  refine forall₂_congr fun password hMem => ?_
  obtain ⟨hNonempty, hFixed⟩ := hPasswords password hMem
  simp only [contains_eq_false_iff] at hFixed ⊢
  exact hidden_iff hFixed hNonempty hMem raised

/-! ## Two clients -/

def twoClients : Layer :=
  ⟨⟨10, 10, none⟩, [(['p'], ⟨some "hunter2".toList⟩), (['q'], ⟨some "swordfish".toList⟩)], [],
    none⟩

def raising (raised : TransportError) : Environment := { calm with reply := fun _ => .error raised }

def lostConnection : Text := "ConnectionError".toList

def quoting : Exceptions where
  rung := fun exc => if exc = lostConnection then .unreachable else .otherwise
  str := fun _ => "no answer from p:hunter2@cloud".toList
  strLayer := fun _ => []

def readOf (raised : TransportError) : Except LayerError Nextcloud.Answer :=
  (((Operation.read ['a', '/', 'b'] none).run plainPlatform twoClients (oneGrant ⟨['a'], READ⟩)
    (raising raised) ['p']).run opened).1

/-- The read shows a password of one of the clients. -/
def ShowsPassword (raised : TransportError) : Prop :=
  ∃ failure, op quoting [] twoClients.clients (readOf raised) = .failed failure ∧
    ∃ password ∈ passwords twoClients.clients, contains password failure.message = true

theorem twoClients_passwords : ∀ password ∈ passwords twoClients.clients,
    password ≠ [] ∧ ∀ text ∈ fixedTexts, contains password text = false := by decide +kernel

theorem no_credential_iff_unexpected :
    ∃ failure, op quoting [] twoClients.clients (readOf (.other "RuntimeError".toList)) =
        .failed failure ∧
      ∀ password ∈ passwords twoClients.clients, ∀ text ∈ failure.strings,
        contains password text = false := by
  obtain ⟨k, raised, failure, hReply, _, hOp, hIff⟩ := no_credential_iff quoting [] plainPlatform
    twoClients (oneGrant ⟨['a'], READ⟩) (raising (.other "RuntimeError".toList)) ['p']
    (.read ['a', '/', 'b'] none) opened twoClients_passwords
    (.transport "RuntimeError".toList) (by decide +kernel) trivial
  refine ⟨failure, hOp, hIff.mpr ?_⟩
  cases hReply
  have hPlain : ∀ password ∈ passwords twoClients.clients,
      '[' ∉ password ∧ ']' ∉ password ∧ ' ' ∉ password := by decide +kernel
  intro password hMem
  obtain ⟨hOpening, hClosing, hSpace⟩ := hPlain password hMem
  exact Or.inl ⟨hOpening, hClosing, hSpace⟩

/-- A lost connection shows the password of its own instance, a `WebDavError` of the instance
`p` that of `q`. -/
theorem passwords_shown :
    ShowsPassword (.other lostConnection) ∧
      ShowsPassword (WebdavAdapter.webDavError 502 "proxy refused q:swordfish".toList) := by
  constructor
  · exact ⟨⟨"error".toList, "message".toList,
      "backend unreachable: no answer from p:hunter2@cloud".toList⟩, by decide +kernel,
      "hunter2".toList, by decide +kernel, by decide +kernel⟩
  · exact ⟨⟨"error".toList, "message".toList,
      "nextcloud error 502: proxy refused q:swordfish".toList⟩, by decide +kernel,
      "swordfish".toList, by decide +kernel, by decide +kernel⟩

end AccessBroker.Server
