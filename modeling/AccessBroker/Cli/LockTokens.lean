import AccessBroker.Cli.Running
import AccessBroker.Library.Machine

/-! # When a lock token is lost

A checkout leaves the token of its lock in a manifest. What each command does to
the manifests, and from it exactly which runs keep a manifest for every lock that
is still held.
-/

namespace AccessBroker.Cli
open Py
set_option autoImplicit false

/-! ## Locks that are still held -/

structure Manifest.Holds (manifest : Manifest) (path : Text) (token : Json.Value) : Prop where
  path : manifest.remotePath = path
  checkedOut : manifest.checkedOut = some true
  token : manifest.lockToken = some token

def Command.settles (path : Text) : Command → Prop
  | .checkout other _ => other = path
  | .checkin other _ _ => other = path
  | _ => False

/-- A checkout of the path succeeded with this token, and since then neither a checkin nor
another checkout of the path did. -/
def Outstanding (log : List (Command × Outcome)) (path : Text) (token : Json.Value) : Prop :=
  ∃ before timeout digest size after,
    log = before ++
      (.checkout path timeout, ⟨EXIT_OK, some (.checkedOut digest size token)⟩) :: after ∧
    ∀ entry ∈ after, entry.1.settles path → entry.2.code ≠ EXIT_OK

/-- Every lock still held has a manifest with its token. -/
def Host.Held (s : Host) : Prop :=
  ∀ path token, Outstanding s.log path token →
    ∃ entry ∈ s.staging.manifests, entry.value.Holds path token

theorem outstanding_concat {log : List (Command × Outcome)} {cmd : Command} {outcome : Outcome}
    {path : Text} {token : Json.Value} :
    Outstanding (log ++ [(cmd, outcome)]) path token ↔
      (∃ timeout digest size, cmd = .checkout path timeout ∧
        outcome = ⟨EXIT_OK, some (.checkedOut digest size token)⟩) ∨
      Outstanding log path token ∧ (cmd.settles path → outcome.code ≠ EXIT_OK) := by
  constructor
  · rintro ⟨before, timeout, digest, size, after, hLog, hAfter⟩
    rcases List.eq_nil_or_concat after with rfl | ⟨after, entry, rfl⟩
    · obtain ⟨_, hLast⟩ := List.append_inj' hLog rfl
      cases hLast
      exact Or.inl ⟨timeout, digest, size, rfl, rfl⟩
    · rw [List.concat_eq_append, ← List.cons_append, ← List.append_assoc] at hLog
      obtain ⟨hEarlier, hLast⟩ := List.append_inj' hLog rfl
      cases hLast
      refine Or.inr ⟨⟨before, timeout, digest, size, after, hEarlier, ?_⟩, ?_⟩
      · exact fun entry hEntry => hAfter entry (by simp [hEntry])
      · exact hAfter (cmd, outcome) (by simp)
  · rintro (⟨timeout, digest, size, rfl, rfl⟩ | ⟨hOutstanding, hLast⟩)
    · exact ⟨log, timeout, digest, size, [], rfl, by simp⟩
    · obtain ⟨before, timeout, digest, size, after, hLog, hAfter⟩ := hOutstanding
      refine ⟨before, timeout, digest, size, after ++ [(cmd, outcome)], by simp [hLog], ?_⟩
      intro entry hEntry
      rcases List.mem_append.mp hEntry with hEntry | hEntry
      · exact hAfter entry hEntry
      · rw [List.mem_singleton.mp hEntry]
        exact hLast

/-! ## What an invocation does to the manifests -/

/-- A fetch, a checkout and a collection begin by deleting what is a week old. -/
def collects (inv : Invocation) : Command → Bool
  | .fetch _ | .checkout _ _ => inv.connects
  | .checkin _ _ _ => false
  | .gc => true

def Host.kept (s : Host) (inv : Invocation) (cmd : Command) : List (Staged Manifest) :=
  s.staging.manifests.filter fun entry => !(collects inv cmd && entry.expired s.clock)

section Filing

variable (platform : Platform) (s : Host) (inv : Invocation)

def fetched : Option Bytes := (inv.answer 0 >>= readReply platform).toOption

def checkedOut : Option (Bytes × Json.Value) := (inv.answer 0 >>= checkoutReply platform).toOption

/-- The manifest a checkin has picked by the time the broker has accepted it. -/
def checkedIn (manifestSha : Option Text) (fromFile : Option Bytes) : Option (Staged Manifest) := do
  let _ ← fromFile
  let found ← (findManifest s.staging.manifests manifestSha).toOption
  if truth (found.value.lockToken.getD .null) && inv.lockFree then
    match inv.answer 0 >>= checkinStatus with
    | .ok none => some found
    | _ => none
  else none

def filed (cmd : Command) : Option Text :=
  match cmd with
  | .fetch _ =>
    if inv.connects && decide (totalBytes platform (s.staging.collect s.clock) + inv.elsewhere ≤
        GC_MAX_TOTAL_BYTES) then (fetched platform inv).map platform.sha256
    else none
  | .checkout _ _ =>
    if inv.connects then (checkedOut platform inv).map fun reply => platform.sha256 reply.1
    else none
  | .checkin _ manifestSha fromFile =>
    if inv.connects then (checkedIn s inv manifestSha fromFile).map fun found => found.value.sha256
    else none
  | .gc => none

/-- Every lock still held that the command does not settle has a manifest that is neither
deleted for its age nor replaced by the one the command files. -/
def Host.Spares (cmd : Command) : Prop :=
  ∀ path token, Outstanding s.log path token →
    (cmd.settles path → filed platform s inv cmd = none) →
      ∃ entry ∈ s.staging.manifests, entry.value.Holds path token ∧
        (collects inv cmd = true → entry.expired s.clock = false) ∧
        filed platform s inv cmd ≠ some entry.digest

end Filing

/-! ## The manifests after a command -/

section Running

variable {platform : Platform} {instanceName : Text} {inv : Invocation} {s : Host}

/-- What a successful command leaves in its manifest and prints. -/
def Files (digest : Text) (manifest : Manifest) (outcome : Outcome) : Command → Prop
  | .checkout path _ => ∃ size token, outcome = ⟨EXIT_OK, some (.checkedOut digest size token)⟩ ∧
      manifest.Holds path token
  | _ => outcome.code = EXIT_OK ∧ manifest.checkedOut ≠ some true

def Ended (platform : Platform) (s : Host) (inv : Invocation) (cmd : Command) (outcome : Outcome)
    (w : World) : Prop :=
  (filed platform s inv cmd = none ∧ w.staging.manifests = s.kept inv cmd ∧
    (outcome.code = EXIT_OK → cmd = .gc)) ∨
  ∃ digest manifest mtime, filed platform s inv cmd = some digest ∧
    w.staging.manifests = file ⟨digest, mtime, manifest⟩ (s.kept inv cmd) ∧
    Files digest manifest outcome cmd

theorem kept_of_collects {cmd : Command} (h : collects inv cmd = true) :
    (s.staging.collect s.clock).manifests = s.kept inv cmd := by
  simp only [Staging.collect, Host.kept, h, Bool.true_and]

theorem kept_of_not_collects {cmd : Command} (h : collects inv cmd = false) :
    s.staging.manifests = s.kept inv cmd := by
  simp [Host.kept, h]

theorem Ended.failed {cmd : Command} {result : Except Failure Outcome} {w : World}
    (hFiled : filed platform s inv cmd = none) (hKept : w.staging.manifests = s.kept inv cmd)
    (hCode : (exitMain result).code ≠ EXIT_OK) :
    Ended platform s inv cmd (exitMain result) w :=
  Or.inl ⟨hFiled, hKept, fun h => absurd h hCode⟩

theorem asked_ended {α : Type} {cmd : Command} {call : ToolCall}
    {read : Json.Value → Except Failure α} {rest : α → Run Outcome} {w : World}
    (digestOf : α → Text) (hCalls : w.calls = []) (hKept : w.staging.manifests = s.kept inv cmd)
    (hFiled : filed platform s inv cmd = (inv.answer 0 >>= read).toOption.map digestOf)
    (hRest : ∀ a w, ∃ manifest, ((rest a).run w).2.staging.manifests =
        file ⟨digestOf a, w.clock, manifest⟩ w.staging.manifests ∧
      Files (digestOf a) manifest (exitMain ((rest a).run w).1) cmd) :
    let run := (catching (do lift (read (← callTool inv call))) rest).run w
    Ended platform s inv cmd (exitMain run.1) run.2 := by
  dsimp only
  obtain ⟨w', hAsk, hStaging, _⟩ := ask_run inv call read w
  rw [hCalls, List.length_nil] at hAsk
  have hKept' : w'.staging.manifests = s.kept inv cmd :=
    (congrArg Staging.manifests hStaging).trans hKept
  cases hAnswer : inv.answer 0 >>= read with
  | error failure =>
    rw [hAnswer] at hAsk hFiled
    rw [catching_error hAsk]
    refine .failed hFiled hKept' ?_
    rw [exitMain_handled]
    exact handled_ne_ok failure
  | ok a =>
    rw [hAnswer] at hAsk hFiled
    rw [catching_ok hAsk]
    obtain ⟨manifest, hManifests, hFiles⟩ := hRest a w'
    rw [hKept'] at hManifests
    exact Or.inr ⟨digestOf a, manifest, w'.clock, hFiled, hManifests, hFiles⟩

theorem fetch_ended (path : Text) :
    let run := (cmdFetch platform instanceName inv path).run ⟨s.staging, s.clock, []⟩
    Ended platform s inv (.fetch path) (exitMain run.1) run.2 := by
  dsimp only
  rw [cmdFetch]
  rcases connected_run inv _ ⟨s.staging, s.clock, []⟩ with
    ⟨hConnects, hRun⟩ | ⟨hConnects, result, hRun, hLocal⟩
  · rw [hRun, gcStaging, Effect.bind_ok (Effect.modify_run _ _),
      Effect.bind_ok (Effect.get_run _)]
    have hKept : (s.staging.collect s.clock).manifests = s.kept inv (.fetch path) :=
      kept_of_collects hConnects
    split
    · rename_i hSize
      exact .failed (by simp [filed, hSize]) hKept Nat.one_ne_zero
    · rename_i hSize
      refine asked_ended platform.sha256 rfl hKept ?_ fun data w => ⟨_, rfl, rfl, nofun⟩
      simp [filed, hConnects, Nat.not_lt.mp hSize, fetched]
  · rw [hRun]
    exact .failed (by simp [filed, hConnects]) (kept_of_not_collects hConnects)
      (ne_ok_of_local (code_of_local hLocal))

theorem checkout_ended (path : Text) (timeout : Int) :
    let run := (cmdCheckout platform instanceName inv path timeout).run ⟨s.staging, s.clock, []⟩
    Ended platform s inv (.checkout path timeout) (exitMain run.1) run.2 := by
  dsimp only
  rw [cmdCheckout]
  rcases connected_run inv _ ⟨s.staging, s.clock, []⟩ with
    ⟨hConnects, hRun⟩ | ⟨hConnects, result, hRun, hLocal⟩
  · rw [hRun, gcStaging, Effect.bind_ok (Effect.modify_run _ _)]
    have hKept : (s.staging.collect s.clock).manifests = s.kept inv (.checkout path timeout) :=
      kept_of_collects hConnects
    refine asked_ended (fun reply => platform.sha256 reply.1) rfl hKept ?_
      fun reply w => ⟨_, rfl, reply.1.length, reply.2, rfl, rfl, rfl, rfl⟩
    simp [filed, hConnects, checkedOut]
  · rw [hRun]
    exact .failed (by simp [filed, hConnects]) (kept_of_not_collects hConnects)
      (ne_ok_of_local (code_of_local hLocal))

theorem checkinStatus_refuses {answer : Except Failure Json.Value} {code : Nat}
    (h : answer >>= checkinStatus = .ok (some code)) : code ≠ EXIT_OK := by
  cases answer with
  | error failure => cases h
  | ok out =>
    change checkinStatus out = .ok (some code) at h
    rw [checkinStatus] at h
    cases hMembers : members out with
    | error failure =>
      rw [hMembers] at h
      cases h
    | ok dict =>
      rw [hMembers] at h
      change (if _ then _ else _ : Except Failure (Option Nat)) = _ at h
      split at h
      · cases h
        decide
      split at h
      · cases h
        decide
      split at h
      · cases h
        decide
      · cases h

def Answered (inv : Invocation) (staging : Staging) (found : Staged Manifest) (outcome : Outcome)
    (w : World) : Prop :=
  (inv.answer 0 >>= checkinStatus ≠ .ok none ∧ outcome.code ≠ EXIT_OK ∧ w.staging = staging) ∨
  (inv.answer 0 >>= checkinStatus = .ok none ∧ outcome.code = EXIT_OK ∧
    w.staging = { staging with
      manifests := file ⟨found.value.sha256, w.clock,
        { found.value with checkedOut := some false }⟩ staging.manifests })

variable (platform inv) in
theorem checkin_run (path : Text) (manifestSha : Option Text) (fromFile : Option Bytes)
    (staging : Staging) (clock : Int) :
    let run := (cmdCheckin platform inv path manifestSha fromFile).run ⟨staging, clock, []⟩
    ((∀ data found, ¬Attempts inv staging.manifests manifestSha fromFile data found) ∧
      run.2 = ⟨staging, clock, []⟩ ∧ (exitMain run.1).code = EXIT_LOCAL) ∨
    ∃ data found, Attempts inv staging.manifests manifestSha fromFile data found ∧
      run.2.calls = [.checkin path data (found.value.lockToken.getD .null)] ∧
      Answered inv staging found (exitMain run.1) run.2 := by
  dsimp only
  rcases cmdCheckin_run platform inv path manifestSha fromFile staging clock with
    ⟨hNone, hSame, hLocal⟩ | ⟨data, found, w, hAttempts, hStaging, hCalls, hRun⟩
  · exact Or.inl ⟨hNone, hSame, code_of_local hLocal⟩
  · refine Or.inr ⟨data, found, hAttempts, ?_⟩
    rw [hRun]
    match hStatus : inv.answer 0 >>= checkinStatus with
    | .error failure =>
      exact ⟨hCalls, Or.inl ⟨by rw [hStatus]; exact nofun, handled_ne_ok failure, hStaging⟩⟩
    | .ok (some code) =>
      exact ⟨hCalls, Or.inl ⟨by rw [hStatus]; exact nofun, checkinStatus_refuses hStatus, hStaging⟩⟩
    | .ok none => exact ⟨hCalls, Or.inr ⟨hStatus, rfl, congrArg (markedIn found w.clock) hStaging⟩⟩

theorem filed_checkin_of_not_attempts {path : Text} {manifestSha : Option Text}
    {fromFile : Option Bytes}
    (h : ∀ data found, ¬Attempts inv s.staging.manifests manifestSha fromFile data found) :
    filed platform s inv (.checkin path manifestSha fromFile) = none := by
  rw [filed]
  split
  · rename_i hConnects
    rw [Option.map_eq_none_iff, checkedIn]
    cases fromFile with
    | none => rfl
    | some data =>
      cases hFind : findManifest s.staging.manifests manifestSha with
      | error failure => rfl
      | ok found =>
        refine if_neg fun hGoes => ?_
        rw [Bool.and_eq_true] at hGoes
        exact h data found ⟨hConnects, rfl, hFind, hGoes.1, hGoes.2⟩
  · rfl

theorem Attempts.filed_checkin {path : Text} {manifestSha : Option Text}
    {fromFile : Option Bytes} {data : Bytes} {found : Staged Manifest}
    (h : Attempts inv s.staging.manifests manifestSha fromFile data found) :
    filed platform s inv (.checkin path manifestSha fromFile) =
      match inv.answer 0 >>= checkinStatus with
      | .ok none => some found.value.sha256
      | _ => none := by
  obtain ⟨hConnects, rfl, hFind, hToken, hLock⟩ := h
  have hPicked : checkedIn s inv manifestSha (some data) =
      if truth (found.value.lockToken.getD .null) && inv.lockFree then
        match inv.answer 0 >>= checkinStatus with
        | .ok none => some found
        | _ => none
      else none := by
    rw [checkedIn, hFind]
    rfl
  rw [filed, if_pos hConnects, hPicked, hToken, hLock]
  match inv.answer 0 >>= checkinStatus with
  | .error failure => rfl
  | .ok (some code) => rfl
  | .ok none => rfl

theorem checkin_ended (path : Text) (manifestSha : Option Text) (fromFile : Option Bytes) :
    let run := (cmdCheckin platform inv path manifestSha fromFile).run ⟨s.staging, s.clock, []⟩
    Ended platform s inv (.checkin path manifestSha fromFile) (exitMain run.1) run.2 := by
  have hKept : s.staging.manifests = s.kept inv (.checkin path manifestSha fromFile) :=
    kept_of_not_collects rfl
  rcases checkin_run platform inv path manifestSha fromFile s.staging s.clock with
    ⟨hNone, hSame, hCode⟩ | ⟨data, found, hAttempts, _, hAnswered⟩
  · refine .failed (filed_checkin_of_not_attempts hNone) ?_ (ne_ok_of_local hCode)
    rw [hSame]
    exact hKept
  have hFiled : filed platform s inv (.checkin path manifestSha fromFile) = _ :=
    hAttempts.filed_checkin
  rcases hAnswered with ⟨hStatus, hCode, hStaging⟩ | ⟨hStatus, hCode, hStaging⟩
  · refine .failed ?_ (by rw [hStaging]; exact hKept) hCode
    rw [hFiled]
    split
    · rename_i hOk
      exact absurd hOk hStatus
    · rfl
  · rw [hStatus] at hFiled
    have hManifests := congrArg Staging.manifests hStaging
    rw [hKept] at hManifests
    exact Or.inr ⟨_, _, _, hFiled, hManifests, hCode, fun h => (nomatch h)⟩

theorem gc_ended :
    let run := cmdGc.run ⟨s.staging, s.clock, []⟩
    Ended platform s inv .gc (exitMain run.1) run.2 :=
  Or.inl ⟨rfl, kept_of_collects rfl, fun _ => rfl⟩

variable (platform instanceName inv s) in
theorem command_ended (cmd : Command) :
    let run := (command platform instanceName inv cmd).run ⟨s.staging, s.clock, []⟩
    Ended platform s inv cmd (exitMain run.1) run.2 :=
  match cmd with
  | .fetch path => fetch_ended path
  | .checkout path timeout => checkout_ended path timeout
  | .checkin path manifestSha fromFile => checkin_ended path manifestSha fromFile
  | .gc => gc_ended

variable (platform instanceName inv) in
theorem main_run (cmd : Command) (w : World) :
    let run := (command platform instanceName inv cmd).run w
    ∃ result, (main platform instanceName inv cmd).run w = (result, run.2) ∧
      exitOf result = exitMain run.1 := by
  rcases hRun : (command platform instanceName inv cmd).run w with ⟨_ | _, w'⟩
  · exact ⟨_, catching_error hRun, rfl⟩
  · exact ⟨_, catching_ok hRun, rfl⟩

variable (platform instanceName) in
theorem invoke_ended (s : Host) (inv : Invocation) (cmd : Command) :
    ∃ outcome w, s.invoke platform instanceName inv cmd =
        ⟨w.staging, w.clock, s.log ++ [(cmd, outcome)]⟩ ∧ Ended platform s inv cmd outcome w := by
  obtain ⟨result, hRun, hExit⟩ := main_run platform instanceName inv cmd ⟨s.staging, s.clock, []⟩
  refine ⟨_, _, ?_, command_ended platform instanceName inv s cmd⟩
  rw [Host.invoke, hRun, ← hExit]

/-! ## Which invocations lose a token -/

theorem mem_kept {cmd : Command} {entry : Staged Manifest} :
    entry ∈ s.kept inv cmd ↔ entry ∈ s.staging.manifests ∧
      (collects inv cmd = true → entry.expired s.clock = false) := by
  rw [Host.kept, List.mem_filter]
  refine and_congr_right fun _ => ?_
  cases collects inv cmd <;> simp

theorem Files.code {digest : Text} {manifest : Manifest} {outcome : Outcome} {cmd : Command}
    (h : Files digest manifest outcome cmd) : outcome.code = EXIT_OK := by
  cases cmd with
  | checkout path timeout =>
    obtain ⟨size, token, rfl, _⟩ := h
    rfl
  | fetch path => exact h.1
  | checkin path manifestSha fromFile => exact h.1
  | gc => exact h.1

/-- A manifest that is filed holds no lock but that of its own checkout. -/
theorem Files.settles {digest : Text} {manifest : Manifest} {outcome : Outcome} {cmd : Command}
    (h : Files digest manifest outcome cmd) {path : Text} {token : Json.Value}
    (hHolds : manifest.Holds path token) : cmd.settles path := by
  cases cmd with
  | checkout other timeout =>
    obtain ⟨size, token', _, hOwn⟩ := h
    exact hOwn.path.symm.trans hHolds.path
  | fetch other => exact absurd hHolds.checkedOut h.2
  | checkin other manifestSha fromFile => exact absurd hHolds.checkedOut h.2
  | gc => exact absurd hHolds.checkedOut h.2

theorem held_of_nothing_filed {cmd : Command} {outcome : Outcome} {w : World}
    (hFiled : filed platform s inv cmd = none) (hKept : w.staging.manifests = s.kept inv cmd)
    (hCode : outcome.code = EXIT_OK → cmd = .gc) :
    Host.Held ⟨w.staging, w.clock, s.log ++ [(cmd, outcome)]⟩ ↔ s.Spares platform inv cmd := by
  have hUnsettled {path : Text} (hSettles : cmd.settles path) : outcome.code ≠ EXIT_OK := by
    intro hOk
    rw [hCode hOk] at hSettles
    exact hSettles
  constructor
  · intro hHeld path token hOutstanding _
    obtain ⟨entry, hEntry, hHolds⟩ :=
      hHeld path token (outstanding_concat.mpr (Or.inr ⟨hOutstanding, hUnsettled⟩))
    obtain ⟨hMem, hFresh⟩ := mem_kept.mp (hKept ▸ hEntry)
    exact ⟨entry, hMem, hHolds, hFresh, by simp [hFiled]⟩
  · intro hSpares path token hOutstanding
    rcases outstanding_concat.mp hOutstanding with ⟨timeout, digest, size, rfl, rfl⟩ | ⟨hBefore, _⟩
    · exact absurd (hCode rfl) (by simp)
    · obtain ⟨entry, hMem, hHolds, hFresh, _⟩ := hSpares path token hBefore fun _ => hFiled
      exact ⟨entry, hKept ▸ mem_kept.mpr ⟨hMem, hFresh⟩, hHolds⟩

theorem held_of_filed {cmd : Command} {outcome : Outcome} {w : World} {digest : Text}
    {manifest : Manifest} {mtime : Int} (hFiled : filed platform s inv cmd = some digest)
    (hKept : w.staging.manifests = file ⟨digest, mtime, manifest⟩ (s.kept inv cmd))
    (hFiles : Files digest manifest outcome cmd) :
    Host.Held ⟨w.staging, w.clock, s.log ++ [(cmd, outcome)]⟩ ↔ s.Spares platform inv cmd := by
  constructor
  · intro hHeld path token hOutstanding hSettles
    have hOther : ¬cmd.settles path := fun h => by
      rw [hSettles h] at hFiled
      cases hFiled
    obtain ⟨entry, hEntry, hHolds⟩ := hHeld path token
      (outstanding_concat.mpr (Or.inr ⟨hOutstanding, fun h => absurd h hOther⟩))
    rw [show w.staging.manifests = _ from hKept, file] at hEntry
    rcases List.mem_cons.mp hEntry with rfl | hEntry
    · exact absurd (hFiles.settles hHolds) hOther
    · obtain ⟨hMem, hDigest⟩ := List.mem_filter.mp hEntry
      obtain ⟨hMem, hFresh⟩ := mem_kept.mp hMem
      refine ⟨entry, hMem, hHolds, hFresh, ?_⟩
      rw [hFiled]
      exact fun h => of_decide_eq_true hDigest (Option.some.inj h).symm
  · intro hSpares path token hOutstanding
    rw [show w.staging.manifests = _ from hKept, file]
    rcases outstanding_concat.mp hOutstanding with
      ⟨timeout, digest', size, rfl, rfl⟩ | ⟨hBefore, hUnsettled⟩
    · obtain ⟨size', token', hOutcome, hHolds⟩ := hFiles
      cases hOutcome
      exact ⟨_, List.mem_cons_self, hHolds⟩
    · obtain ⟨entry, hMem, hHolds, hFresh, hDigest⟩ := hSpares path token hBefore
        fun hSettles => absurd hFiles.code (hUnsettled hSettles)
      refine ⟨entry, List.mem_cons_of_mem _ (List.mem_filter.mpr ⟨mem_kept.mpr ⟨hMem, hFresh⟩, ?_⟩),
        hHolds⟩
      rw [hFiled] at hDigest
      exact decide_eq_true fun h => hDigest (congrArg some h.symm)

theorem held_invoke_iff (s : Host) (inv : Invocation) (cmd : Command) :
    (s.invoke platform instanceName inv cmd).Held ↔ s.Spares platform inv cmd := by
  obtain ⟨outcome, w, hInvoke, hEnded⟩ :=
    invoke_ended platform instanceName s inv cmd
  rw [hInvoke]
  rcases hEnded with ⟨hFiled, hKept, hCode⟩ | ⟨digest, manifest, mtime, hFiled, hKept, hFiles⟩
  · exact held_of_nothing_filed hFiled hKept hCode
  · exact held_of_filed hFiled hKept hFiles

end Running

def Host.Keeps (platform : Platform) (s : Host) : Act → Prop
  | .invoke inv cmd => s.Spares platform inv cmd
  | .wait _ | .edit _ _ => True

/-- The tokens of the locks still held are in the staging directory all along a session exactly
if every command spares them, whatever was staged before the session. -/
theorem tokens_kept_iff (platform : Platform) (instanceName : Text) (staging : Staging)
    (clock : Int) (acts : List Act) :
    Machine.EveryState (Host.step platform instanceName) Host.Held ⟨staging, clock, []⟩ acts ↔
      Machine.EveryStep (Host.step platform instanceName) (Host.Keeps platform)
        ⟨staging, clock, []⟩ acts := by
  refine Machine.everyState_iff_everyStep (I := fun _ => True) ?_ (fun _ _ _ => trivial) ?_
  · intro s act _ hHeld
    cases act with
    | wait elapsed => exact iff_of_true hHeld trivial
    | edit digest data => exact iff_of_true hHeld trivial
    | invoke inv cmd => exact held_invoke_iff s inv cmd
  · rintro path token ⟨before, timeout, digest, size, after, hLog, _⟩
    exact absurd hLog (by simp)

/-! ## A fetch of what is checked out -/

/-- Digests that tell contents apart by the contents themselves. -/
def plainPlatform : Platform where
  sha256 := fun data => data.map fun b => Char.ofNat b.toNat
  decode := fun content => some (content.map UInt8.ofNat)
  shown := fun _ => []
  repr := fun _ => []
  manifestSize := fun _ => 0

def plainInvocation : Invocation where
  token := some "t".toList
  url := some "u".toList
  answer := fun _ => .ok (.obj [(Json.codes "result".toList,
      .obj [(Json.codes "content_b64".toList, .ofText "x".toList),
        (Json.codes "lock_token".toList, .ofText "l".toList)]),
    (Json.codes "status".toList, .ofText "ok".toList)])
  took := fun _ => 0
  elsewhere := 0
  lockFree := true

def fetchedAgain : Host :=
  Machine.run (Host.step plainPlatform "nc".toList) ⟨⟨[], []⟩, 0, []⟩
    [.invoke plainInvocation (.checkout "a".toList 0), .invoke plainInvocation (.fetch "a".toList)]

theorem token_lost : ¬fetchedAgain.Held := by
  have hLog : fetchedAgain.log = [(.checkout "a".toList 0,
      ⟨EXIT_OK, some (.checkedOut "x".toList 1 (.ofText "l".toList))⟩),
    (.fetch "a".toList, ⟨EXIT_OK, some (.staged "x".toList 1)⟩)] := by rfl
  have hManifests : ∀ entry ∈ fetchedAgain.staging.manifests, entry.value.checkedOut ≠ some true := by
    decide +kernel
  intro hHeld
  obtain ⟨entry, hEntry, hHolds⟩ := hHeld "a".toList (.ofText "l".toList)
    ⟨[], 0, "x".toList, 1, _, hLog, by simp [Command.settles]⟩
  exact hManifests entry hEntry hHolds.checkedOut

end AccessBroker.Cli
