import AccessBroker.SupportBundle
import AccessBroker.Library.Redaction

/-! # Secrets in the bundle

The check at the end of a run answers for the secrets that were collected, as they stand. A secret
of the configuration is kept out of the file when one of these is a part of it, in the form the
file would have it in, and otherwise a row of the `grants` table can bring it in.
-/

namespace AccessBroker.SupportBundle
open Py Config
set_option autoImplicit false

/-! ## Scrubbing -/

theorem scrub_eq_redact (text : Text) (secrets : List Text) :
    scrub text secrets = redact "redacted".toList secrets text :=
  (redact_eq_contained "redacted".toList secrets text).symm

theorem collected_ne_nil (raw : Raw) : [] ∉ collectConfigSecrets raw := by
  simp [collectConfigSecrets]

/-! ## The sections -/

variable {platform : Platform} {raw : Raw} {process : List (Text × Text)} {config : Loaded}
  {level : Text}

/-- The sections of a configuration that is loaded, with a level that is one. -/
theorem configSections_ok (hLoad : loadConfig platform.isWord raw process = .ok config)
    (hLevel : loggingLevel platform.lower platform.reprSetting raw.logging = .ok level)
    (host : Host) (tail : Int) (secrets : List Text) :
    configSections platform raw process host tail secrets = .ok ([
      member "config_validation".toList (.ofText "ok".toList),
      member "config_sanitized".toList (configSanitized platform config level)] ++
      auditSections platform secrets config.auditPath.shown tail host.auditFiles ++
      [member "grants".toList (.arr (grants secrets host))]) := by
  rw [configSections, hLoad]
  dsimp only [bind, Except.bind]
  rw [hLevel]
  rfl

theorem buildBundle_members (hLoad : loadConfig platform.isWord raw process = .ok config)
    (hLevel : loggingLevel platform.lower platform.reprSetting raw.logging = .ok level)
    (host : Host) (tail : Int) :
    ∃ members, buildBundle platform raw process host tail = .ok (.obj members) ∧
      member "config_sanitized".toList (configSanitized platform config level) ∈ members ∧
      member "grants".toList (.arr (grants (collectConfigSecrets raw) host)) ∈ members := by
  have hSections := configSections_ok hLoad hLevel host tail (collectConfigSecrets raw)
  rw [buildBundle, hSections]
  refine ⟨_, rfl, ?_, ?_⟩
  · simp
  · simp

/-- The sections of a configuration that is loaded, with a level that is none. -/
theorem configSections_unlevelled (hLoad : loadConfig platform.isWord raw process = .ok config)
    (hLevel : ∀ level, loggingLevel platform.lower platform.reprSetting raw.logging ≠ .ok level)
    (host : Host) (tail : Int) (secrets : List Text) :
    ∃ cause : ConfigFailure, configSections platform raw process host tail secrets = .ok [
      member "config_validation".toList
        (.ofText ("FAILED: ".toList ++ scrub (cause.message platform.repr) secrets)),
      member "config_sanitized".toList .null] := by
  rw [configSections, hLoad]
  dsimp only [bind, Except.bind]
  rw [loggingLevel] at hLevel ⊢
  split at hLevel
  · exact absurd rfl (hLevel _)
  · rename_i hNone
    rw [if_neg hNone]
    exact ⟨_, rfl⟩

/-- Without a level, the bundle still has the container logs. -/
theorem buildBundle_unlevelled (hLoad : loadConfig platform.isWord raw process = .ok config)
    (hLevel : ∀ level, loggingLevel platform.lower platform.reprSetting raw.logging ≠ .ok level)
    (host : Host) (tail : Int) :
    ∃ members, buildBundle platform raw process host tail = .ok (.obj members) ∧
      member "container_logs".toList (containerLogs (collectConfigSecrets raw) host.logs) ∈
        members := by
  obtain ⟨cause, hSections⟩ :=
    configSections_unlevelled hLoad hLevel host tail (collectConfigSecrets raw)
  rw [buildBundle, hSections]
  refine ⟨_, rfl, ?_⟩
  simp

theorem infix_member {key : Text} {value : Json.Value} {members : List (Json.Str × Json.Value)}
    (h : member key value ∈ members) (level : Nat) :
    Json.dumpIndented (level + 1) value <:+: Json.dumpIndented level (.obj members) :=
  Json.infix_members h level

/-- What a text holds is in whatever is printed with it, as it is escaped. -/
theorem escaped_infix (level : Nat) (text : Text) :
    Json.escaped (Json.codes text) <:+: Json.dumpIndented level (.ofText text) := by
  rw [Json.Value.ofText, Json.dumpIndented_str]
  exact Json.infix_quote _

/-- The token that is left out is in the bundle as a mark. -/
theorem mark_infix_bundle {members : List (Json.Str × Json.Value)}
    (h : member "config_sanitized".toList (configSanitized platform config level) ∈ members) :
    redacted <:+: Json.dumpIndented 0 (.obj members) := by
  have hMark : Json.escaped (Json.codes redacted) = redacted := by decide
  have hAgent : member "agent".toList (.obj [member "token".toList (.ofText redacted)]) ∈
      configMembers platform config level := by simp [configMembers]
  rw [← hMark]
  calc Json.escaped (Json.codes redacted)
      <:+: Json.dumpIndented 3 (.ofText redacted) := escaped_infix 3 redacted
    _ <:+: Json.dumpIndented 2 (.obj [member "token".toList (.ofText redacted)]) :=
      infix_member List.mem_cons_self 2
    _ <:+: Json.dumpIndented 1 (configSanitized platform config level) := infix_member hAgent 1
    _ <:+: Json.dumpIndented 0 (.obj members) := infix_member h 0

/-- What a row has in its reason is in the bundle, as it is escaped. -/
theorem reason_infix_bundle {members : List (Json.Str × Json.Value)} {secrets : List Text}
    {host : Host} (h : member "grants".toList (.arr (grants secrets host)) ∈ members) {row : GrantRow}
    (hRow : row ∈ host.grantRows) {reason : Text} (hReason : row.reason = .ofText reason) :
    Json.escaped (Json.codes reason) <:+: Json.dumpIndented 0 (.obj members) := by
  have hItem : row.value ∈ grants secrets host :=
    List.mem_append_left _ (List.mem_map_of_mem hRow)
  have hMember : member "reason".toList (.ofText reason) ∈ row.members := by
    simp [GrantRow.members, hReason]
  calc Json.escaped (Json.codes reason)
      <:+: Json.dumpIndented 3 (.ofText reason) := escaped_infix 3 reason
    _ <:+: Json.dumpIndented 2 row.value := infix_member hMember 2
    _ <:+: Json.dumpIndented 1 (.arr (grants secrets host)) := Json.infix_items hItem 1
    _ <:+: Json.dumpIndented 0 (.obj members) := infix_member h 0

/-- What is said of logs that cannot be had is in the bundle, scrubbed and as it is escaped. -/
theorem unavailable_infix_bundle {members : List (Json.Str × Json.Value)} {secrets : List Text}
    {exc : Text}
    (h : member "container_logs".toList (containerLogs secrets (.error exc)) ∈ members) :
    Json.escaped (Json.codes (scrub exc secrets)) <:+: Json.dumpIndented 0 (.obj members) := by
  calc Json.escaped (Json.codes (scrub exc secrets))
      <:+: Json.dumpIndented 2 (.ofText (scrub exc secrets)) := escaped_infix 2 _
    _ <:+: Json.dumpIndented 1 (containerLogs secrets (.error exc)) :=
      infix_member List.mem_cons_self 1
    _ <:+: Json.dumpIndented 0 (.obj members) := infix_member h 0

/-! ## The verdict -/

theorem main_ok {host : Host} {tail : Int} {bundle : Json.Value}
    (h : buildBundle platform raw process host tail = .ok bundle) :
    main platform raw process host tail =
      .ok ⟨scrub (Json.dumpIndented 0 bundle) (collectConfigSecrets raw),
        (collectConfigSecrets raw).filter fun s =>
          contains s (scrub (Json.dumpIndented 0 bundle) (collectConfigSecrets raw))⟩ := by
  rw [main, h]
  rfl

theorem main_leaked {host : Host} {tail : Int} {written : Written}
    (h : main platform raw process host tail = .ok written) :
    written.leaked = (collectConfigSecrets raw).filter fun s => contains s written.file := by
  cases hBundle : buildBundle platform raw process host tail with
  | error cause =>
    rw [main, hBundle] at h
    cases h
  | ok bundle =>
    rw [main_ok hBundle] at h
    cases h
    rfl

/-- The verdict says that no secret which was collected is in the file. -/
theorem safe_iff {host : Host} {tail : Int} {written : Written}
    (h : main platform raw process host tail = .ok written) :
    written.safe = true ↔ ∀ s ∈ collectConfigSecrets raw, ¬ s <:+: written.file := by
  rw [Written.safe, main_leaked h, List.isEmpty_iff, List.filter_eq_nil_iff]
  simp only [contains_iff]

/-- A part of the text was collected. -/
def Covered (raw : Raw) (text : Text) : Prop := ∃ s ∈ collectConfigSecrets raw, s <:+: text

theorem Covered.absent {host : Host} {tail : Int} {written : Written} {text : Text}
    (hCovered : Covered raw text) (h : main platform raw process host tail = .ok written)
    (hSafe : written.safe = true) : ¬ text <:+: written.file := by
  obtain ⟨s, hMem, hInfix⟩ := hCovered
  intro hText
  exact (safe_iff h).mp hSafe s hMem (hInfix.trans hText)

/-- A part of the mark was collected: every bundle has a mark, so none is safe. -/
theorem marked_not_safe (hLoad : loadConfig platform.isWord raw process = .ok config)
    (hLevel : loggingLevel platform.lower platform.reprSetting raw.logging = .ok level)
    (hMarked : Covered raw redacted) {host : Host} {tail : Int} {written : Written}
    (h : main platform raw process host tail = .ok written) : written.safe = false := by
  obtain ⟨members, hBundle, hSanitized, _⟩ := buildBundle_members hLoad hLevel host tail
  have hFile : redacted <:+: written.file := by
    rw [main_ok hBundle] at h
    cases h
    rw [scrub_eq_redact]
    have hMark : redacted = '[' :: "redacted".toList ++ [']'] := rfl
    rw [hMark]
    exact mark_infix_redact (collected_ne_nil raw) (mark_infix_bundle hSanitized)
  rw [Bool.eq_false_iff]
  intro hSafe
  exact hMarked.absent h hSafe hFile

/-- No secret of the configuration is in a file that is said to be safe to share. -/
def Clean (platform : Platform) (raw : Raw) (process : List (Text × Text)) (config : Loaded) : Prop :=
  ∀ host tail written, main platform raw process host tail = .ok written → written.safe = true →
    ∀ s ∈ config.secrets, ¬ s <:+: written.file ∧ ¬ Json.escaped (Json.codes s) <:+: written.file

/-- A configuration whose bundle is either never safe, or has every secret checked in both forms. -/
def Checked (platform : Platform) (raw : Raw) (config : Loaded) : Prop :=
  (∀ s ∈ config.secrets, Covered raw s ∧ Covered raw (Json.escaped (Json.codes s))) ∨
    Covered raw redacted ∧
      ∃ level, loggingLevel platform.lower platform.reprSetting raw.logging = .ok level

theorem Checked.clean (hLoad : loadConfig platform.isWord raw process = .ok config)
    (h : Checked platform raw config) : Clean platform raw process config := by
  intro host tail written hMain hSafe s hSecret
  rcases h with hCovered | ⟨hMarked, level, hLevel⟩
  · obtain ⟨hVerbatim, hEscaped⟩ := hCovered s hSecret
    exact ⟨hVerbatim.absent hMain hSafe, hEscaped.absent hMain hSafe⟩
  · rw [marked_not_safe hLoad hLevel hMarked hMain] at hSafe
    cases hSafe

/-! ## A row that brings a secret in -/

def rowWith (reason : Text) : GrantRow where
  id := .int 1
  instanceName := .null
  reason := .ofText reason
  items := .null
  createdAt := .null
  decidedAt := .null
  expiresAt := .null
  state := .null
  stateSource := .null

/-- A host with that row and nothing else. -/
def hostWith (reason : Text) : Host where
  generatedAt := []
  python := []
  system := []
  auditFiles := .error []
  grantRows := [rowWith reason]
  grantsError := none
  logs := .error []

def bracketed (s : Text) : Text := '[' :: (s ++ [']'])

theorem escaped_bracketed (s : Text) :
    Json.escaped (Json.codes (bracketed s)) = bracketed (Json.escaped (Json.codes s)) := by
  have hOpen : Json.escapeCode '['.toNat = ['['] := by decide
  have hClose : Json.escapeCode ']'.toNat = [']'] := by decide
  simp only [bracketed, Json.escaped, Json.codes, List.map_cons, List.map_append, List.map_nil,
    List.flatMap_cons, List.flatMap_append, List.flatMap_nil, hOpen, hClose, List.append_nil,
    List.singleton_append]

/-- Secrets without brackets cannot take a bracketed text apart. -/
theorem scrub_around_bracketed {secrets : List Text} (hEmpty : [] ∉ secrets)
    (hBrackets : ∀ s ∈ secrets, '[' ∉ s ∧ ']' ∉ s) {inner : Text}
    (hInner : ∀ s ∈ secrets, ¬ s <:+: inner) (before after : Text) :
    scrub (before ++ bracketed inner ++ after) secrets =
      scrub before secrets ++ bracketed inner ++ scrub after secrets := by
  have hShape : before ++ bracketed inner ++ after =
      before ++ '[' :: (inner ++ ']' :: after) := by simp [bracketed]
  simp only [scrub_eq_redact]
  rw [hShape, redact_append_cons _ hEmpty fun s hs => (hBrackets s hs).1,
    redact_append_cons _ hEmpty fun s hs => (hBrackets s hs).2, redact_eq_self _ hInner]
  simp [bracketed]

theorem bracketed_infix_scrub {secrets : List Text} (hEmpty : [] ∉ secrets)
    (hBrackets : ∀ s ∈ secrets, '[' ∉ s ∧ ']' ∉ s) {inner text : Text}
    (hInner : ∀ s ∈ secrets, ¬ s <:+: inner) (h : bracketed inner <:+: text) :
    bracketed inner <:+: scrub text secrets := by
  obtain ⟨before, after, rfl⟩ := h
  rw [scrub_around_bracketed hEmpty hBrackets hInner]
  exact ⟨_, _, rfl⟩

/-- A secret that is in the bundle between brackets, and that is not checked as it is escaped, is in
a file that is said to be safe. -/
theorem leaks_of_infix {host : Host} {tail : Int} {bundle : Json.Value}
    (hBundle : buildBundle platform raw process host tail = .ok bundle)
    (hBrackets : ∀ s ∈ collectConfigSecrets raw, '[' ∉ s ∧ ']' ∉ s)
    (hUnmarked : ¬ Covered raw redacted) {s : Text}
    (hUncovered : ¬ Covered raw (Json.escaped (Json.codes s)))
    (hIn : Json.escaped (Json.codes (bracketed s)) <:+: Json.dumpIndented 0 bundle) :
    ∃ written, main platform raw process host tail = .ok written ∧
      written.safe = true ∧ Json.escaped (Json.codes s) <:+: written.file := by
  have hMain := main_ok hBundle
  refine ⟨_, hMain, (safe_iff hMain).mpr fun secret hMem => ?_, ?_⟩
  · have hApart : Apart "redacted".toList secret := by
      refine ⟨(hBrackets secret hMem).1, (hBrackets secret hMem).2, fun hInfix => ?_⟩
      exact hUnmarked ⟨secret, hMem, hInfix.trans ⟨['['], [']'], rfl⟩⟩
    dsimp only
    rw [scrub_eq_redact]
    exact hApart.redacted (collected_ne_nil raw) hMem _
  · rw [escaped_bracketed] at hIn
    have hInner : Json.escaped (Json.codes s) <:+: bracketed (Json.escaped (Json.codes s)) :=
      ⟨['['], [']'], rfl⟩
    exact hInner.trans (bracketed_infix_scrub (collected_ne_nil raw) hBrackets
      (fun secret hMem hInfix => hUncovered ⟨secret, hMem, hInfix⟩) hIn)

/-- A secret that is not checked in its escaped form can be in a file that is said to be safe. -/
theorem leaks_of_unchecked (hLoad : loadConfig platform.isWord raw process = .ok config)
    (hLevel : loggingLevel platform.lower platform.reprSetting raw.logging = .ok level)
    (hBrackets : ∀ s ∈ collectConfigSecrets raw, '[' ∉ s ∧ ']' ∉ s)
    (hUnmarked : ¬ Covered raw redacted) {s : Text}
    (hUncovered : ¬ Covered raw (Json.escaped (Json.codes s))) :
    ∃ host tail written, main platform raw process host tail = .ok written ∧
      written.safe = true ∧ Json.escaped (Json.codes s) <:+: written.file := by
  obtain ⟨members, hBundle, _, hGrants⟩ :=
    buildBundle_members hLoad hLevel (hostWith (bracketed s)) 40
  have hRow : rowWith (bracketed s) ∈ (hostWith (bracketed s)).grantRows := List.mem_cons_self
  exact ⟨_, _, leaks_of_infix hBundle hBrackets hUnmarked hUncovered
    (reason_infix_bundle hGrants hRow rfl)⟩

/-- Where no level is, a secret that is checked in neither form can come in with what is said of
the logs. -/
theorem leaks_of_unlevelled (hLoad : loadConfig platform.isWord raw process = .ok config)
    (hLevel : ∀ level, loggingLevel platform.lower platform.reprSetting raw.logging ≠ .ok level)
    (hBrackets : ∀ s ∈ collectConfigSecrets raw, '[' ∉ s ∧ ']' ∉ s)
    (hUnmarked : ¬ Covered raw redacted) {s : Text} (hVerbatim : ¬ Covered raw s)
    (hUncovered : ¬ Covered raw (Json.escaped (Json.codes s))) :
    ∃ host tail written, main platform raw process host tail = .ok written ∧
      written.safe = true ∧ Json.escaped (Json.codes s) <:+: written.file := by
  obtain ⟨members, hBundle, hLogs⟩ := buildBundle_unlevelled hLoad hLevel
    { hostWith [] with grantRows := [], logs := .error (bracketed s) } 40
  have hScrubbed : scrub (bracketed s) (collectConfigSecrets raw) = bracketed s := by
    have hNothing : scrub [] (collectConfigSecrets raw) = [] := by
      rw [scrub_eq_redact]
      refine redact_eq_self _ fun secret hMem hInfix => ?_
      exact collected_ne_nil raw (List.infix_nil.mp hInfix ▸ hMem)
    have hAround := scrub_around_bracketed (collected_ne_nil raw) hBrackets
      (fun secret hMem hInfix => hVerbatim ⟨secret, hMem, hInfix⟩) [] []
    rwa [hNothing, List.nil_append, List.append_nil] at hAround
  have hIn := unavailable_infix_bundle hLogs
  rw [hScrubbed] at hIn
  exact ⟨_, _, leaks_of_infix hBundle hBrackets hUnmarked hUncovered hIn⟩

/-- The secrets of a loaded configuration stay out of every safe bundle where each of them is
checked. Where no bracket is in what is collected, they stay out only if each is checked as it is
escaped, or no bundle is safe; without a logging level, only if each is checked in one of the two
forms, or a part of the mark is collected. -/
theorem bundle_clean (hLoad : loadConfig platform.isWord raw process = .ok config) :
    (Checked platform raw config → Clean platform raw process config) ∧
      ((∀ s ∈ collectConfigSecrets raw, '[' ∉ s ∧ ']' ∉ s) →
        Clean platform raw process config →
        ((∃ level, loggingLevel platform.lower platform.reprSetting raw.logging = .ok level) →
          (∀ s ∈ config.secrets, Covered raw (Json.escaped (Json.codes s))) ∨
            Covered raw redacted) ∧
        ((∀ level, loggingLevel platform.lower platform.reprSetting raw.logging ≠ .ok level) →
          (∀ s ∈ config.secrets, Covered raw s ∨ Covered raw (Json.escaped (Json.codes s))) ∨
            Covered raw redacted)) := by
  refine ⟨Checked.clean hLoad, fun hBrackets hClean => ⟨?_, fun hLevel => ?_⟩⟩
  · rintro ⟨level, hLevel⟩
    refine or_iff_not_imp_right.mpr fun hUnmarked s hSecret => ?_
    by_contra hUncovered
    obtain ⟨host, tail, written, hMain, hSafe, hFile⟩ :=
      leaks_of_unchecked hLoad hLevel hBrackets hUnmarked hUncovered
    exact (hClean host tail written hMain hSafe s hSecret).2 hFile
  · refine or_iff_not_imp_right.mpr fun hUnmarked s hSecret => ?_
    by_contra hUnchecked
    obtain ⟨hVerbatim, hUncovered⟩ := not_or.mp hUnchecked
    obtain ⟨host, tail, written, hMain, hSafe, hFile⟩ :=
      leaks_of_unlevelled hLoad hLevel hBrackets hUnmarked hVerbatim hUncovered
    exact (hClean host tail written hMain hSafe s hSecret).2 hFile

/-! ## Tokens that are not collected -/

def plainPlatform : Platform where
  isWord := Char.isAlphanum
  lower := id
  repr := id
  reprSetting := Setting.shown
  sha256 := id
  floats := .verbatim
  str := fun _ => []
  loads := fun _ => .error []
  other := fun truth _ => .bool truth
  number := fun
    | .finite value => .int value.floor
    | _ => .null
  attributeError := []

/-- The bot's token comes from the environment, the other secrets are in the file. -/
def plainRaw : Raw where
  matrix := [("homeserver".toList, .text "h".toList), ("bot_user".toList, .text "@b:h".toList),
    ("room_id".toList, .text "!r:h".toList), ("approver".toList, .text "@a:h".toList)]
  agent := [("token".toList, .text (List.replicate 32 'A')),
    ("transfer_token".toList, .text (List.replicate 32 'T'))]
  server := ⟨.int 8080, .missing⟩
  lifecycle := []
  logging := []
  audit := [("path".toList, .text "audit.log".toList)]
  instances := [("nc".toList, [("url".toList, .text "u".toList), ("username".toList, .text "n".toList),
    ("password".toList, .text "app-password".toList)])]

def plainProcess : List (Text × Text) := [("BROKER_MATRIX_TOKEN".toList, "bot-secret".toList)]

theorem plainRaw_loads : ∃ config, loadConfig plainPlatform.isWord plainRaw plainProcess = .ok config ∧
    config.agent.transferToken = List.replicate 32 'T' ∧
    config.matrix.botToken = "bot-secret".toList := by
  have hSecrets : (loadConfig plainPlatform.isWord plainRaw plainProcess).toOption.map
      (fun config => (config.agent.transferToken, config.matrix.botToken)) =
      some (List.replicate 32 'T', "bot-secret".toList) := by decide +kernel
  cases hLoad : loadConfig plainPlatform.isWord plainRaw plainProcess with
  | error cause =>
    rw [hLoad] at hSecrets
    cases hSecrets
  | ok config =>
    rw [hLoad] at hSecrets
    have hValues := Option.some.inj hSecrets
    rw [Prod.mk.injEq] at hValues
    exact ⟨config, rfl, hValues.1, hValues.2⟩

/-- All secrets are in the file, and the transfer token goes on from the agent's. -/
def directRaw : Raw :=
  { plainRaw with
    matrix := plainRaw.matrix ++ [("bot_token".toList, .text "bot-secret".toList)]
    agent := [("token".toList, .text (List.replicate 32 'A')),
      ("transfer_token".toList, .text (List.replicate 33 'A'))] }

def directCollected : List Text :=
  ["app-password".toList, "bot-secret".toList, List.replicate 32 'A']

theorem directRaw_loads : ∃ config, loadConfig plainPlatform.isWord directRaw [] = .ok config ∧
    config.secrets =
      ["app-password".toList, "bot-secret".toList, List.replicate 32 'A', List.replicate 33 'A'] := by
  have hSecrets : (loadConfig plainPlatform.isWord directRaw []).toOption.map Loaded.secrets =
      some ["app-password".toList, "bot-secret".toList, List.replicate 32 'A',
        List.replicate 33 'A'] := by decide +kernel
  cases hLoad : loadConfig plainPlatform.isWord directRaw [] with
  | error cause =>
    rw [hLoad] at hSecrets
    cases hSecrets
  | ok config =>
    rw [hLoad] at hSecrets
    exact ⟨config, rfl, Option.some.inj hSecrets⟩

theorem bundle_clean_direct :
    ∃ config, loadConfig plainPlatform.isWord directRaw [] = .ok config ∧
      Clean plainPlatform directRaw [] config ∧
      ((∀ s ∈ config.secrets, Covered directRaw (Json.escaped (Json.codes s))) ∨
        Covered directRaw redacted) := by
  obtain ⟨config, hLoad, hSecrets⟩ := directRaw_loads
  have hCollected : collectConfigSecrets directRaw = directCollected := by decide +kernel
  have hChecked : Checked plainPlatform directRaw config := by
    refine Or.inl ?_
    simp only [hSecrets, Covered, hCollected]
    decide +kernel
  have hClean := (bundle_clean hLoad).1 hChecked
  have hBrackets : ∀ s ∈ collectConfigSecrets directRaw, '[' ∉ s ∧ ']' ∉ s := by
    rw [hCollected]
    decide +kernel
  exact ⟨config, hLoad, hClean, ((bundle_clean hLoad).2 hBrackets hClean).1 ⟨"info".toList, rfl⟩⟩

def loggedHost : Host :=
  { hostWith [] with
    grantRows := []
    logs := .ok ("Authorization: Bearer ".toList ++ List.replicate 32 'T', "token bot-secret".toList) }

/-- Neither the transfer token nor a token from the environment is looked for. -/
theorem tokens_kept : ∃ config written,
    loadConfig plainPlatform.isWord plainRaw plainProcess = .ok config ∧
      main plainPlatform plainRaw plainProcess loggedHost 40 = .ok written ∧
      written.safe = true ∧ config.agent.transferToken <:+: written.file ∧
      config.matrix.botToken <:+: written.file := by
  obtain ⟨config, hLoad, hTransfer, hBot⟩ := plainRaw_loads
  have hRun : (main plainPlatform plainRaw plainProcess loggedHost 40).toOption.map (fun written =>
      (written.safe, contains (List.replicate 32 'T') written.file,
        contains "bot-secret".toList written.file)) = some (true, true, true) := by decide +kernel
  cases hMain : main plainPlatform plainRaw plainProcess loggedHost 40 with
  | error cause =>
    rw [hMain] at hRun
    cases hRun
  | ok written =>
    rw [hMain] at hRun
    have hValues := Option.some.inj hRun
    rw [Prod.mk.injEq, Prod.mk.injEq, contains_iff, contains_iff] at hValues
    obtain ⟨hSafe, hTransferIn, hBotIn⟩ := hValues
    rw [← hTransfer] at hTransferIn
    rw [← hBot] at hBotIn
    exact ⟨config, written, hLoad, rfl, hSafe, hTransferIn, hBotIn⟩

end AccessBroker.SupportBundle
