import AccessBroker.Audit
import AccessBroker.Library.Json.Ascii

/-! # One record call

What a call can do to the files and to the writer, and that a writer which
agrees with the log on disk agrees with it after the call.
-/

namespace AccessBroker.Audit
open Py Json
set_option autoImplicit false

variable {sha256 : Text → Text} {floats : FloatFormat}

/-! ## The line of a record -/

theorem canonical_ofText (t : Text) : Canonical floats (Value.ofText t) := wellFormed_codes t

theorem plain_ofText (t : Text) : Plain (Value.ofText t) := .str _

theorem plain_grantId (grantId : Option Int) : Plain (nullable (grantId.map .int)) := by
  cases grantId with
  | none => exact .null
  | some n => exact .int n

theorem canonical_grantId {grantId : Option Int} (h : grantId.any tooLong = false) :
    Canonical floats (nullable (grantId.map .int)) := by
  cases grantId with
  | none => exact trivial
  | some n => simpa [tooLong, nullable, Canonical] using h

theorem flat_entryRecord (timestamp : Text) (e : Entry) : Flat (entryRecord timestamp e) := by
  have hFields : Flat (Dict.ofPairs [
      (codes "timestamp".toList, .ofText timestamp),
      (codes "instance".toList, .ofText e.instanceName),
      (codes "path".toList, .ofText e.path),
      (codes "operation".toList, .ofText e.operation),
      (codes "grant_id".toList, nullable (e.grantId.map .int)),
      (codes "decision".toList, .ofText e.decision),
      (codes "reason".toList, .ofText e.reason)]) := by
    refine Flat.ofPairs ?_
    simp only [List.forall_mem_cons, List.not_mem_nil, false_implies, implies_true, and_true]
    exact ⟨plain_ofText _, plain_ofText _, plain_ofText _, plain_ofText _, plain_grantId _,
      plain_ofText _, plain_ofText _⟩
  rw [entryRecord]
  cases e.principal with
  | none => exact hFields
  | some principal => exact hFields.set _ (plain_ofText principal)

theorem canonical_entryRecord (timestamp : Text) {e : Entry} (hId : e.grantId.any tooLong = false) :
    Canonical floats (.obj (entryRecord timestamp e)) := by
  have hFields : Canonical floats (.obj (Dict.ofPairs [
      (codes "timestamp".toList, .ofText timestamp),
      (codes "instance".toList, .ofText e.instanceName),
      (codes "path".toList, .ofText e.path),
      (codes "operation".toList, .ofText e.operation),
      (codes "grant_id".toList, nullable (e.grantId.map .int)),
      (codes "decision".toList, .ofText e.decision),
      (codes "reason".toList, .ofText e.reason)])) := by
    refine canonical_ofPairs (canonicalMembers_iff.mpr ?_)
    simp only [List.forall_mem_cons, List.not_mem_nil, false_implies, implies_true, and_true]
    exact ⟨⟨wellFormed_codes _, canonical_ofText _⟩, ⟨wellFormed_codes _, canonical_ofText _⟩,
      ⟨wellFormed_codes _, canonical_ofText _⟩, ⟨wellFormed_codes _, canonical_ofText _⟩,
      ⟨wellFormed_codes _, canonical_grantId hId⟩, ⟨wellFormed_codes _, canonical_ofText _⟩,
      ⟨wellFormed_codes _, canonical_ofText _⟩⟩
  rw [entryRecord]
  cases e.principal with
  | none => exact hFields
  | some principal => exact canonical_set hFields (wellFormed_codes _) (canonical_ofText principal)

theorem flat_lineRecord (sha256 : Text → Text) (prev timestamp : Text) (e : Entry) :
    Flat (lineRecord sha256 (.ofText prev) timestamp e) :=
  ((flat_entryRecord timestamp e).set _ (plain_ofText prev)).set _ (plain_ofText _)

theorem canonical_lineRecord (prev timestamp : Text) {e : Entry}
    (hId : e.grantId.any tooLong = false) :
    Canonical floats (.obj (lineRecord sha256 (.ofText prev) timestamp e)) :=
  canonical_set (canonical_set (canonical_entryRecord timestamp hId) (wellFormed_codes _)
    (canonical_ofText prev)) (wellFormed_codes _) (canonical_ofText _)

/-- The chain fields are outside the hashed ones. -/
theorem chainPayload_lineRecord (prev : Value) (timestamp : Text) (e : Entry) :
    chainPayload (lineRecord sha256 prev timestamp e) =
      chainPayload (entryRecord timestamp e) := by
  rw [chainPayload, lineRecord, Dict.restrict_set (by decide), Dict.restrict_set (by decide)]
  rfl

theorem digest_lineRecord (prev : Value) (timestamp : Text) (e : Entry) :
    digest sha256 (lineRecord sha256 prev timestamp e) =
      digest sha256 (entryRecord timestamp e) := by
  rw [digest, chainPayload_lineRecord]
  rfl

theorem isText_ofText (t : Text) : isText (some (Value.ofText t)) t = true := by
  simp [isText, Value.ofText]

theorem eq_ofText_of_isText {value : Option Value} {t : Text} (h : isText value t = true) :
    value = some (.ofText t) := by
  unfold isText at h
  split at h
  · rw [eq_of_beq h]
    rfl
  · cases h

/-- The written line continues the chain, also after JSON whitespace. -/
theorem checkLine_lineRecord {prev timestamp : Text} {e : Entry} {blank : Text}
    (hBlank : ∀ c ∈ blank, isWs c = true) (hId : e.grantId.any tooLong = false) :
    checkLine sha256 floats prev
        (blank ++ dumps (.obj (lineRecord sha256 (.ofText prev) timestamp e))) =
      .ok (digest sha256 (entryRecord timestamp e)) := by
  rw [checkLine, loads_blank_dumps (canonical_lineRecord prev timestamp hId) hBlank]
  dsimp only
  rw [digest_lineRecord, lineRecord, Dict.get?_set_of_ne (by decide), Dict.get?_set_self,
    Dict.get?_set_self, isText_ofText, isText_ofText, if_neg (by decide), if_neg (by decide)]

theorem checkHead_headText (sha : Text) {lines : Nat} (hLines : tooLong lines = false) :
    checkHead floats sha lines (some (headText (.ofText sha) lines)) = .ok ⟨true, none, lines⟩ := by
  rw [headText, if_neg (by simp [hLines])]
  have hCanonical : Canonical floats (.obj (headRecord (.ofText sha) lines)) := by
    refine canonical_ofPairs ⟨⟨wellFormed_codes _, canonical_ofText sha⟩,
      ⟨wellFormed_codes _, ?_⟩, trivial⟩
    simpa [Canonical, tooLong] using hLines
  obtain ⟨rest, hCons⟩ := dumps_obj_eq_cons (headRecord (.ofText sha) lines)
  obtain ⟨init, hConcat⟩ := dumps_obj_eq_concat (headRecord (.ofText sha) lines)
  have hStrip : strip (dumps (.obj (headRecord (.ofText sha) lines)) ++ ['\n']) =
      dumps (.obj (headRecord (.ofText sha) lines)) := by
    cases init with
    | nil =>
      rw [hConcat] at hCons
      cases hCons
    | cons c init =>
      rw [hConcat] at hCons ⊢
      cases hCons
      exact strip_of_ends (by decide) (by decide) (by simp [isSpace])
  have hSha : Dict.get? (headRecord (.ofText sha) lines) "sha256".toList = some (.ofText sha) := by
    rw [headRecord, Dict.ofPairs]
    simp only [List.foldl_cons, List.foldl_nil]
    rw [Dict.get?_set_of_ne (by decide), Dict.get?_set_self]
  have hCount : Dict.get? (headRecord (.ofText sha) lines) "lines".toList = some (.int lines) := by
    rw [headRecord, Dict.ofPairs]
    simp only [List.foldl_cons, List.foldl_nil]
    rw [Dict.get?_set_self]
  rw [checkHead, hStrip, loads_dumps hCanonical]
  dsimp only
  rw [hSha, hCount, isText_ofText, if_neg (by decide), if_neg (by simp [equalsNat])]

/-! ## What a call does -/

/-- The call gets as far as opening the log file. -/
def Writes (log : AuditLog) (e : Entry) : Prop :=
  checkSecrets log e = false ∧ e.grantId.any tooLong = false ∧ e.failInject = false

instance (log : AuditLog) (e : Entry) : Decidable (Writes log e) :=
  inferInstanceAs (Decidable (_ ∧ _ ∧ _))

/-- The state after the line has been written and the checkpoint has been tried. -/
def AuditState.appended (sha256 : Text → Text) (s : AuditState) (timestamp : Text) (e : Entry)
    (checkpoint : Write) : AuditState :=
  let sha := Value.ofText (digest sha256 (entryRecord timestamp e))
  { writer := s.writer.advance sha
    files :=
      { log := some (s.files.log.getD [] ++ recordLine sha256 s.writer.prevSha256 timestamp e)
        head := checkpoint.replace (headText sha (s.writer.lines + 1)) s.files.head } }

/-- Every call is refused before it writes, fails inside the append, or appends its line;
the last succeeds if and only if the checkpoint does. -/
theorem record_cases (sha256 : Text → Text) (timestamp : Text) (e : Entry)
    (append checkpoint : Write) (s : AuditState) :
    (∃ err, ¬ Writes s.writer e ∧
      (record sha256 timestamp e append checkpoint).run s = (.error err, s)) ∨
    (∃ err, Writes s.writer e ∧ append ≠ .completes ∧
      (record sha256 timestamp e append checkpoint).run s = (.error err,
        { s with files.log :=
          append.append (recordLine sha256 s.writer.prevSha256 timestamp e) s.files.log })) ∨
    (∃ result, Writes s.writer e ∧ append = .completes ∧
      (record sha256 timestamp e append checkpoint).run s =
        (result, s.appended sha256 timestamp e checkpoint) ∧
      (result = .ok () ↔ checkpoint = .completes ∧ tooLong (s.writer.lines + 1) = false)) := by
  rw [record, Effect.bind_ok (Effect.get_run s)]
  dsimp only
  split
  · rename_i hSecret
    exact Or.inl ⟨_, fun h => (by rw [h.1] at hSecret; cases hSecret), rfl⟩
  split
  · rename_i _ hLong
    exact Or.inl ⟨_, fun h => (by rw [h.2.1] at hLong; cases hLong), rfl⟩
  split
  · rename_i _ _ hInject
    exact Or.inl ⟨_, fun h => (by rw [h.2.2] at hInject; cases hInject), rfl⟩
  · rename_i hSecret hLong hInject
    have hWrites : Writes s.writer e :=
      ⟨by simpa using hSecret, by simpa using hLong, by simpa using hInject⟩
    right
    rw [Effect.bind_ok (Effect.modify_run _ s)]
    cases append with
    | notOpened exc => exact Or.inl ⟨_, hWrites, by simp, rfl⟩
    | fails written exc => exact Or.inl ⟨_, hWrites, by simp, rfl⟩
    | completes =>
      right
      cases checkpoint with
      | notOpened exc => exact ⟨_, hWrites, rfl, rfl, by simp⟩
      | fails written exc => exact ⟨_, hWrites, rfl, rfl, by simp⟩
      | completes =>
        cases hCount : tooLong (s.writer.lines + 1) with
        | true =>
          refine ⟨.error .integerTooLong, hWrites, rfl, ?_, by simp⟩
          simp [Write.failure, Effect.bind_run, AuditState.appended, Write.append, Write.replace]
        | false =>
          refine ⟨.ok (), hWrites, rfl, ?_, by simp⟩
          simp [Write.failure, Effect.bind_run, AuditState.appended, Write.append, Write.replace]

/-! ## A writer in step with its log -/

/-- The chain on disk holds, nothing but JSON whitespace follows its last line break, and
the writer has its last digest and its number of lines. -/
structure Synced (sha256 : Text → Text) (floats : FloatFormat) (log : AuditLog) (raw : Text) :
    Prop where
  blank : ∀ c ∈ lastLine raw, isWs c = true
  chain : ∃ prev, walk sha256 floats (nonblankLines raw) = .ok prev ∧
    log.prevSha256 = .ofText prev
  count : log.lines = (nonblankLines raw).length

theorem isBlank_of_isWs {text : Text} (h : ∀ c ∈ text, isWs c = true) : isBlank text = true :=
  List.all_eq_true.mpr fun c hc => isWs_isSpace (h c hc)

theorem nonblankLines_recordLine {raw prev timestamp : Text} (e : Entry) :
    nonblankLines (raw ++ recordLine sha256 (.ofText prev) timestamp e) =
      nonblankLines (closedLines raw) ++
        [lastLine raw ++ dumps (.obj (lineRecord sha256 (.ofText prev) timestamp e))] := by
  have hPrintable := (flat_lineRecord sha256 prev timestamp e).printable
  rw [recordLine, nonblankLines_append_line (fun c hc => (hPrintable c hc).not_isLineBreak) ?_
    (by decide) [], nonblankLines_nil]
  obtain ⟨rest, hCons⟩ := dumps_obj_eq_cons (lineRecord sha256 (.ofText prev) timestamp e)
  rw [hCons, isBlank, List.all_append, List.all_cons]
  simp [show isSpace '{' = false by decide]

/-- Appending a line keeps the writer in step. -/
theorem Synced.appended {s : AuditState} (h : Synced sha256 floats s.writer (s.files.log.getD []))
    (timestamp : Text) {e : Entry} (hWrites : Writes s.writer e) (checkpoint : Write) :
    Synced sha256 floats (s.appended sha256 timestamp e checkpoint).writer
        (s.files.log.getD [] ++ recordLine sha256 s.writer.prevSha256 timestamp e) ∧
      walk sha256 floats (nonblankLines
        (s.files.log.getD [] ++ recordLine sha256 s.writer.prevSha256 timestamp e)) =
        .ok (digest sha256 (entryRecord timestamp e)) := by
  obtain ⟨prev, hWalk, hPrev⟩ := h.chain
  have hLines : nonblankLines (s.files.log.getD []) =
      nonblankLines (closedLines (s.files.log.getD [])) := by
    rw [nonblankLines_eq, if_pos (isBlank_of_isWs h.blank), List.append_nil]
  have hChain : walk sha256 floats (nonblankLines
      (s.files.log.getD [] ++ recordLine sha256 s.writer.prevSha256 timestamp e)) =
      .ok (digest sha256 (entryRecord timestamp e)) := by
    rw [hPrev, nonblankLines_recordLine, ← hLines, walk, Scan.scan_concat hWalk,
      checkLine_lineRecord h.blank hWrites.2.1]
  refine ⟨⟨?_, ⟨_, hChain, rfl⟩, ?_⟩, hChain⟩
  · rw [recordLine, ← List.append_assoc, lastLine_append_break _ (by decide)]
    simp
  · rw [hPrev, nonblankLines_recordLine, ← hLines, List.length_append]
    exact congrArg (· + 1) h.count

/-- After a successful call the log is accepted, with the new number of lines. -/
theorem Synced.accepted {s : AuditState} (h : Synced sha256 floats s.writer (s.files.log.getD []))
    (timestamp : Text) {e : Entry} (hWrites : Writes s.writer e)
    (hCount : tooLong (s.writer.lines + 1) = false) :
    verifyChain sha256 floats (s.appended sha256 timestamp e .completes).files =
      .ok ⟨true, none, s.writer.lines + 1⟩ := by
  obtain ⟨hSynced, hChain⟩ := h.appended timestamp hWrites .completes
  have hLines := hSynced.count
  rw [verifyChain]
  simp only [AuditState.appended, Write.replace, AuditLog.advance] at hLines ⊢
  rw [hChain]
  dsimp only
  rw [← hLines]
  exact checkHead_headText _ hCount

theorem checkLine_ok {prev line next : Text} (h : checkLine sha256 floats prev line = .ok next) :
    ∃ record, loads floats line = some (.obj record) ∧
      Dict.get? record "sha256".toList = some (.ofText next) := by
  rw [checkLine] at h
  split at h
  · cases h
  · rename_i record hLoads
    split at h
    · cases h
    split at h
    · cases h
    · rename_i hSha
      cases h
      exact ⟨record, hLoads, eq_ofText_of_isText (by simpa using hSha)⟩
  · cases h

/-- Opening a log whose chain holds gives a writer in step with it. -/
theorem open_synced (secrets : List Text) (files : Files) {prev : Text}
    (hBlank : ∀ c ∈ lastLine (files.log.getD []), isWs c = true)
    (hWalk : walk sha256 floats (nonblankLines (files.log.getD [])) = .ok prev) :
    ∃ log, AuditLog.open floats secrets files = .ok log ∧
      log.secrets = secrets.filter (· ≠ []) ∧
      Synced sha256 floats log (files.log.getD []) := by
  have hLoad : loadLastHash floats files.log =
      .ok (.ofText prev, (nonblankLines (files.log.getD [])).length) := by
    cases hLog : files.log with
    | none =>
      rw [hLog] at hWalk
      cases hWalk
      rfl
    | some raw =>
      rw [hLog, Option.getD_some] at hWalk
      rw [loadLastHash, Option.getD_some]
      rcases List.eq_nil_or_concat (nonblankLines raw) with hNil | ⟨init, last, hLast⟩
      · rw [hNil] at hWalk ⊢
        cases hWalk
        rfl
      · rw [List.concat_eq_append] at hLast
        rw [hLast] at hWalk ⊢
        obtain ⟨before, _, hCheck⟩ := Scan.scan_concat_ok hWalk
        obtain ⟨record, hLoads, hSha⟩ := checkLine_ok hCheck
        rw [List.getLast?_append_of_ne_nil _ (by simp)]
        simp only [List.getLast?_singleton, hLoads, hSha]
  refine ⟨⟨secrets.filter (· ≠ []), .ofText prev, _⟩, ?_, rfl, hBlank, ⟨prev, hWalk, rfl⟩, rfl⟩
  rw [AuditLog.open, hLoad]
  rfl

end AccessBroker.Audit
