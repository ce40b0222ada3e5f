import AccessBroker.Audit.Tampering
import AccessBroker.Library.Chain

/-! # Rearranged logs

The lines of a log whose records have payloads of their own can be put together
in one way only: every record names the digest before it, and the sidecar names
the last. No other sequence of these lines is accepted with that sidecar.
-/

namespace AccessBroker.Audit
open Py Json
set_option autoImplicit false

variable {sha256 : Text → Text} {floats : FloatFormat} {secrets : List Text}

/-! ## Lines as nodes of a chain -/

def prevKey (floats : FloatFormat) (line : Text) : Option Value :=
  (recordOf floats line).bind fun record => Dict.get? record "prev_sha256".toList

def ownKey (sha256 : Text → Text) (floats : FloatFormat) (line : Text) : Option Value :=
  (recordOf floats line).map fun record => .ofText (digest sha256 record)

theorem linked_lines {lines : List Text} {records : List Dict} {start : Text}
    (h : lines.mapM (recordOf floats) = some records) (hLinked : Linked sha256 start records) :
    Chain.Linked (prevKey floats) (ownKey sha256 floats) (some (.ofText start)) lines ∧
      Chain.tip (ownKey sha256 floats) (some (.ofText start)) lines =
        some (.ofText ((records.getLast?.map (digest sha256)).getD start)) := by
  induction lines generalizing records start with
  | nil =>
    cases h
    exact ⟨trivial, rfl⟩
  | cons line lines ih =>
    obtain ⟨record, rest, hRecord, hRest, rfl⟩ := records_cons.mp h
    obtain ⟨hPrev, _, hLater⟩ := hLinked
    have hOwn : ownKey sha256 floats line = some (.ofText (digest sha256 record)) := by
      rw [ownKey, hRecord, Option.map_some]
    obtain ⟨hChain, hTip⟩ := ih hRest hLater
    constructor
    · refine ⟨?_, by rw [hOwn]; exact hChain⟩
      rw [prevKey, hRecord, Option.bind_some, hPrev]
    · rw [Chain.tip, hOwn, hTip, List.getLast?_cons]
      cases rest.getLast? <;> rfl

theorem map_ownKey {lines : List Text} {records : List Dict}
    (h : lines.mapM (recordOf floats) = some records) :
    lines.map (ownKey sha256 floats) =
      records.map fun record => some (.ofText (digest sha256 record)) := by
  induction lines generalizing records with
  | nil =>
    cases h
    rfl
  | cons line lines ih =>
    obtain ⟨record, rest, hRecord, hRest, rfl⟩ := records_cons.mp h
    rw [List.map_cons, List.map_cons, ih hRest, ownKey, hRecord, Option.map_some]

theorem recordOf_of_mem {lines : List Text} {records : List Dict}
    (h : lines.mapM (recordOf floats) = some records) {line : Text} (hLine : line ∈ lines) :
    ∃ record ∈ records, recordOf floats line = some record := by
  induction lines generalizing records with
  | nil => cases hLine
  | cons first lines ih =>
    obtain ⟨record, rest, hRecord, hRest, rfl⟩ := records_cons.mp h
    rcases List.mem_cons.mp hLine with rfl | hLine
    · exact ⟨record, List.mem_cons_self, hRecord⟩
    · obtain ⟨other, hMem, hOther⟩ := ih hRest hLine
      exact ⟨other, List.mem_cons_of_mem _ hMem, hOther⟩

theorem records_of_forall {lines : List Text}
    (h : ∀ line ∈ lines, ∃ record, recordOf floats line = some record) :
    ∃ records, lines.mapM (recordOf floats) = some records := by
  induction lines with
  | nil => exact ⟨[], rfl⟩
  | cons first lines ih =>
    obtain ⟨record, hRecord⟩ := h first List.mem_cons_self
    obtain ⟨rest, hRest⟩ := ih fun line hLine => h line (List.mem_cons_of_mem _ hLine)
    exact ⟨record :: rest, records_cons.mpr ⟨record, rest, hRecord, hRest, rfl⟩⟩

theorem ofText_injective {t t' : Text} (h : Value.ofText t = .ofText t') : t = t' :=
  codes_injective (Value.str.inj h)

/-- With different payloads, the keys of the lines and the first key are different. -/
theorem distinct_keys (hCollisionFree : CollisionFree sha256)
    (hGenesis : ∀ record, digest sha256 record ≠ GENESIS) {lines : List Text}
    {records : List Dict} (h : lines.mapM (recordOf floats) = some records)
    (hDistinct : (records.map chainPayload).Nodup) :
    (some (Value.ofText GENESIS) :: lines.map (ownKey sha256 floats)).Nodup := by
  rw [map_ownKey h, List.nodup_cons]
  constructor
  · intro hMem
    obtain ⟨record, _, hKey⟩ := List.mem_map.mp hMem
    exact hGenesis record (ofText_injective (Option.some.inj hKey))
  · rw [List.Nodup, List.pairwise_map] at hDistinct ⊢
    apply hDistinct.imp
    intro record record' hNe hSame
    have hDigest := ofText_injective (Option.some.inj hSame)
    exact hNe (hCollisionFree record record' hDigest)

/-- An accepted text made of lines of an accepted log has the lines of the log. -/
theorem accepted_lines_iff (hCollisionFree : CollisionFree sha256)
    (hGenesis : ∀ record, digest sha256 record ≠ GENESIS) {raw raw' head : Text}
    {records : List Dict} (hRecords : recordsOf floats raw = some records)
    (hDistinct : (records.map chainPayload).Nodup)
    (hAccepted : accepts sha256 floats ⟨some raw, some head⟩ = true)
    (hDrawn : nonblankLines raw' ⊆ nonblankLines raw) :
    accepts sha256 floats ⟨some raw', some head⟩ = true ↔
      nonblankLines raw' = nonblankLines raw := by
  obtain ⟨records', hRecords'⟩ : ∃ records', recordsOf floats raw' = some records' := by
    apply records_of_forall
    intro line hLine
    obtain ⟨record, _, hRecord⟩ := recordOf_of_mem hRecords (hDrawn hLine)
    exact ⟨record, hRecord⟩
  obtain ⟨hLinked, hHead⟩ := (accepts_records hRecords).mp hAccepted
  rw [accepts_records hRecords']
  constructor
  · rintro ⟨hLinked', hHead'⟩
    obtain ⟨hChain, hTip⟩ := linked_lines hRecords hLinked
    obtain ⟨hChain', hTip'⟩ := linked_lines hRecords' hLinked'
    refine hChain.eq_of_subset (distinct_keys hCollisionFree hGenesis hRecords hDistinct)
      hChain' hDrawn ?_
    have hLast : lastDigest sha256 records' = lastDigest sha256 records := hHead'.unique hHead
    rw [lastDigest, lastDigest] at hLast
    rw [hTip, hTip', hLast]
  · intro hSame
    rw [recordsOf, hSame] at hRecords'
    cases hRecords.symm.trans hRecords'
    exact ⟨hLinked, hHead⟩

/-! ## Runs of successful calls -/

/-- The act returns without an exception. -/
def Act.Succeeds (sha256 : Text → Text) (p : Process) : Act → Prop
  | .record call => p.returns sha256 call = true
  | .crash _ => False
  | .restart => True

instance (sha256 : Text → Text) (p : Process) (act : Act) : Decidable (act.Succeeds sha256 p) :=
  match act with
  | .record call => inferInstanceAs (Decidable (p.returns sha256 call = true))
  | .crash _ => inferInstanceAs (Decidable False)
  | .restart => inferInstanceAs (Decidable True)

def Act.recorded : Act → Option Call
  | .record call => some call
  | _ => none

def Call.payload (call : Call) : Text := chainPayload (entryRecord call.timestamp call.entry)

/-- The log is sound and accepted, and its records have the payloads of the calls. -/
structure Process.Recorded (sha256 : Text → Text) (floats : FloatFormat) (p : Process)
    (calls : List Call) : Prop where
  sound : p.Sound sha256 floats
  payloads : ∃ records, recordsOf floats (p.files.log.getD []) = some records ∧
    records.map chainPayload = calls.map Call.payload
  accepted : calls ≠ [] → ∃ raw head, p.files = ⟨some raw, some head⟩ ∧
    accepts sha256 floats p.files = true

theorem recorded_start : Process.start.Recorded sha256 floats [] where
  sound := sound_start
  payloads := ⟨[], rfl, rfl⟩
  accepted h := absurd rfl h

theorem records_concat {lines : List Text} {line : Text} {records : List Dict} {record : Dict}
    (h : lines.mapM (recordOf floats) = some records) (hLast : recordOf floats line = some record) :
    (lines ++ [line]).mapM (recordOf floats) = some (records ++ [record]) := by
  rw [List.mapM_append, h, List.mapM_cons, hLast]
  rfl

/-- A successful call appends the record of its entry, and the log is accepted. -/
theorem Process.Recorded.call {p : Process} {calls : List Call}
    (h : p.Recorded sha256 floats calls) {call : Call} (hReturns : p.returns sha256 call = true) :
    (p.call sha256 call).Recorded sha256 floats (calls ++ [call]) := by
  obtain ⟨records, hRecords, hPayloads⟩ := h.payloads
  have hWriter : ∃ log, p.writer = some log := by
    rw [Process.returns] at hReturns
    split at hReturns
    · cases hReturns
    · rename_i log hLog
      exact ⟨log, hLog⟩
  obtain ⟨log, hLog⟩ := hWriter
  have hSynced := h.sound.writer log hLog
  rcases record_cases sha256 call.timestamp call.entry call.append call.checkpoint
    ⟨log, p.files⟩ with ⟨err, _, hRun⟩ | ⟨err, _, _, hRun⟩ | ⟨result, hWrites, hAppend, hRun, hOk⟩
  · simp only [Process.returns, hLog, hRun] at hReturns
    cases hReturns
  · simp only [Process.returns, hLog, hRun] at hReturns
    cases hReturns
  · have hResult : result = .ok () := by
      simp only [Process.returns, hLog, hRun] at hReturns
      split at hReturns
      · rename_i hEq
        cases hEq
        rfl
      · cases hReturns
    obtain ⟨hCheckpoint, hCount⟩ := hOk.mp hResult
    have hFiles : (p.call sha256 call).files =
        ((⟨log, p.files⟩ : AuditState).appended sha256 call.timestamp call.entry .completes).files := by
      rw [Process.call, hLog]
      dsimp only
      rw [hRun, hCheckpoint]
    obtain ⟨prev, _, hPrev⟩ := hSynced.chain
    have hLines : nonblankLines (p.files.log.getD []) =
        nonblankLines (closedLines (p.files.log.getD [])) := by
      rw [nonblankLines_eq, if_pos (isBlank_of_isWs hSynced.blank), List.append_nil]
    refine ⟨h.sound.call call (by rw [hAppend]; trivial), ?_, fun _ => ?_⟩
    · refine ⟨records ++ [lineRecord sha256 (.ofText prev) call.timestamp call.entry], ?_, ?_⟩
      · have hLast : recordOf floats (lastLine (p.files.log.getD []) ++
            dumps (.obj (lineRecord sha256 (.ofText prev) call.timestamp call.entry))) =
            some (lineRecord sha256 (.ofText prev) call.timestamp call.entry) := by
          rw [recordOf, loads_blank_dumps
            (canonical_lineRecord prev call.timestamp hWrites.2.1) hSynced.blank]
        have hAll := records_concat hRecords hLast
        rw [hLines, ← nonblankLines_recordLine] at hAll
        have hText : (p.call sha256 call).files.log.getD [] = p.files.log.getD [] ++
            recordLine sha256 (.ofText prev) call.timestamp call.entry := by
          rw [hFiles, ← hPrev]
          rfl
        rw [recordsOf, hText]
        exact hAll
      · rw [List.map_append, List.map_append, hPayloads, List.map_singleton, List.map_singleton,
          chainPayload_lineRecord]
        rfl
    · have hVerify := Synced.accepted (s := ⟨log, p.files⟩) hSynced call.timestamp hWrites hCount
      refine ⟨_, _, hFiles, ?_⟩
      rw [hFiles]
      exact accepts_of_verify _ _ hVerify

theorem Process.Recorded.restart {p : Process} {calls : List Call}
    (h : p.Recorded sha256 floats calls) :
    (p.step sha256 floats secrets .restart).Recorded sha256 floats calls := by
  have hSound : (p.step sha256 floats secrets .restart).Sound sha256 floats := h.sound.step trivial
  exact ⟨hSound, h.payloads, h.accepted⟩

theorem Process.Recorded.run {p : Process} {calls : List Call}
    (h : p.Recorded sha256 floats calls) {acts : List Act}
    (hSuccess : Machine.EveryStep (Process.step sha256 floats secrets) (Act.Succeeds sha256) p acts) :
    (Machine.run (Process.step sha256 floats secrets) p acts).Recorded sha256 floats
      (calls ++ acts.filterMap Act.recorded) := by
  induction acts generalizing p calls with
  | nil =>
    rw [List.filterMap_nil, List.append_nil]
    exact h
  | cons act acts ih =>
    obtain ⟨hHead, hTail⟩ := (Machine.everyStep_cons _).mp hSuccess
    rw [Machine.run_cons]
    cases act with
    | record call =>
      have hNext := ih (h.call hHead) hTail
      rw [List.append_assoc, List.singleton_append] at hNext
      exact hNext
    | crash call => exact hHead.elim
    | restart => exact ih h.restart hTail

/-- Of the texts made of lines of the log, in whatever order, with omissions and
repetitions, the sidecar of the last record accepts those that are the log. -/
theorem rearrangement_detected (sha256 : Text → Text) (floats : FloatFormat) (secrets : List Text)
    (hCollisionFree : CollisionFree sha256) (hGenesis : ∀ record, digest sha256 record ≠ GENESIS)
    (acts : List Act)
    (hSuccess : Machine.EveryStep (Process.step sha256 floats secrets) (Act.Succeeds sha256)
      Process.start acts)
    (hDistinct : ((acts.filterMap Act.recorded).map Call.payload).Nodup)
    (hNonempty : acts.filterMap Act.recorded ≠ []) (raw : Text)
    (hDrawn : nonblankLines raw ⊆
      nonblankLines ((Process.after sha256 floats secrets acts).files.log.getD [])) :
    accepts sha256 floats ⟨some raw, (Process.after sha256 floats secrets acts).files.head⟩ = true ↔
      nonblankLines raw =
        nonblankLines ((Process.after sha256 floats secrets acts).files.log.getD []) := by
  have hRun : (Process.after sha256 floats secrets acts).Recorded sha256 floats
      (acts.filterMap Act.recorded) := recorded_start.run hSuccess
  obtain ⟨records, hRecords, hPayloads⟩ := hRun.payloads
  obtain ⟨log, head, hFiles, hAccepted⟩ := hRun.accepted hNonempty
  rw [hFiles] at hAccepted hRecords hDrawn ⊢
  exact accepted_lines_iff hCollisionFree hGenesis hRecords (hPayloads ▸ hDistinct) hAccepted
    hDrawn

/-- Two records, written by two processes. -/
def twoRecords : List Act :=
  let entry : Entry := ⟨['a'], ['d'], ['r'], some 1, ['o'], [], some ['t'], false⟩
  [.restart, .record ⟨['0'], entry, .completes, .completes⟩, .restart,
    .record ⟨['1'], entry, .completes, .completes⟩]

theorem digest_id_ne_genesis (record : Dict) : digest id record ≠ GENESIS := by
  obtain ⟨rest, hCons⟩ := dumps_obj_eq_cons (record.restrict chainedFields)
  intro h
  rw [digest, chainPayload, hCons] at h
  cases h

theorem rearrangement_detected_swapped :
    let files := (Process.after id .verbatim [] twoRecords).files
    let swapped := (nonblankLines (files.log.getD [])).reverse.flatMap (· ++ ['\n'])
    accepts id .verbatim ⟨some swapped, files.head⟩ = true ↔
      nonblankLines swapped = nonblankLines (files.log.getD []) := by
  have hSuccess : Machine.EveryStep (Process.step id .verbatim []) (Act.Succeeds id)
      Process.start twoRecords := by
    simp only [twoRecords, Machine.everyStep_cons]
    exact ⟨by decide, by decide +kernel, by decide, by decide +kernel, Machine.everyStep_nil _⟩
  exact rearrangement_detected id .verbatim [] collisionFree_id digest_id_ne_genesis twoRecords
    hSuccess (by decide +kernel) (by decide +kernel) _ (by decide +kernel)

end AccessBroker.Audit
