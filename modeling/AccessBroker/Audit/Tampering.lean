import AccessBroker.Audit.Runs

/-! # Edited logs

The digest of a record leaves its predecessor out, so the sidecar commits to the
chained fields of the last record and to the number of lines. An edit elsewhere is
seen as long as its digests are not redone.
-/

namespace AccessBroker.Audit
open Py Json
set_option autoImplicit false

variable {sha256 : Text → Text} {floats : FloatFormat}

def recordOf (floats : FloatFormat) (line : Text) : Option Dict :=
  match loads floats line with
  | some (.obj record) => some record
  | _ => none

/-- The records of a log each line of which is a dict. -/
def recordsOf (floats : FloatFormat) (raw : Text) : Option (List Dict) :=
  (nonblankLines raw).mapM (recordOf floats)

def chained (record : Dict) : Dict := record.restrict chainedFields

def CollisionFree (sha256 : Text → Text) : Prop :=
  ∀ record record' : Dict, digest sha256 record = digest sha256 record' →
    chainPayload record = chainPayload record'

/-- Every record names the digest of the one before and holds its own. -/
def Linked (sha256 : Text → Text) : Text → List Dict → Prop
  | _, [] => True
  | prev, record :: rest =>
    Dict.get? record "prev_sha256".toList = some (.ofText prev) ∧
      Dict.get? record "sha256".toList = some (.ofText (digest sha256 record)) ∧
      Linked sha256 (digest sha256 record) rest

def lastDigest (sha256 : Text → Text) (records : List Dict) : Text :=
  (records.getLast?.map (digest sha256)).getD GENESIS

theorem isText_eq_true {value : Option Value} {t : Text} :
    isText value t = true ↔ value = some (.ofText t) := by
  constructor
  · exact eq_ofText_of_isText
  · rintro rfl
    exact isText_ofText t

theorem loads_of_recordOf {line : Text} {record : Dict} (h : recordOf floats line = some record) :
    loads floats line = some (.obj record) := by
  rw [recordOf] at h
  split at h
  · rename_i hLoads
    cases h
    exact hLoads
  · cases h

theorem checkLine_record {line prev next : Text} {record : Dict}
    (h : recordOf floats line = some record) :
    checkLine sha256 floats prev line = .ok next ↔
      (Dict.get? record "prev_sha256".toList = some (.ofText prev) ∧
        Dict.get? record "sha256".toList = some (.ofText (digest sha256 record))) ∧
        next = digest sha256 record := by
  rw [← isText_eq_true, ← isText_eq_true, checkLine, loads_of_recordOf h]
  dsimp only
  cases isText (Dict.get? record "prev_sha256".toList) prev with
  | false => simp
  | true =>
    cases isText (Dict.get? record "sha256".toList) (digest sha256 record) with
    | false => simp
    | true => simp [eq_comm]

theorem records_cons {line : Text} {lines : List Text} {records : List Dict} :
    (line :: lines).mapM (recordOf floats) = some records ↔
      ∃ record rest, recordOf floats line = some record ∧
        lines.mapM (recordOf floats) = some rest ∧ records = record :: rest := by
  rw [List.mapM_cons, Option.bind_eq_bind, Option.bind_eq_some_iff]
  constructor
  · rintro ⟨record, hRecord, h⟩
    rw [Option.bind_eq_bind, Option.bind_eq_some_iff] at h
    obtain ⟨rest, hRest, h⟩ := h
    cases h
    exact ⟨record, rest, hRecord, hRest, rfl⟩
  · rintro ⟨record, rest, hRecord, hRest, rfl⟩
    exact ⟨record, hRecord, by rw [hRest]; rfl⟩

/-- The walk follows a log exactly if its records are linked. -/
theorem scan_records (sha256 : Text → Text) {lines : List Text} {records : List Dict}
    {prev last : Text} {index : Nat} (h : lines.mapM (recordOf floats) = some records) :
    Scan.scan (checkLine sha256 floats) prev index lines = .ok last ↔
      Linked sha256 prev records ∧ last = (records.getLast?.map (digest sha256)).getD prev := by
  induction lines generalizing records prev index with
  | nil =>
    cases h
    simp [Scan.scan, Linked, eq_comm]
  | cons line more ih =>
    obtain ⟨record, rest, hRecord, hRest, rfl⟩ := records_cons.mp h
    have hLast : ((record :: rest).getLast?.map (digest sha256)).getD prev =
        (rest.getLast?.map (digest sha256)).getD (digest sha256 record) := by
      rw [List.getLast?_cons]
      cases rest.getLast? <;> rfl
    rw [Scan.scan, hLast, Linked]
    cases hCheck : checkLine sha256 floats prev line with
    | error e =>
      constructor
      · intro hOk
        cases hOk
      · rintro ⟨⟨hPrev, hSha, _⟩, _⟩
        rw [(checkLine_record hRecord).mpr ⟨⟨hPrev, hSha⟩, rfl⟩] at hCheck
        cases hCheck
    | ok next =>
      obtain ⟨⟨hPrev, hSha⟩, rfl⟩ := (checkLine_record hRecord).mp hCheck
      rw [ih hRest]
      exact and_congr_left fun _ => ⟨fun hLinked => ⟨hPrev, hSha, hLinked⟩, fun hAll => hAll.2.2⟩

theorem length_records {lines : List Text} {records : List Dict}
    (h : lines.mapM (recordOf floats) = some records) : records.length = lines.length := by
  induction lines generalizing records with
  | nil =>
    cases h
    rfl
  | cons line more ih =>
    obtain ⟨record, rest, _, hRest, rfl⟩ := records_cons.mp h
    rw [List.length_cons, List.length_cons, ih hRest]

/-! ## What the sidecar commits to -/

/-- The sidecar names this digest and this number of lines. -/
def HeadNames (floats : FloatFormat) (head sha : Text) (lines : Nat) : Prop :=
  checkHead floats sha lines (some head) = .ok ⟨true, none, lines⟩

theorem checkHead_ok {sha head : Text} {lines : Nat} {result : ChainResult}
    (h : checkHead floats sha lines (some head) = .ok result) (hOk : result.ok = true) :
    result = ⟨true, none, lines⟩ ∧ ∃ record, loads floats (strip head) = some (.obj record) ∧
      Dict.get? record "sha256".toList = some (.ofText sha) := by
  rw [checkHead] at h
  split at h
  · cases h
    cases hOk
  · rename_i record hLoads
    split at h
    · cases h
      cases hOk
    split at h
    · cases h
      cases hOk
    · rename_i hSha _
      cases h
      exact ⟨rfl, record, hLoads, eq_ofText_of_isText (by simpa only [Bool.not_eq_false] using hSha)⟩
  · cases h

theorem accepts_records {raw head : Text} {records : List Dict}
    (h : recordsOf floats raw = some records) :
    accepts sha256 floats ⟨some raw, some head⟩ = true ↔
      Linked sha256 GENESIS records ∧
        HeadNames floats head (lastDigest sha256 records) records.length := by
  have hWalk : ∀ last, walk sha256 floats (nonblankLines raw) = .ok last ↔
      Linked sha256 GENESIS records ∧ last = lastDigest sha256 records :=
    fun _ => scan_records sha256 h
  rw [accepts, verifyChain]
  dsimp only
  cases hScan : walk sha256 floats (nonblankLines raw) with
  | error fault =>
    have hNot : ¬ Linked sha256 GENESIS records := by
      intro hLinked
      rw [(hWalk _).mpr ⟨hLinked, rfl⟩] at hScan
      cases hScan
    obtain ⟨number, stop⟩ := fault
    cases stop with
    | fault fault => simp [hNot]
    | attributeError => simp [hNot]
  | ok last =>
    obtain ⟨hLinked, rfl⟩ := (hWalk last).mp hScan
    rw [← length_records h]
    constructor
    · intro hAccepted
      refine ⟨hLinked, ?_⟩
      split at hAccepted
      · rename_i result hHead
        rw [(checkHead_ok hHead hAccepted).1] at hHead
        exact hHead
      · cases hAccepted
    · rintro ⟨_, hHead⟩
      rw [HeadNames] at hHead
      dsimp only
      rw [hHead]

/-- A sidecar names one digest. -/
theorem HeadNames.unique {head sha sha' : Text} {lines lines' : Nat}
    (h : HeadNames floats head sha lines) (h' : HeadNames floats head sha' lines') :
    sha = sha' := by
  obtain ⟨_, record, hLoads, hSha⟩ := checkHead_ok h rfl
  obtain ⟨_, record', hLoads', hSha'⟩ := checkHead_ok h' rfl
  rw [hLoads] at hLoads'
  cases hLoads'
  rw [hSha] at hSha'
  cases codes_injective (Value.str.inj (Option.some.inj hSha'))
  rfl

theorem canonical_records {lines : List Text} {records : List Dict}
    (h : lines.mapM (recordOf floats) = some records) {record : Dict} (hMem : record ∈ records) :
    Canonical floats (.obj record) := by
  induction lines generalizing records with
  | nil =>
    cases h
    cases hMem
  | cons line more ih =>
    obtain ⟨first, rest, hFirst, hRest, rfl⟩ := records_cons.mp h
    rcases List.mem_cons.mp hMem with rfl | hMem
    · exact canonical_of_loads (loads_of_recordOf hFirst)
    · exact ih hRest hMem

theorem canonical_chained {record : Dict} (h : Canonical floats (.obj record)) :
    Canonical floats (.obj (chained record)) :=
  ⟨canonicalMembers_iff.mpr fun member hMem =>
    canonicalMembers_iff.mp h.1 member (List.mem_of_mem_filter hMem), h.2.restrict chainedFields⟩

theorem digest_eq_iff (hCollisionFree : CollisionFree sha256) {record record' : Dict}
    (h : Canonical floats (.obj record)) (h' : Canonical floats (.obj record')) :
    digest sha256 record = digest sha256 record' ↔ chained record = chained record' := by
  constructor
  · intro hSame
    have hPayload := hCollisionFree record record' hSame
    exact Value.obj.inj (dumps_injective (canonical_chained h) (canonical_chained h') hPayload)
  · intro hSame
    rw [digest, digest, chainPayload, chainPayload]
    exact congrArg (fun dict => sha256 (dumps (.obj dict))) hSame

/-- Logs of one length have one head exactly if their last records agree. -/
theorem lastDigest_eq_iff (hCollisionFree : CollisionFree sha256) {raw raw' : Text}
    {records records' : List Dict} (h : recordsOf floats raw = some records)
    (h' : recordsOf floats raw' = some records') (hLength : records'.length = records.length) :
    lastDigest sha256 records' = lastDigest sha256 records ↔
      records'.getLast?.map chained = records.getLast?.map chained := by
  rw [lastDigest, lastDigest]
  cases hLast : records.getLast? with
  | none =>
    rw [List.getLast?_eq_none_iff.mp hLast, List.length_nil, List.length_eq_zero_iff] at hLength
    simp [hLength]
  | some last =>
    cases hLast' : records'.getLast? with
    | none =>
      rw [List.getLast?_eq_none_iff.mp hLast', List.length_nil, eq_comm,
        List.length_eq_zero_iff] at hLength
      rw [hLength] at hLast
      cases hLast
    | some last' =>
      have hMem := canonical_records h (List.mem_of_getLast? hLast)
      have hMem' := canonical_records h' (List.mem_of_getLast? hLast')
      rw [Option.map_some, Option.map_some, Option.map_some, Option.map_some, Option.getD_some,
        Option.getD_some, Option.some.injEq]
      exact digest_eq_iff hCollisionFree hMem' hMem

theorem edit_rejected_iff (sha256 : Text → Text) (floats : FloatFormat)
    (hCollisionFree : CollisionFree sha256) (raw raw' head : Text) (records records' : List Dict)
    (hRecords : recordsOf floats raw = some records)
    (hRecords' : recordsOf floats raw' = some records')
    (hAccepted : accepts sha256 floats ⟨some raw, some head⟩ = true)
    (hLength : records'.length = records.length) :
    accepts sha256 floats ⟨some raw', some head⟩ = false ↔
      ¬ Linked sha256 GENESIS records' ∨
        records'.getLast?.map chained ≠ records.getLast?.map chained := by
  obtain ⟨_, hHead⟩ := (accepts_records hRecords).mp hAccepted
  have hLast := lastDigest_eq_iff hCollisionFree hRecords hRecords' hLength
  rw [← Bool.not_eq_true, accepts_records hRecords', not_and_or, hLength]
  refine or_congr_right (not_congr ?_)
  rw [← hLast]
  constructor
  · exact fun hHead' => hHead'.unique hHead
  · intro hSame
    rw [hSame]
    exact hHead

/-- Three records of a log, the first of them with a reason of its own. -/
def threeRecords (reason : Text) : List Act :=
  let entry : Entry := ⟨['a'], ['d'], ['r'], some 1, ['o'], [], some ['t'], false⟩
  [.restart, .record ⟨['0'], { entry with reason := reason }, .completes, .completes⟩,
    .record ⟨['1'], entry, .completes, .completes⟩, .record ⟨['2'], entry, .completes, .completes⟩]

def threeLines (reason : Text) : Text :=
  (Process.after id .verbatim [] (threeRecords reason)).files.log.getD []

def threeHead : Text :=
  (Process.after id .verbatim [] (threeRecords ['x'])).files.head.getD []

theorem collisionFree_id : CollisionFree id := fun _ _ h => h

theorem edit_rejected_iff_redigested :
    accepts id .verbatim ⟨some (threeLines ['y']), some threeHead⟩ = false ↔
      ¬ Linked id GENESIS ((recordsOf .verbatim (threeLines ['y'])).getD []) ∨
        ((recordsOf .verbatim (threeLines ['y'])).getD []).getLast?.map chained ≠
          ((recordsOf .verbatim (threeLines ['x'])).getD []).getLast?.map chained := by
  have hRead : (recordsOf .verbatim (threeLines ['x'])).isSome = true ∧
      (recordsOf .verbatim (threeLines ['y'])).isSome = true := by decide +kernel
  obtain ⟨records, hRecords⟩ := Option.isSome_iff_exists.mp hRead.1
  obtain ⟨records', hRecords'⟩ := Option.isSome_iff_exists.mp hRead.2
  have hLength : (recordsOf .verbatim (threeLines ['y'])).map List.length =
      (recordsOf .verbatim (threeLines ['x'])).map List.length := by decide +kernel
  rw [hRecords, hRecords'] at hLength
  rw [hRecords, hRecords']
  exact edit_rejected_iff id .verbatim collisionFree_id (threeLines ['x']) (threeLines ['y'])
    threeHead records records' hRecords hRecords' (by decide +kernel) (Option.some.inj hLength)

/-- The reason of the first record is another, and every digest is redone. -/
theorem redigested_edit_accepted :
    CollisionFree id ∧
      accepts id .verbatim ⟨some (threeLines ['x']), some threeHead⟩ = true ∧
      (nonblankLines (threeLines ['y'])).length = (nonblankLines (threeLines ['x'])).length ∧
      (recordsOf .verbatim (threeLines ['y'])).map (fun records =>
        records.map chainPayload) ≠
        (recordsOf .verbatim (threeLines ['x'])).map (fun records => records.map chainPayload) ∧
      accepts id .verbatim ⟨some (threeLines ['y']), some threeHead⟩ = true :=
  ⟨collisionFree_id, by decide +kernel⟩

end AccessBroker.Audit
