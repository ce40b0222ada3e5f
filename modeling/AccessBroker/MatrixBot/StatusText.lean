import AccessBroker.MatrixBot.StatusBlock

/-! # Reading the status block

The approver reads the posted text line by line. Paths and instance names are put into it as they
are, so a name that heads a group, and every line that a name or a path begins anew, may read as
an entry that the block does not have.
-/

namespace AccessBroker.MatrixBot
open Py Grants Paths
set_option autoImplicit false

/-! ## Entries -/

/-- What a line lists, with its number as it stands there. -/
inductive Entry where
  | active (number : Text)
  | waiting (number : Text)
  | awaiting (count : Text)
  deriving DecidableEq

def Entry.active? : Entry → Option Text
  | active number => some number
  | _ => none

def Entry.waiting? : Entry → Option Text
  | waiting number => some number
  | _ => none

def Entry.awaiting? : Entry → Option Text
  | awaiting count => some count
  | _ => none

/-- The digits between two texts that a line begins with. -/
def readNumber (before after line : Text) : Option Text := do
  let rest ← line.dropPrefix? before
  let number := rest.takeWhile Char.isDigit
  if number = [] then none
  else ((rest.dropWhile Char.isDigit).dropPrefix? after).map fun _ => number

/-- A line that begins as `✅ **#N** — `, as `⏳ **#N** — `, or as `**Awaiting your approval** (N):`,
or that says that there is none. -/
def readEntry (line : Text) : Option Entry :=
  ((readNumber "✅ **#".toList "** — ".toList line).map .active).or
    (((readNumber "⏳ **#".toList "** — ".toList line).map .waiting).or
      (((readNumber "**Awaiting your approval** (".toList "):".toList line).map .awaiting).or
        (((line.dropPrefix? "Awaiting your approval: none".toList).map fun _ => .awaiting "0".toList))))

def entries (text : Text) : List Entry := (text.splitOn '\n').filterMap readEntry

/-- The entries that the lines of a text show after its first. -/
def laterEntries (text : Text) : List Entry := (text.splitOn '\n').tail.filterMap readEntry

def activeShown (text : Text) : List Text := (entries text).filterMap Entry.active?

def waitingShown (text : Text) : List Text := (entries text).filterMap Entry.waiting?

def countsShown (text : Text) : List Text := (entries text).filterMap Entry.awaiting?

section Truth

variable (store : Settings) (now : Int) (db : Database)

/-- The text lists the effectively active grants and the effectively pending requests, each once,
and counts the latter. -/
structure TellsTruth (text : Text) : Prop where
  activeOnce : (activeShown text).Nodup
  active : ∀ number, number ∈ activeShown text ↔ ∃ rid row, number = decimal (rid : Nat) ∧
    db.grants.get? rid = some row ∧ effectiveState store now row = .active
  waitingOnce : (waitingShown text).Nodup
  waiting : ∀ number, number ∈ waitingShown text ↔ ∃ rid row, number = decimal (rid : Nat) ∧
    db.grants.get? rid = some row ∧ effectiveState store now row = .pending
  approvable : ∀ number, number ∈ waitingShown text ↔
    ∃ rid, number = decimal (rid : Nat) ∧ Approvable store now db rid
  counted : countsShown text = [decimal (waitingShown text).length]

def activeNames : Set Text :=
  {name | ∃ rid row, db.grants.get? rid = some row ∧ effectiveState store now row = .active ∧
    row.instanceName = name}

/-- Nothing that the block takes up from the store reads as a further entry: no line of a name that
heads a group, and no line after the first of a name that ends a grant's line, of an item's path, or
of a name that a request's line goes on from. -/
structure Unforged : Prop where
  headings : (activeNames store now db).Nontrivial → ∀ name ∈ activeNames store now db,
    entries (name ++ ":".toList) = []
  grants : (activeNames store now db).Subsingleton → ∀ name ∈ activeNames store now db,
    laterEntries name = []
  items : ∀ rid row, db.grants.get? rid = some row → effectiveState store now row = .active →
    ∀ item ∈ row.items, laterEntries (item.path ++ "`".toList) = []
  requests : ∀ rid row, db.grants.get? rid = some row → row.state = .pending →
    laterEntries (row.instanceName ++ (" — waiting ".toList ++
      (formatRemaining (now - row.createdAt) ++ agingMarker now row.createdAt))) = []

end Truth

/-! ## Reading a rendered line -/

theorem readNumber_eq (before after : Text) {number : Text} (hNumber : number ≠ [])
    (hDigits : ∀ c ∈ number, c.isDigit = true)
    (hAfter : ∀ more, (after ++ more).takeWhile Char.isDigit = []) (more : Text) :
    readNumber before after (before ++ (number ++ (after ++ more))) = some number := by
  have hBefore : (before ++ (number ++ (after ++ more))).dropPrefix? before =
      some (number ++ (after ++ more)) := dropPrefix?_eq_some_iff.mpr rfl
  have hTake : (number ++ (after ++ more)).takeWhile Char.isDigit = number := by
    rw [List.takeWhile_append_of_pos hDigits, hAfter, List.append_nil]
  have hRest : (number ++ (after ++ more)).dropWhile Char.isDigit = after ++ more := by
    have hSplit := List.takeWhile_append_dropWhile (p := Char.isDigit) (l := number ++ (after ++ more))
    rw [hTake] at hSplit
    exact List.append_cancel_left hSplit
  have hAfter' : (after ++ more).dropPrefix? after = some more := dropPrefix?_eq_some_iff.mpr rfl
  rw [readNumber, hBefore]
  simp only [Option.bind_eq_bind, Option.bind_some, hTake, hRest, if_neg hNumber, hAfter',
    Option.map_some]

theorem dropPrefix?_eq_none {c d : Char} (h : d ≠ c) (pre line : Text) :
    (c :: line).dropPrefix? (d :: pre) = none := by
  cases hDrop : (c :: line).dropPrefix? (d :: pre) with
  | none => rfl
  | some rest => exact absurd (List.cons.inj (dropPrefix?_eq_some_iff.mp hDrop)).1.symm h

theorem readNumber_eq_none {c d : Char} (h : d ≠ c) (before after line : Text) :
    readNumber (d :: before) after (c :: line) = none := by
  rw [readNumber, dropPrefix?_eq_none h]
  rfl

/-- A line that begins with none of the four symbols lists nothing. -/
theorem readEntry_eq_none {c : Char} (h : c ∉ "✅⏳*A".toList) (line : Text) :
    readEntry (c :: line) = none := by
  have hApart : '✅' ≠ c ∧ '⏳' ≠ c ∧ '*' ≠ c ∧ 'A' ≠ c := by simpa [eq_comm] using h
  obtain ⟨hActive, hWaiting, hStar, hLetter⟩ := hApart
  have hA : readNumber "✅ **#".toList "** — ".toList (c :: line) = none :=
    readNumber_eq_none hActive _ _ _
  have hW : readNumber "⏳ **#".toList "** — ".toList (c :: line) = none :=
    readNumber_eq_none hWaiting _ _ _
  have hH : readNumber "**Awaiting your approval** (".toList "):".toList (c :: line) = none :=
    readNumber_eq_none hStar _ _ _
  have hN : (c :: line).dropPrefix? "Awaiting your approval: none".toList = none :=
    dropPrefix?_eq_none hLetter _ _
  rw [readEntry, hA, hW, hH, hN]
  rfl

theorem readEntry_grant (rid : Nat) (more : Text) :
    readEntry ("✅ **#".toList ++ decimal rid ++ "** — ".toList ++ more) =
      some (.active (decimal rid)) := by
  have hRead := readNumber_eq "✅ **#".toList "** — ".toList
    (decimal_digits rid).1 (decimal_digits rid).2 (fun _ => rfl) more
  rw [List.append_assoc, List.append_assoc, readEntry, hRead]
  rfl

theorem readEntry_waiting (rid : Nat) (more : Text) :
    readEntry ("⏳ **#".toList ++ decimal rid ++ "** — ".toList ++ more) =
      some (.waiting (decimal rid)) := by
  have hActive : readNumber "✅ **#".toList "** — ".toList
      ("⏳ **#".toList ++ (decimal rid ++ ("** — ".toList ++ more))) = none :=
    readNumber_eq_none (by decide) _ _ _
  have hRead := readNumber_eq "⏳ **#".toList "** — ".toList
    (decimal_digits rid).1 (decimal_digits rid).2 (fun _ => rfl) more
  rw [List.append_assoc, List.append_assoc, readEntry, hActive, hRead]
  rfl

theorem readEntry_heading (count : Nat) (more : Text) :
    readEntry ("**Awaiting your approval** (".toList ++ decimal count ++ "):".toList ++ more) =
      some (.awaiting (decimal count)) := by
  have hActive : readNumber "✅ **#".toList "** — ".toList
      ("**Awaiting your approval** (".toList ++ (decimal count ++ ("):".toList ++ more))) = none :=
    readNumber_eq_none (by decide) _ _ _
  have hWaiting : readNumber "⏳ **#".toList "** — ".toList
      ("**Awaiting your approval** (".toList ++ (decimal count ++ ("):".toList ++ more))) = none :=
    readNumber_eq_none (by decide) _ _ _
  have hRead := readNumber_eq "**Awaiting your approval** (".toList "):".toList
    (decimal_digits count).1 (decimal_digits count).2 (fun _ => rfl) more
  rw [List.append_assoc, List.append_assoc, readEntry, hActive, hWaiting, hRead]
  rfl

def StatusLine.entry : StatusLine → Option Entry
  | grant rid _ _ _ => some (.active (decimal rid))
  | waiting rid _ _ _ => some (.waiting (decimal rid))
  | noneAwaiting => some (.awaiting (decimal 0))
  | awaitingHeading count => some (.awaiting (decimal count))
  | _ => none

/-- The entries that a rendered line shows beside its own. -/
def StatusLine.stray : StatusLine → List Entry
  | instanceHeading name => entries (name ++ ":".toList)
  | grant _ modes remaining instanceName =>
    laterEntries (modes ++ (", ".toList ++ (remaining ++ (" left".toList ++
      instanceName.elim [] (" — ".toList ++ ·)))))
  | item shown => laterEntries (upper shown.mode ++ ("** `".toList ++ (shown.path ++ "`".toList)))
  | waiting _ instanceName age marker =>
    laterEntries (instanceName ++ (" — waiting ".toList ++ (age ++ marker)))
  | footer parts => entries (" · ".toList.intercalate parts)
  | _ => []

theorem newline_notMem_decimal (n : Nat) : '\n' ∉ decimal n :=
  fun h => absurd ((decimal_digits n).2 _ h) (by decide)

theorem newline_notMem_numbered (before after : Text) (hBefore : '\n' ∉ before)
    (hAfter : '\n' ∉ after) (n : Nat) : '\n' ∉ before ++ decimal n ++ after := by
  simp [hBefore, hAfter, newline_notMem_decimal]

/-- A line whose beginning settles what it lists. -/
theorem entries_append {head : Text} (hHead : '\n' ∉ head) {first : Option Entry}
    (hRead : ∀ more, readEntry (head ++ more) = first) (text : Text) :
    entries (head ++ text) = first.toList ++ laterEntries text :=
  Components.readings_append hHead hRead text

theorem entries_text (line : StatusLine) :
    entries line.text = line.entry.toList ++ line.stray := by
  cases line with
  | activeHeading => decide +kernel
  | instanceHeading name => rfl
  | grant rid modes remaining instanceName =>
    have hHead := newline_notMem_numbered "✅ **#".toList "** — ".toList
      (by decide) (by decide) rid
    have hLine := entries_append hHead (readEntry_grant rid)
      (modes ++ (", ".toList ++ (remaining ++ (" left".toList ++
        instanceName.elim [] (" — ".toList ++ ·)))))
    unfold StatusLine.text
    simp only [List.append_assoc] at hLine ⊢
    exact hLine
  | item shown =>
    have hLine := entries_append (show '\n' ∉ "   **".toList by decide)
      (fun more => readEntry_eq_none (by decide) _)
      (upper shown.mode ++ ("** `".toList ++ (shown.path ++ "`".toList)))
    unfold StatusLine.text
    simp only [List.append_assoc] at hLine ⊢
    exact hLine
  | noneActive => decide +kernel
  | blank => decide +kernel
  | noneAwaiting => decide +kernel
  | awaitingHeading count =>
    have hHead := newline_notMem_numbered "**Awaiting your approval** (".toList "):".toList
      (by decide) (by decide) count
    have hLine := entries_append hHead (readEntry_heading count) []
    rw [List.append_nil] at hLine
    exact hLine
  | waiting rid instanceName age marker =>
    have hHead := newline_notMem_numbered "⏳ **#".toList "** — ".toList
      (by decide) (by decide) rid
    have hLine := entries_append hHead (readEntry_waiting rid)
      (instanceName ++ (" — waiting ".toList ++ (age ++ marker)))
    unfold StatusLine.text
    simp only [List.append_assoc] at hLine ⊢
    exact hLine
  | footer parts => rfl

/-- The text lists what its lines list, and beside it what they show without listing it. -/
theorem entries_status (status : Status) :
    (entries status.text).Perm
      (status.lines.filterMap StatusLine.entry ++ status.lines.flatMap StatusLine.stray) := by
  have hLines : status.lines.map StatusLine.text ≠ [] := by simp [Status.lines]
  have hText : entries status.text =
      status.lines.flatMap fun line => line.entry.toList ++ line.stray := by
    rw [Status.text, entries, ← Components.readings, Components.readings_intercalate hLines,
      List.flatMap_map]
    exact List.flatMap_congr fun line _ => entries_text line
  have hOwn : status.lines.flatMap (fun line => line.entry.toList) =
      status.lines.filterMap StatusLine.entry := by
    rw [List.filterMap_eq_flatMap_toList]
  rw [hText, ← hOwn]
  exact (List.flatMap_append_perm _ _ _).symm

/-! ## What is shown, and by which lines -/

/-- What is shown of a kind is what the lines list of it, and what is stray. -/
theorem shown_perm (kind : Entry → Option Text) (own : StatusLine → Option Nat)
    (hOwn : ∀ line : StatusLine, line.entry.bind kind = (own line).map fun n : Nat => decimal n)
    (status : Status) :
    ((entries status.text).filterMap kind).Perm
      ((status.lines.filterMap own).map (fun n : Nat => decimal n) ++
        (status.lines.flatMap StatusLine.stray).filterMap kind) := by
  have hLines : (status.lines.filterMap StatusLine.entry).filterMap kind =
      (status.lines.filterMap own).map fun n : Nat => decimal n := by
    rw [List.filterMap_filterMap, List.map_filterMap]
    exact List.filterMap_congr fun line _ => hOwn line
  rw [← hLines, ← List.filterMap_append]
  exact (entries_status status).filterMap kind

theorem activeShown_perm (status : Status) :
    (activeShown status.text).Perm ((activeIds status.lines).map (fun rid : Nat => decimal rid) ++
      (status.lines.flatMap StatusLine.stray).filterMap Entry.active?) :=
  shown_perm _ _ (fun line => by cases line <;> rfl) status

theorem waitingShown_perm (status : Status) :
    (waitingShown status.text).Perm ((waitingIds status.lines).map (fun rid : Nat => decimal rid) ++
      (status.lines.flatMap StatusLine.stray).filterMap Entry.waiting?) :=
  shown_perm _ _ (fun line => by cases line <;> rfl) status

theorem countsShown_perm (status : Status) :
    (countsShown status.text).Perm (decimal status.pending.length ::
      (status.lines.flatMap StatusLine.stray).filterMap Entry.awaiting?) := by
  have hShown := shown_perm Entry.awaiting? StatusLine.awaitingCount
    (fun line => by cases line <;> rfl) status
  rw [awaitingCount_lines] at hShown
  exact hShown

/-- What is shown once each and is all known leaves room for nothing beside the known. -/
theorem eq_nil_of_perm_append {α : Type} {shown known stray : List α}
    (h : shown.Perm (known ++ stray)) (hOnce : shown.Nodup) (hKnown : ∀ x ∈ shown, x ∈ known) :
    stray = [] := by
  have hApart := (List.nodup_append'.mp (h.nodup_iff.mp hOnce)).2.2
  refine List.eq_nil_iff_forall_not_mem.mpr fun x hStray => ?_
  have hShown : x ∈ shown := h.mem_iff.mpr (List.mem_append_right known hStray)
  exact hApart (hKnown x hShown) hStray

/-- An entry is of one of the three kinds. -/
theorem entries_eq_nil {found : List Entry} (hActive : found.filterMap Entry.active? = [])
    (hWaiting : found.filterMap Entry.waiting? = []) (hCount : found.filterMap Entry.awaiting? = []) :
    found = [] := by
  refine List.eq_nil_iff_forall_not_mem.mpr fun entry hEntry => ?_
  cases entry with
  | active number => cases List.filterMap_eq_nil_iff.mp hActive _ hEntry
  | waiting number => cases List.filterMap_eq_nil_iff.mp hWaiting _ hEntry
  | awaiting count => cases List.filterMap_eq_nil_iff.mp hCount _ hEntry

section Truth

variable {store : Settings} {now : Int} {db : Database}

/-- The lines tell the truth when no request has timed out, and then the text does when nothing is
stray. -/
theorem tellsTruth_of_timely
    (hTimely : ∀ rid row, db.grants.get? rid = some row → ¬ row.TimedOut store now)
    (hStray : (statusAt store now db).lines.flatMap StatusLine.stray = []) :
    TellsTruth store now db (statusAt store now db).text := by
  have hActive := activeShown_perm (statusAt store now db)
  have hWaiting := waitingShown_perm (statusAt store now db)
  have hCount := countsShown_perm (statusAt store now db)
  rw [hStray, List.filterMap_nil, List.append_nil] at hActive hWaiting
  rw [hStray, List.filterMap_nil] at hCount
  have hIds : ∀ rid, rid ∈ waitingIds (statusAt store now db).lines ↔
      ∃ row, db.grants.get? rid = some row ∧ effectiveState store now row = .pending := by
    intro rid
    rw [mem_waitingIds]
    constructor
    · rintro ⟨row, hRow, hState⟩
      exact ⟨row, hRow, (timedOut_or_pending hState).resolve_left (hTimely rid row hRow)⟩
    · rintro ⟨row, hRow, hState⟩
      exact ⟨row, hRow, (effectiveState_eq_pending.mp hState).1⟩
  have hNumbers : ∀ number, number ∈ waitingShown (statusAt store now db).text ↔
      ∃ rid, number = decimal (rid : Nat) ∧ Approvable store now db rid := by
    intro number
    rw [hWaiting.mem_iff, List.mem_map]
    constructor
    · rintro ⟨rid, hRid, rfl⟩
      exact ⟨rid, rfl, approvable_iff.mpr ((hIds rid).mp hRid)⟩
    · rintro ⟨rid, rfl, hApprovable⟩
      exact ⟨rid, (hIds rid).mpr (approvable_iff.mp hApprovable), rfl⟩
  constructor
  · refine hActive.nodup_iff.mpr (List.Nodup.map (fun _ _ => decimal_injective) ?_)
    exact (activeIds_lines _).nodup_iff.mpr (activeGrants_nodup now none db)
  · intro number
    rw [hActive.mem_iff, List.mem_map]
    constructor
    · rintro ⟨rid, hRid, rfl⟩
      obtain ⟨row, hRow, hState⟩ := mem_activeIds.mp hRid
      exact ⟨rid, row, rfl, hRow, hState⟩
    · rintro ⟨rid, row, rfl, hRow, hState⟩
      exact ⟨rid, mem_activeIds.mpr ⟨row, hRow, hState⟩, rfl⟩
  · exact hWaiting.nodup_iff.mpr (waitingIds_nodup.map fun _ _ => decimal_injective)
  · intro number
    rw [hNumbers]
    constructor
    · rintro ⟨rid, hNumber, hApprovable⟩
      obtain ⟨row, hRow, hState⟩ := approvable_iff.mp hApprovable
      exact ⟨rid, row, hNumber, hRow, hState⟩
    · rintro ⟨rid, row, hNumber, hRow, hState⟩
      exact ⟨rid, hNumber, approvable_iff.mpr ⟨row, hRow, hState⟩⟩
  · exact hNumbers
  · rw [hWaiting.length_eq, List.length_map, waitingIds_lines, List.length_map]
    exact List.perm_singleton.mp hCount

theorem TellsTruth.timely (h : TellsTruth store now db (statusAt store now db).text) {rid : Nat}
    {row : Row} (hRow : db.grants.get? rid = some row) : ¬ row.TimedOut store now := by
  intro hTimedOut
  have hListed : decimal rid ∈ waitingShown (statusAt store now db).text := by
    rw [(waitingShown_perm _).mem_iff]
    refine List.mem_append_left _ (List.mem_map_of_mem ?_)
    exact mem_waitingIds.mpr ⟨row, hRow, hTimedOut.1⟩
  obtain ⟨rid', row', hNumber, hRow', hState⟩ := (h.waiting _).mp hListed
  rw [← decimal_injective hNumber, hRow] at hRow'
  cases hRow'
  rw [effectiveState_timedOut hTimedOut] at hState
  cases hState

theorem TellsTruth.unforged (h : TellsTruth store now db (statusAt store now db).text) :
    (statusAt store now db).lines.flatMap StatusLine.stray = [] := by
  refine entries_eq_nil ?_ ?_ ?_
  · refine eq_nil_of_perm_append (activeShown_perm _) h.activeOnce fun number hShown => ?_
    obtain ⟨rid, row, rfl, hRow, hState⟩ := (h.active number).mp hShown
    exact List.mem_map_of_mem (mem_activeIds.mpr ⟨row, hRow, hState⟩)
  · refine eq_nil_of_perm_append (waitingShown_perm _) h.waitingOnce fun number hShown => ?_
    obtain ⟨rid, row, rfl, hRow, hState⟩ := (h.waiting number).mp hShown
    refine List.mem_map_of_mem (mem_waitingIds.mpr ⟨row, hRow, ?_⟩)
    exact (effectiveState_eq_pending.mp hState).1
  · have hLength := (countsShown_perm (statusAt store now db)).length_eq
    rw [h.counted] at hLength
    exact List.length_eq_zero_iff.mp (Nat.succ.inj hLength).symm

theorem tellsTruth_iff_stray :
    TellsTruth store now db (statusAt store now db).text ↔
      (∀ rid row, db.grants.get? rid = some row → ¬ row.TimedOut store now) ∧
        (statusAt store now db).lines.flatMap StatusLine.stray = [] :=
  ⟨fun h => ⟨fun _ _ => h.timely, h.unforged⟩, fun h => tellsTruth_of_timely h.1 h.2⟩

/-! ## What of the store can be stray -/

theorem newline_notMem_remaining (delta : Int) : '\n' ∉ formatRemaining delta := by
  dsimp only [formatRemaining]
  split <;> rw [List.mem_append, not_or] <;> exact ⟨newline_notMem_decimal _, by decide⟩

theorem mem_intercalate {sep : Text} {c : Char} {parts : List Text}
    (h : c ∈ sep.intercalate parts) : c ∈ sep ∨ ∃ part ∈ parts, c ∈ part := by
  induction parts with
  | nil => simp at h
  | cons part parts ih =>
    cases parts with
    | nil => exact Or.inr ⟨part, List.mem_singleton_self part, by simpa using h⟩
    | cons next parts =>
      rw [List.intercalate_cons_cons, List.mem_append, List.mem_append] at h
      rcases h with (hPart | hSep) | hRest
      · exact Or.inr ⟨part, List.mem_cons_self, hPart⟩
      · exact Or.inl hSep
      · exact (ih hRest).imp_right fun ⟨other, hOther, hMem⟩ =>
          ⟨other, List.mem_cons_of_mem part hOther, hMem⟩

theorem newline_notMem_upper {mode : Text} (h : mode ∈ modes) : '\n' ∉ upper mode := by
  rcases List.mem_pair.mp h with rfl | rfl <;> decide

theorem newline_notMem_modesLabel {record : GrantRecord}
    (h : ∀ item ∈ record.items, item.mode ∈ modes) : '\n' ∉ modesLabel record := by
  intro hMem
  rcases mem_intercalate hMem with hSep | ⟨part, hPart, hMem⟩
  · exact absurd hSep (by decide)
  · obtain ⟨item, hItem, rfl⟩ := List.mem_map.mp (mem_sortedSet.mp hPart)
    exact newline_notMem_upper (h item hItem) hMem

theorem laterEntries_append {head : Text} (h : '\n' ∉ head) (text : Text) :
    laterEntries (head ++ text) = laterEntries text :=
  Components.laterReadings_append h text

theorem stray_grant {record : GrantRecord} (hModes : ∀ item ∈ record.items, item.mode ∈ modes)
    (rid : Nat) (delta : Int) (instanceName : Option Text) :
    (StatusLine.grant rid (modesLabel record) (formatRemaining delta) instanceName).stray =
      laterEntries (instanceName.getD []) := by
  have hLabel := newline_notMem_modesLabel hModes
  have hRemaining := newline_notMem_remaining delta
  have hLine : (StatusLine.grant rid (modesLabel record) (formatRemaining delta) instanceName).stray =
      laterEntries (instanceName.elim [] (" — ".toList ++ ·)) := by
    unfold StatusLine.stray
    dsimp only
    rw [laterEntries_append hLabel, laterEntries_append (by decide), laterEntries_append hRemaining,
      laterEntries_append (by decide)]
  rw [hLine]
  cases instanceName with
  | none => rfl
  | some name => exact laterEntries_append (by decide) name

theorem stray_item {item : Item} (hMode : item.mode ∈ modes) :
    (StatusLine.item item).stray = laterEntries (item.path ++ "`".toList) := by
  unfold StatusLine.stray
  dsimp only
  rw [laterEntries_append (newline_notMem_upper hMode), laterEntries_append (by decide)]

theorem stray_activeGrantLines {now : Int} {withInstance : Bool} {record : GrantRecord}
    (hModes : ∀ item ∈ record.items, item.mode ∈ modes) :
    (∀ line ∈ activeGrantLines now withInstance record, line.stray = []) ↔
      (withInstance = true → laterEntries record.instanceName = []) ∧
        ∀ item ∈ record.items, laterEntries (item.path ++ "`".toList) = [] := by
  have hItems : (∀ line ∈ record.items.map StatusLine.item, line.stray = []) ↔
      ∀ item ∈ record.items, laterEntries (item.path ++ "`".toList) = [] := by
    rw [List.forall_mem_map]
    refine forall₂_congr fun item hItem => ?_
    rw [stray_item (hModes item hItem)]
  rw [activeGrantLines, List.forall_mem_cons, hItems, stray_grant hModes]
  cases withInstance
  · have hNone : laterEntries [] = [] := rfl
    simp [hNone]
  · simp

theorem stray_footerLines (status : Status) : ∀ line ∈ status.footerLines, line.stray = [] := by
  intro line hLine
  rw [Status.footerLines] at hLine
  split at hLine
  · cases hLine
  rcases List.mem_pair.mp hLine with rfl | rfl
  · rfl
  · rw [Status.footerParts]
    split <;> split <;> decide +kernel

theorem stray_awaitingLines (status : Status) :
    (∀ line ∈ status.awaitingLines, line.stray = []) ↔
      ∀ record ∈ status.pending, (waitingLine status.now record).stray = [] := by
  rw [Status.awaitingLines]
  split
  · rename_i hNone
    rw [hNone]
    simp [StatusLine.stray]
  · rw [List.forall_mem_cons, List.forall_mem_map]
    exact and_iff_right rfl

/-- Where the lines of the grants can be stray: in the headings of the groups or in the names that
end the lines, and in the items either way. -/
theorem stray_activeLines {status : Status}
    (hModes : ∀ record ∈ status.active, ∀ item ∈ record.items, item.mode ∈ modes) :
    (∀ line ∈ status.activeLines, line.stray = []) ↔
      (1 < status.instanceNames.length →
        ∀ name ∈ status.instanceNames, entries (name ++ ":".toList) = []) ∧
      (¬ 1 < status.instanceNames.length →
        ∀ name ∈ status.instanceNames, laterEntries name = []) ∧
      ∀ record ∈ status.active, ∀ item ∈ record.items,
        laterEntries (item.path ++ "`".toList) = [] := by
  have hName : ∀ {name}, name ∈ status.instanceNames ↔
      ∃ record ∈ status.active, record.instanceName = name := by
    intro name
    rw [Status.instanceNames, mem_sortedSet, List.mem_map]
  rw [Status.activeLines]
  split
  · rename_i hMany
    have hGroup : ∀ name, (∀ line ∈ StatusLine.instanceHeading name ::
          (status.active.filter fun record => record.instanceName = name).flatMap
            (activeGrantLines status.now false), line.stray = []) ↔
        entries (name ++ ":".toList) = [] ∧
          ∀ record ∈ status.active, record.instanceName = name → ∀ item ∈ record.items,
            laterEntries (item.path ++ "`".toList) = [] := by
      intro name
      rw [List.forall_mem_cons]
      refine and_congr Iff.rfl ?_
      simp only [List.forall_mem_flatMap, List.mem_filter, decide_eq_true_eq, and_imp]
      refine forall₃_congr fun record hRecord _ => ?_
      rw [stray_activeGrantLines (hModes record hRecord)]
      exact and_iff_right fun h => by cases h
    rw [List.forall_mem_flatMap]
    simp only [hGroup]
    constructor
    · intro h
      refine ⟨fun _ name hMem => (h name hMem).1, fun hFew => absurd hMany hFew, ?_⟩
      exact fun record hRecord => (h _ (hName.mpr ⟨record, hRecord, rfl⟩)).2 record hRecord rfl
    · rintro ⟨hHeadings, _, hItems⟩ name hMem
      exact ⟨hHeadings hMany name hMem, fun record hRecord _ => hItems record hRecord⟩
  · rename_i hFew
    simp only [List.forall_mem_flatMap]
    constructor
    · intro h
      have hLines := fun record hRecord => (stray_activeGrantLines (hModes record hRecord)).mp
        (h record hRecord)
      refine ⟨fun hMany => absurd hMany hFew, fun _ name hMem => ?_, fun record hRecord => ?_⟩
      · obtain ⟨record, hRecord, rfl⟩ := hName.mp hMem
        exact (hLines record hRecord).1 rfl
      · exact (hLines record hRecord).2
    · rintro ⟨_, hNames, hItems⟩ record hRecord
      refine (stray_activeGrantLines (hModes record hRecord)).mpr ⟨fun _ => ?_, hItems record hRecord⟩
      exact hNames hFew _ (hName.mpr ⟨record, hRecord, rfl⟩)

theorem stray_lines (status : Status) :
    status.lines.flatMap StatusLine.stray = [] ↔
      (∀ line ∈ status.activeLines, line.stray = []) ∧
        ∀ record ∈ status.pending, (waitingLine status.now record).stray = [] := by
  have hActive : (∀ line ∈ if status.activeLines = [] then [.noneActive] else status.activeLines,
      line.stray = []) ↔ ∀ line ∈ status.activeLines, line.stray = [] := by
    split
    · rename_i hNone
      rw [hNone]
      simp [StatusLine.stray]
    · rfl
  have hFooter := stray_footerLines status
  rw [List.flatMap_eq_nil_iff, Status.lines]
  simp only [List.forall_mem_append, List.forall_mem_singleton, hActive, stray_awaitingLines,
    iff_true_intro hFooter, and_true]
  exact and_congr_left fun _ => (and_iff_left rfl).trans (and_iff_right rfl)

theorem mem_active {record : GrantRecord} :
    record ∈ (statusAt store now db).active ↔ ∃ row, db.grants.get? record.id = some row ∧
      effectiveState store now row = .active ∧ record = toRecord store now record.id row := by
  rw [statusAt, mem_activeGrants]
  constructor
  · rintro ⟨row, expiry, hRow, hActive, hExpiry, hBefore, _, hRecord⟩
    exact ⟨row, hRow, effectiveState_eq_active.mpr ⟨hActive, expiry, hExpiry, hBefore⟩, hRecord⟩
  · rintro ⟨row, hRow, hState, hRecord⟩
    obtain ⟨hActive, expiry, hExpiry, hBefore⟩ := effectiveState_eq_active.mp hState
    exact ⟨row, expiry, hRow, hActive, hExpiry, hBefore, (fun _ h => by cases h), hRecord⟩

theorem mem_instanceNames {name : Text} :
    name ∈ (statusAt store now db).instanceNames ↔ name ∈ activeNames store now db := by
  rw [Status.instanceNames, mem_sortedSet, List.mem_map]
  constructor
  · rintro ⟨record, hRecord, rfl⟩
    obtain ⟨row, hRow, hState, hEq⟩ := mem_active.mp hRecord
    exact ⟨record.id, row, hRow, hState, by rw [hEq]; rfl⟩
  · rintro ⟨rid, row, hRow, hState, rfl⟩
    exact ⟨toRecord store now rid row, mem_active.mpr ⟨row, hRow, hState, rfl⟩, rfl⟩

theorem one_lt_length_iff {α : Type} {names : List α} (h : names.Nodup) :
    1 < names.length ↔ {name | name ∈ names}.Nontrivial := by
  constructor
  · intro hMany
    have hSome : 0 < names.length := by omega
    have hApart : names[0] ≠ names[1] := h.getElem_inj_iff.not.mpr (by decide)
    exact ⟨_, List.getElem_mem _, _, List.getElem_mem _, hApart⟩
  · rintro ⟨name, hName, other, hOther, hApart⟩
    by_contra hFew
    obtain ⟨only, rfl⟩ := List.length_eq_one_iff.mp
      (show names.length = 1 by have := List.length_pos_of_mem hName; omega)
    exact hApart ((List.mem_singleton.mp hName).trans (List.mem_singleton.mp hOther).symm)

/-- What of the posted text is stray is what of the store reads as an entry. -/
theorem stray_iff_unforged
    (hModes : ∀ rid row, db.grants.get? rid = some row → effectiveState store now row = .active →
      ∀ item ∈ row.items, item.mode ∈ modes) :
    (statusAt store now db).lines.flatMap StatusLine.stray = [] ↔ Unforged store now db := by
  have hRecords : ∀ record ∈ (statusAt store now db).active, ∀ item ∈ record.items,
      item.mode ∈ modes := by
    intro record hRecord
    obtain ⟨row, hRow, hState, hEq⟩ := mem_active.mp hRecord
    rw [hEq]
    exact hModes _ row hRow hState
  have hNames : {name | name ∈ (statusAt store now db).instanceNames} = activeNames store now db :=
    Set.ext fun _ => mem_instanceNames
  have hMany : 1 < (statusAt store now db).instanceNames.length ↔
      (activeNames store now db).Nontrivial := by
    have hOnce : (statusAt store now db).instanceNames.Nodup := sortedSet_nodup _
    rw [one_lt_length_iff hOnce, hNames]
  have hItems : (∀ record ∈ (statusAt store now db).active, ∀ item ∈ record.items,
        laterEntries (item.path ++ "`".toList) = []) ↔
      ∀ rid row, db.grants.get? rid = some row → effectiveState store now row = .active →
        ∀ item ∈ row.items, laterEntries (item.path ++ "`".toList) = [] := by
    constructor
    · intro h rid row hRow hState
      exact h (toRecord store now rid row) (mem_active.mpr ⟨row, hRow, hState, rfl⟩)
    · intro h record hRecord
      obtain ⟨row, hRow, hState, hEq⟩ := mem_active.mp hRecord
      rw [hEq]
      exact h _ row hRow hState
  have hRequests : (∀ record ∈ (statusAt store now db).pending,
        (waitingLine (statusAt store now db).now record).stray = []) ↔
      ∀ rid row, db.grants.get? rid = some row → row.state = .pending →
        laterEntries (row.instanceName ++ (" — waiting ".toList ++
          (formatRemaining (now - row.createdAt) ++ agingMarker now row.createdAt))) = [] := by
    constructor
    · intro h rid row hRow hState
      exact h (toRecord store now rid row) (mem_pendingRecords.mpr ⟨row, hRow, hState, rfl⟩)
    · intro h record hRecord
      obtain ⟨row, hRow, hState, hEq⟩ := mem_pendingRecords.mp hRecord
      rw [hEq]
      exact h _ row hRow hState
  rw [stray_lines, stray_activeLines hRecords, hItems, hRequests, hMany, Set.not_nontrivial_iff]
  simp only [mem_instanceNames]
  exact ⟨fun ⟨⟨hHeadings, hGrants, hPaths⟩, hWaiting⟩ => ⟨hHeadings, hGrants, hPaths, hWaiting⟩,
    fun h => ⟨⟨h.headings, h.grants, h.items⟩, h.requests⟩⟩

end Truth

/-! ## What is posted -/

theorem postSummary_run (store : Settings) (now : Int) (d : Desk) :
    (postSummary store fun _ => now).run d =
      (.ok (.awaits (.sending (.summary (statusAt store now d.db)))), { d with asked := d.asked + 3 }) := by
  rw [postSummary, Effect.bind_ok (readStatus_at store now d)]
  rfl

/-- Of every store that calls lead to, the posted text tells the truth exactly if no request that
is stored as pending has timed out, and nothing that is stored reads as an entry of its own. -/
theorem status_tells_truth_iff (store : Settings) (start now : Int) (acts : List Act) (d : Desk) :
    let db := (Machine.run (Session.step store) (Session.start start) acts).db
    ∃ status d', (postSummary store fun _ => now).run { d with db := db } =
        (.ok (.awaits (.sending (.summary status))), d') ∧
      (TellsTruth store now db status.text ↔
        (∀ rid row, db.grants.get? rid = some row → ¬ row.TimedOut store now) ∧
          Unforged store now db) := by
  intro db
  refine ⟨_, _, postSummary_run store now { d with db := db }, ?_⟩
  have hModes : ∀ rid row, db.grants.get? rid = some row → effectiveState store now row = .active →
      ∀ item ∈ row.items, item.mode ∈ modes := by
    intro rid row hRow hState item hItem
    obtain ⟨hActive, expiry, hExpiry, _⟩ := effectiveState_eq_active.mp hState
    have hAuth := ((Session.run_agrees start acts rid).authorized _ _ _).mpr
      ⟨row, hRow, hActive, rfl, rfl, hExpiry⟩
    exact (hAuth.accepted item hItem).mode
  rw [tellsTruth_iff_stray, stray_iff_unforged hModes]

def unansweredRequest : Database :=
  (Machine.run (Session.step defaultSettings) (Session.start 0)
    [.call (.createRequest "nc".toList (some "why".toList)
      [⟨some "docs".toList, some READ⟩])]).db

/-- The store with a live grant on a path of two lines, the second of which reads as a grant's. -/
def forgingGrant : Database :=
  (Machine.run (Session.step defaultSettings) (Session.start 0)
    (approvedRequest "docs%0A✅ **#99** — READ, 5h left".toList READ)).db

/-- Twelve hours later the request is still listed as awaiting approval; and a path lists a grant
that there is not. -/
theorem unanswered_request_listed :
    ¬ TellsTruth defaultSettings defaultPendingTimeout unansweredRequest
        (statusAt defaultSettings defaultPendingTimeout unansweredRequest).text ∧
      ¬ TellsTruth defaultSettings 0 forgingGrant (statusAt defaultSettings 0 forgingGrant).text := by
  constructor
  · intro hTruth
    have hListed : decimal (1 : Nat) ∈ waitingShown
        (statusAt defaultSettings defaultPendingTimeout unansweredRequest).text := by decide +kernel
    have hExpired : (unansweredRequest.grants.get? 1).map
        (effectiveState defaultSettings defaultPendingTimeout) = some .expired := by decide +kernel
    obtain ⟨rid, row, hNumber, hRow, hPending⟩ := (hTruth.waiting _).mp hListed
    rw [← decimal_injective hNumber] at hRow
    rw [hRow, Option.map_some, hPending] at hExpired
    cases hExpired
  · intro hTruth
    have hListed : decimal (99 : Nat) ∈ activeShown
        (statusAt defaultSettings 0 forgingGrant).text := by decide +kernel
    have hNone : forgingGrant.grants.get? 99 = none := by decide +kernel
    obtain ⟨rid, row, hNumber, hRow, _⟩ := (hTruth.active _).mp hListed
    rw [← decimal_injective hNumber, hNone] at hRow
    cases hRow

end AccessBroker.MatrixBot
