import AccessBroker.Grants.Display

/-! # The approval message

The text of a pending request, one line for each item. A newline in the reason or
in a stored path begins a line of its own, and exactly then the message can show
other items than the request has.
-/

namespace AccessBroker.MatrixBot
open Py Grants Paths
set_option autoImplicit false

/-! ## Rendering -/

def upper (text : Text) : Text := text.map Char.toUpper

def itemLine (number : Nat) (item : Item) : Text :=
  decimal number ++ ". **".toList ++ upper item.mode ++ "** `".toList ++ item.path ++ "`".toList

def headerLine (req : GrantRecord) : Text :=
  "⏳ **PENDING #".toList ++ decimal req.id ++ "** — awaiting your approval".toList

def renderRequest (req : GrantRecord) : Text :=
  ['\n'].intercalate (
    [headerLine req,
      "Instance: **".toList ++ req.instanceName ++ "**".toList,
      "Reason: ".toList ++ req.reason] ++
    (req.items.zipIdx 1).map (fun entry => itemLine entry.2 entry.1) ++
    ["Expiry if approved: 24h (or reply a shorter one, e.g. `approve 3 8h`)".toList,
      "Decide: `approve|reject <id> [expiry]`".toList])

/-! ## Reading the item lines -/

def READ_SHOWN : Text := "READ".toList

def WRITE_SHOWN : Text := "WRITE".toList

structure ItemShown where
  number : Text
  mode : Text
  path : Text
  deriving DecidableEq

def ItemShown.line (shown : ItemShown) : Text :=
  shown.number ++ (". **".toList ++ (shown.mode ++ ("** `".toList ++ (shown.path ++ "`".toList))))

structure ItemShown.Proper (shown : ItemShown) : Prop where
  number : shown.number ≠ [] ∧ ∀ c ∈ shown.number, c.isDigit = true
  mode : shown.mode = READ_SHOWN ∨ shown.mode = WRITE_SHOWN

def readMode (mode text : Text) : Option (Text × Text) :=
  (text.dropPrefix? (mode ++ "** `".toList)).map fun rest => (mode, rest)

/-- A line of the form ``N. **READ** `p` `` or ``N. **WRITE** `p` ``. -/
def readItemLine (line : Text) : Option ItemShown := do
  let number := line.takeWhile Char.isDigit
  if number = [] then none
  else
    let text ← (line.dropWhile Char.isDigit).dropPrefix? ". **".toList
    let (mode, rest) ← (readMode READ_SHOWN text).or (readMode WRITE_SHOWN text)
    let path ← rest.dropSuffix? "`".toList
    return ⟨number, mode, path⟩

theorem dropPrefix?_eq_some_iff {text head rest : Text} :
    text.dropPrefix? head = some rest ↔ text = head ++ rest := by
  simp [List.dropPrefix?_eq_some_iff]

theorem dropSuffix?_eq_some_iff {text tail rest : Text} :
    text.dropSuffix? tail = some rest ↔ text = rest ++ tail := by
  simp [List.dropSuffix?_eq_some_iff]

theorem readMode_eq_some_iff {mode text shownMode rest : Text} :
    readMode mode text = some (shownMode, rest) ↔
      shownMode = mode ∧ text = mode ++ ("** `".toList ++ rest) := by
  simp [readMode, dropPrefix?_eq_some_iff, and_comm, eq_comm]

theorem readMode_or_eq_some_iff {text mode rest : Text} :
    (readMode READ_SHOWN text).or (readMode WRITE_SHOWN text) = some (mode, rest) ↔
      (mode = READ_SHOWN ∨ mode = WRITE_SHOWN) ∧ text = mode ++ ("** `".toList ++ rest) := by
  rw [Option.or_eq_some_iff, readMode_eq_some_iff, readMode_eq_some_iff]
  constructor
  · rintro (⟨rfl, hText⟩ | ⟨_, rfl, hText⟩)
    · exact ⟨Or.inl rfl, hText⟩
    · exact ⟨Or.inr rfl, hText⟩
  · rintro ⟨rfl | rfl, hText⟩
    · exact Or.inl ⟨rfl, hText⟩
    · refine Or.inr ⟨?_, rfl, hText⟩
      rw [hText]
      rfl

theorem readItemLine_line {shown : ItemShown} (h : shown.Proper) :
    readItemLine shown.line = some shown := by
  have hTake : shown.line.takeWhile Char.isDigit = shown.number := by
    rw [ItemShown.line, List.takeWhile_append_of_pos h.number.2]
    exact List.append_nil _
  have hDrop : shown.line.dropWhile Char.isDigit =
      ". **".toList ++ (shown.mode ++ ("** `".toList ++ (shown.path ++ "`".toList))) := by
    rw [ItemShown.line, List.dropWhile_append_of_pos h.number.2]
    rfl
  rw [readItemLine, hTake, if_neg h.number.1, hDrop]
  refine Option.bind_eq_some_iff.mpr ⟨_, dropPrefix?_eq_some_iff.mpr rfl, ?_⟩
  refine Option.bind_eq_some_iff.mpr ⟨_, readMode_or_eq_some_iff.mpr ⟨h.mode, rfl⟩, ?_⟩
  exact Option.bind_eq_some_iff.mpr ⟨_, dropSuffix?_eq_some_iff.mpr rfl, rfl⟩

theorem readItemLine_eq_some_iff {line : Text} {shown : ItemShown} :
    readItemLine line = some shown ↔ shown.Proper ∧ line = shown.line := by
  constructor
  · intro h
    rw [readItemLine] at h
    split at h
    · cases h
    rename_i hNumber
    obtain ⟨text, hText, h⟩ := Option.bind_eq_some_iff.mp h
    obtain ⟨⟨mode, rest⟩, hMode, h⟩ := Option.bind_eq_some_iff.mp h
    obtain ⟨path, hPath, h⟩ := Option.bind_eq_some_iff.mp h
    cases h
    rw [dropPrefix?_eq_some_iff] at hText
    obtain ⟨hShown, rfl⟩ := readMode_or_eq_some_iff.mp hMode
    obtain rfl := dropSuffix?_eq_some_iff.mp hPath
    refine ⟨⟨⟨hNumber, fun c hc => List.mem_takeWhile_imp hc⟩, hShown⟩, ?_⟩
    rw [ItemShown.line, ← hText, List.takeWhile_append_dropWhile]
  · rintro ⟨hProper, rfl⟩
    exact readItemLine_line hProper

def shownItems (message : Text) : List ItemShown := (message.splitOn '\n').filterMap readItemLine

/-- The items that the lines of a text show after its first. -/
def laterItems (text : Text) : List ItemShown :=
  (text.splitOn '\n').tail.filterMap readItemLine

theorem readItemLine_eq_none {c : Char} (line : Text) (h : c.isDigit = false) :
    readItemLine (c :: line) = none := by
  rw [readItemLine, if_pos]
  simp [h]

theorem shownItems_append {head : Text} (text : Text)
    (hFirst : ∃ c, head.head? = some c ∧ c.isDigit = false) (hHead : '\n' ∉ head) :
    shownItems (head ++ text) = laterItems text := by
  obtain ⟨c, hFirst, hDigit⟩ := hFirst
  obtain ⟨rest, rfl⟩ := List.head?_eq_some_iff.mp hFirst
  exact Components.readings_append hHead (fun more => readItemLine_eq_none _ hDigit) text

theorem shownItems_eq_nil {line : Text} (hFirst : ∃ c, line.head? = some c ∧ c.isDigit = false)
    (hLine : '\n' ∉ line) : shownItems line = [] := by
  have hAppend := shownItems_append [] hFirst hLine
  rw [List.append_nil] at hAppend
  exact hAppend

theorem newline_notMem_of_shown {message : Text} {shown : ItemShown}
    (h : shown ∈ shownItems message) : '\n' ∉ shown.path := by
  obtain ⟨line, hLine, hRead⟩ := List.mem_filterMap.mp h
  have hNewline := Components.notMem_of_mem_splitOn hLine
  rw [(readItemLine_eq_some_iff.mp hRead).2] at hNewline
  intro hPath
  exact hNewline (by simp [ItemShown.line, hPath])

/-! ## What a message shows -/

def expectedItem (number : Nat) (item : Item) : ItemShown :=
  ⟨decimal number, upper item.mode, item.path⟩

def ShowsItems (req : GrantRecord) : Prop :=
  shownItems (renderRequest req) =
    (req.items.zipIdx 1).map fun entry => expectedItem entry.2 entry.1

instance (req : GrantRecord) : Decidable (ShowsItems req) :=
  inferInstanceAs (Decidable (shownItems (renderRequest req) = _))

theorem itemLine_eq (number : Nat) (item : Item) :
    itemLine number item = (expectedItem number item).line := by
  simp only [itemLine, expectedItem, ItemShown.line, List.append_assoc]

theorem expectedItem_proper (number : Nat) {item : Item} (h : item.mode ∈ modes) :
    (expectedItem number item).Proper := by
  refine ⟨decimal_digits number, ?_⟩
  rcases List.mem_pair.mp h with hMode | hMode
  · refine Or.inl ?_
    rw [expectedItem, hMode]
    rfl
  · refine Or.inr ?_
    rw [expectedItem, hMode]
    rfl

theorem shownItems_intercalate {lines : List Text} (h : lines ≠ []) :
    shownItems (['\n'].intercalate lines) = lines.flatMap shownItems :=
  Components.readings_intercalate h

theorem shownItems_numbered {head tail : Text} (n : Nat)
    (hFirst : ∃ c, head.head? = some c ∧ c.isDigit = false) (hHead : '\n' ∉ head)
    (hTail : '\n' ∉ tail) : shownItems (head ++ decimal n ++ tail) = [] := by
  have hDecimal : '\n' ∉ decimal n := fun h => absurd ((decimal_digits n).2 _ h) (by decide)
  obtain ⟨c, hFirst, hDigit⟩ := hFirst
  refine shownItems_eq_nil ⟨c, ?_, hDigit⟩ (by simp [hHead, hDecimal, hTail])
  simp [hFirst]

theorem shownItems_headerLine (req : GrantRecord) : shownItems (headerLine req) = [] :=
  shownItems_numbered req.id ⟨'⏳', rfl, rfl⟩ (by decide) (by decide)

theorem shownItems_render (req : GrantRecord) :
    shownItems (renderRequest req) = laterItems (req.instanceName ++ "**".toList) ++
      (laterItems req.reason ++
        (req.items.zipIdx 1).flatMap fun entry => shownItems (itemLine entry.2 entry.1)) := by
  have hInstance : shownItems ("Instance: **".toList ++ (req.instanceName ++ "**".toList)) =
      laterItems (req.instanceName ++ "**".toList) :=
    shownItems_append _ ⟨'I', rfl, rfl⟩ (by decide)
  have hReason : shownItems ("Reason: ".toList ++ req.reason) = laterItems req.reason :=
    shownItems_append _ ⟨'R', rfl, rfl⟩ (by decide)
  have hExpiry : shownItems
      "Expiry if approved: 24h (or reply a shorter one, e.g. `approve 3 8h`)".toList = [] :=
    shownItems_eq_nil ⟨'E', rfl, rfl⟩ (by decide)
  have hDecide : shownItems "Decide: `approve|reject <id> [expiry]`".toList = [] :=
    shownItems_eq_nil ⟨'D', rfl, rfl⟩ (by decide)
  rw [renderRequest, shownItems_intercalate (by simp)]
  simp only [List.flatMap_append, List.flatMap_cons, List.flatMap_nil, List.flatMap_map,
    shownItems_headerLine, hInstance, hReason, hExpiry, hDecide, List.nil_append, List.append_nil,
    List.append_assoc]

theorem newline_notMem_line {shown : ItemShown} (h : shown.Proper) (hPath : '\n' ∉ shown.path) :
    '\n' ∉ shown.line := by
  have hNumber : '\n' ∉ shown.number := fun hMem => absurd (h.number.2 _ hMem) (by decide)
  have hMode : '\n' ∉ shown.mode := by
    rcases h.mode with hMode | hMode <;> rw [hMode] <;> decide
  simp [ItemShown.line, hNumber, hMode, hPath]

theorem shownItems_itemLine (number : Nat) {item : Item} (hMode : item.mode ∈ modes)
    (hPath : '\n' ∉ item.path) :
    shownItems (itemLine number item) = [expectedItem number item] := by
  have hProper := expectedItem_proper number hMode
  rw [shownItems, itemLine_eq, List.splitOn_eq_singleton (newline_notMem_line hProper hPath),
    List.filterMap_cons_some (readItemLine_line hProper), List.filterMap_nil]

theorem showsItems_iff_plain {req : GrantRecord}
    (hModes : ∀ item ∈ req.items, item.mode ∈ modes) :
    ShowsItems req ↔ laterItems (req.instanceName ++ "**".toList) = [] ∧
      laterItems req.reason = [] ∧ ∀ item ∈ req.items, '\n' ∉ item.path := by
  have hShown : (∀ item ∈ req.items, '\n' ∉ item.path) →
      ((req.items.zipIdx 1).flatMap fun entry => shownItems (itemLine entry.2 entry.1)) =
        (req.items.zipIdx 1).map fun entry => expectedItem entry.2 entry.1 := by
    intro hPaths
    rw [List.map_eq_flatMap]
    refine List.flatMap_congr fun entry hEntry => ?_
    have hItem := List.fst_mem_of_mem_zipIdx hEntry
    exact shownItems_itemLine entry.2 (hModes _ hItem) (hPaths _ hItem)
  rw [ShowsItems]
  constructor
  · intro hShows
    have hPaths : ∀ item ∈ req.items, '\n' ∉ item.path := by
      intro item hItem
      obtain ⟨i, hi⟩ := List.mem_iff_getElem?.mp hItem
      have hEntry : (item, 1 + i) ∈ req.items.zipIdx 1 :=
        List.mk_add_mem_zipIdx_iff_getElem?.mpr hi
      have hMem : expectedItem (1 + i) item ∈ shownItems (renderRequest req) := by
        rw [hShows]
        exact List.mem_map.mpr ⟨_, hEntry, rfl⟩
      exact newline_notMem_of_shown hMem
    rw [shownItems_render, hShown hPaths, ← List.append_assoc, List.append_left_eq_self,
      List.append_eq_nil_iff] at hShows
    exact ⟨hShows.1, hShows.2, hPaths⟩
  · rintro ⟨hName, hReason, hPaths⟩
    rw [shownItems_render, hName, hReason, hShown hPaths, List.nil_append, List.nil_append]

/-! ## Requests that are shown as they are -/

/-- No stored path has a newline, and neither the reason nor the instance's name has, after its
first line, a line of an item's form. -/
structure Plain (instanceName reason : Text) (items : List RawItem) : Prop where
  instanceName : laterItems (instanceName ++ "**".toList) = []
  reason : laterItems (strip reason) = []
  paths : ∀ item ∈ items, ∀ path norm, item.path = some path → normalizePath path = some norm →
    '\n' ∉ norm

theorem plain_iff {instanceName reason : Text} {items : List RawItem} {clean : List Item}
    (hClean : cleanItems items = .ok clean) :
    Plain instanceName reason items ↔ laterItems (instanceName ++ "**".toList) = [] ∧
      laterItems (strip reason) = [] ∧ ∀ item ∈ clean, '\n' ∉ item.path := by
  constructor
  · rintro ⟨hName, hReason, hPaths⟩
    refine ⟨hName, hReason, fun item hItem => ?_⟩
    obtain ⟨sent, hSent, hItem⟩ := (mem_cleanItems hClean).mp hItem
    obtain ⟨_, path, hPath, hNorm⟩ := cleanItem_ok hItem
    exact hPaths sent hSent path item.path hPath hNorm
  · rintro ⟨hName, hReason, hPaths⟩
    refine ⟨hName, hReason, fun sent hSent path norm hPath hNorm => ?_⟩
    obtain ⟨item, hItem, hSame⟩ := cleanItem_of_mem hClean hSent
    obtain ⟨_, path', hPath', hNorm'⟩ := cleanItem_ok hSame
    rw [hPath] at hPath'
    cases hPath'
    rw [hNorm] at hNorm'
    cases hNorm'
    exact hPaths item hItem

/-- Of the requests that are accepted, the message shows exactly the items of the plain ones. -/
theorem showsItems_iff {cfg : Settings} {now : Int} {instanceName reason : Text}
    {items : List RawItem} {db : Database} {req : GrantRecord}
    (hAccepted : ((createRequest cfg now instanceName (some reason) items).run db).1 = .ok req) :
    ShowsItems req ↔ Plain instanceName reason items := by
  rcases createRequest_cases cfg now instanceName (some reason) items db with
    ⟨e, hRun⟩ | ⟨text, clean, hReason, _, hClean, _, hRun⟩
  · rw [hRun] at hAccepted
    cases hAccepted
  cases hReason
  rw [hRun] at hAccepted
  cases hAccepted
  rw [plain_iff hClean]
  exact showsItems_iff_plain fun item hItem => (cleanItems_accepted hClean item hItem).mode

/-! ## Forged lines -/

def requested (reason path : Text) : Except GrantError GrantRecord :=
  ((createRequest defaultSettings 0 "nc".toList (some reason) [⟨some path, some READ⟩]).run
    Database.empty).1

def pendingRecord (reason path : Text) : GrantRecord :=
  ⟨1, "nc".toList, reason, [⟨path, READ⟩], .pending, none, 0, none⟩

theorem showsItems_two_lines :
    ShowsItems (pendingRecord "tidy up\nthe notes".toList "a b".toList) := by
  have hAccepted : requested "tidy up\nthe notes ".toList "a%20b".toList =
      .ok (pendingRecord "tidy up\nthe notes".toList "a b".toList) := by
    decide +kernel
  refine (showsItems_iff hAccepted).mpr ⟨by decide +kernel, by decide +kernel, ?_⟩
  intro item hItem path norm hPath hNorm
  rw [List.mem_singleton] at hItem
  subst hItem
  cases hPath
  have hDecoded : normalizePath "a%20b".toList = some "a b".toList := by decide +kernel
  rw [hDecoded] at hNorm
  cases hNorm
  decide

/-- A reason adds the line of an item, and a path replaces its own by that of another. -/
theorem items_forged :
    (requested "tidy up\n2. **WRITE** `b`".toList "a".toList =
        .ok (pendingRecord "tidy up\n2. **WRITE** `b`".toList "a".toList) ∧
      ¬ShowsItems (pendingRecord "tidy up\n2. **WRITE** `b`".toList "a".toList)) ∧
    (requested "tidy up".toList "a%0A1. **WRITE** `b".toList =
        .ok (pendingRecord "tidy up".toList "a\n1. **WRITE** `b".toList) ∧
      ¬ShowsItems (pendingRecord "tidy up".toList "a\n1. **WRITE** `b".toList)) := by
  refine ⟨⟨?_, ?_⟩, ?_, ?_⟩ <;> decide +kernel

end AccessBroker.MatrixBot
