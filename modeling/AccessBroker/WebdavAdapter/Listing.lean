import AccessBroker.Library.Components
import AccessBroker.WebdavAdapter

/-! # What a listing shows

The row of the listed folder is told by its path. A second filter compares names with the
user's, so a child of that name is dropped.
-/

namespace AccessBroker.WebdavAdapter
open Py Nextcloud Components
set_option autoImplicit false

/-! ## Slashes -/

theorem rdropWhile_of_notMem {text : Text} (h : '/' ∉ text) : text.rdropWhile isSlash = text := by
  refine List.rdropWhile_eq_self_iff.mpr fun hNonempty hSlash => h ?_
  rw [← beq_iff_eq.mp hSlash]
  exact List.getLast_mem hNonempty

theorem stripSlashes_of_notMem {text : Text} (h : '/' ∉ text) : stripSlashes text = text := by
  have hFront : text.dropWhile isSlash = text := by
    cases text with
    | nil => rfl
    | cons c rest =>
      refine List.dropWhile_cons_of_neg fun hSlash => h ?_
      rw [beq_iff_eq.mp hSlash]
      exact List.mem_cons_self
  rw [stripSlashes, hFront, rdropWhile_of_notMem h]

theorem splitOn_of_notMem {text : Text} (h : '/' ∉ text) : text.splitOn '/' = [text] := by
  have hSplit := splitOn_append_of_notMem h []
  rw [List.append_nil, List.splitOn_nil] at hSplit
  rw [hSplit, List.modifyHead_cons, List.append_nil]

theorem rdropWhile_slash (path : Text) :
    (path ++ ['/']).rdropWhile isSlash = path.rdropWhile isSlash :=
  List.rdropWhile_concat_pos isSlash path '/' rfl

theorem rdropWhile_child (path : Text) {child : Text} (hNonempty : child ≠ []) (hPlain : '/' ∉ child) :
    (path ++ '/' :: child).rdropWhile isSlash = path ++ '/' :: child := by
  refine List.rdropWhile_eq_self_iff.mpr fun hPath hSlash => hPlain ?_
  have hLast : (path ++ '/' :: child).getLast hPath = child.getLast hNonempty := by
    rw [List.getLast_append_of_ne_nil hPath (List.cons_ne_nil '/' child), List.getLast_cons hNonempty]
  rw [hLast] at hSlash
  rw [← beq_iff_eq.mp hSlash]
  exact List.getLast_mem hNonempty

theorem lastSegment_child (path : Text) {child : Text} (hPlain : '/' ∉ child) :
    ((path ++ '/' :: child).splitOn '/').getLastD [] = child := by
  rw [List.splitOn_append_cons_self, splitOn_of_notMem hPlain]
  simp

/-- What follows the last slash of a path is a name, once the slashes at its end are gone. -/
theorem lastSegment_named {path : Text} (h : path.rdropWhile isSlash ≠ []) :
    lastSegment path ≠ [] ∧ '/' ∉ lastSegment path := by
  have hEnd := List.rdropWhile_last_not isSlash path h
  rw [lastSegment]
  generalize path.rdropWhile isSlash = text at h hEnd
  by_cases hSlash : '/' ∈ text
  · obtain ⟨after, before, hText, hPlain⟩ :=
      List.eq_append_cons_of_mem (List.mem_reverse.mpr hSlash)
    have hLast : '/' ∉ after.reverse := fun hMem => hPlain (List.mem_reverse.mp hMem)
    have hSplit : text = before.reverse ++ '/' :: after.reverse := by
      rw [← List.reverse_reverse text, hText]
      simp
    subst hSplit
    rw [lastSegment_child before.reverse hLast]
    refine ⟨fun hEmpty => hEnd ?_, hLast⟩
    simp [hEmpty, isSlash]
  · rw [splitOn_of_notMem hSlash]
    exact ⟨h, hSlash⟩

/-! ## Rows -/

structure Child where
  name : Text
  isDir : Bool
  nonempty : name ≠ []
  plain : '/' ∉ name

/-- The path of the listed folder below the root of the files. -/
def rootRelative (username requested : Text) : Text :=
  filesBase username ++
    if stripSlashes requested = [] then [] else '/' :: stripSlashes requested

/-- The path of the listed folder, in the one or the other prefix shape. -/
def folderPath (full : Bool) (username requested : Text) : Text :=
  (if full then davPrefix else []) ++ rootRelative username requested

def Info.At (info : Info) (path : Text) : Prop :=
  info.path = some path ∨ info.path = some (path ++ ['/'])

/-- The row says under one of the keys whether it is a folder. -/
def Info.Typed (info : Info) (isDir : Bool) : Prop :=
  info.isdir = some isDir ∨
    (info.isdir = none ∧ info.isDir = some (if isDir then "True".toList else "False".toList))

/-- What a row of the listing stands for: the folder itself, or a child of it. -/
inductive RowOf (username requested : Text) : Info → Option Child → Prop
  | folder {info : Info} (full : Bool) (path : info.At (folderPath full username requested))
      (name : ∀ name, info.name = some name → '/' ∉ name) : RowOf username requested info none
  | child {info : Info} (full : Bool) (c : Child)
      (path : info.At (folderPath full username requested ++ '/' :: c.name))
      (name : info.name = none ∨ info.name = some c.name) (type : info.Typed c.isDir) :
      RowOf username requested info (some c)

def childEntry (info : Info) (c : Child) : ListEntry :=
  ⟨c.name, if c.isDir then "dir".toList else "file".toList, info.size, info.modified⟩

/-- One entry for each child, in the order of the rows. -/
def exactListing (rows : List (Info × Option Child)) : List ListEntry :=
  rows.filterMap fun row => row.2.map (childEntry row.1)

theorem At_rdropWhile {info : Info} {path : Text} (h : info.At path) :
    (info.path.getD []).rdropWhile isSlash = path.rdropWhile isSlash := by
  rcases h with h | h <;> rw [h, Option.getD_some]
  exact rdropWhile_slash path

theorem Typed_isDir {info : Info} {isDir : Bool} (h : info.Typed isDir) : entryIsDir info = isDir := by
  rcases h with h | ⟨h, hText⟩
  · rw [entryIsDir, h]
  · rw [entryIsDir, h]
    dsimp only
    rw [hText]
    cases isDir with
    | true => decide +kernel
    | false => decide +kernel

theorem mem_selfReferencePaths_iff {username requested path : Text} :
    path ∈ selfReferencePaths username requested ↔
      ∃ full, path = folderPath full username requested := by
  rw [Bool.exists_bool, folderPath, folderPath, rootRelative, selfReferencePaths]
  split <;> simp

theorem folderPath_eq (full : Bool) (username requested : Text) :
    ∃ rest, folderPath full username requested = '/' :: (if full then 'r' else 'f') :: rest := by
  cases full with
  | true => exact ⟨_, rfl⟩
  | false => exact ⟨_, rfl⟩

/-- What is below the folder, in one prefix shape, is not the folder in the other. -/
theorem child_ne_folder (full full' : Bool) (username requested child : Text) :
    folderPath full username requested ++ '/' :: child ≠ folderPath full' username requested := by
  intro hEq
  cases hFull : full == full' with
  | true =>
    have hLength := congrArg List.length hEq
    rw [beq_iff_eq.mp hFull, List.length_append, List.length_cons] at hLength
    omega
  | false =>
    obtain ⟨rest, hRest⟩ := folderPath_eq full username requested
    obtain ⟨rest', hRest'⟩ := folderPath_eq full' username requested
    rw [hRest, hRest'] at hEq
    have hSecond := (List.cons.inj (List.cons.inj hEq).2).1
    cases full with
    | true => cases full' <;> simp at hFull hSecond
    | false => cases full' <;> simp at hFull hSecond

theorem entryName_of_named {info : Info} {username name : Text} (hNonempty : name ≠ [])
    (hPlain : '/' ∉ name)
    (h : (if info.name.getD [] = [] then lastSegment (info.path.getD []) else info.name.getD []) = name) :
    entryName info username = if name = username then none else some name := by
  rw [entryName, h, stripSlashes_of_notMem hPlain, selfRootName]
  simp [hNonempty]

/-- A child is listed unless it is called like the user. -/
theorem listEntry_child {username requested : Text} {info : Info} {c : Child}
    (h : RowOf username requested info (some c)) :
    listEntry username (selfReferencePaths username requested) info =
      if c.name = username then none else some (childEntry info c) := by
  cases h with
  | child full _ hPath hName hType =>
    have hRow := (At_rdropWhile hPath).trans (rdropWhile_child _ c.nonempty c.plain)
    have hOutside : (info.path.getD []).rdropWhile isSlash ∉ selfReferencePaths username requested := by
      rw [mem_selfReferencePaths_iff, hRow]
      rintro ⟨full', hFolder⟩
      exact child_ne_folder full full' username requested c.name hFolder
    have hLast : lastSegment (info.path.getD []) = c.name := by
      rw [lastSegment, hRow, lastSegment_child _ c.plain]
    have hEntry : entryName info username = if c.name = username then none else some c.name := by
      refine entryName_of_named c.nonempty c.plain ?_
      rcases hName with hName | hName <;> rw [hName]
      · exact (if_pos rfl).trans hLast
      · exact if_neg c.nonempty
    rw [listEntry, if_neg hOutside, hEntry, Typed_isDir hType, apply_ite (Option.map _)]
    rfl

theorem getLast?_rdropWhile (text : Text) : (text.rdropWhile isSlash).getLast? ≠ some '/' := by
  intro hLast
  obtain ⟨front, hText⟩ := List.getLast?_eq_some_iff.mp hLast
  have hEnd := List.rdropWhile_last_not isSlash text (by rw [hText]; simp)
  simp [hText, isSlash] at hEnd

theorem rdropWhile_of_getLast? {text : Text} (h : text.getLast? ≠ some '/') :
    text.rdropWhile isSlash = text := by
  refine List.rdropWhile_eq_self_iff.mpr fun hNonempty hSlash => h ?_
  rw [List.getLast?_eq_some_getLast hNonempty, beq_iff_eq.mp hSlash]

/-- The folder's path ends with a slash only where it is the root, and only with one of the
username or the one before it. -/
theorem folderPath_ends_iff (full : Bool) (username requested : Text) :
    (folderPath full username requested).getLast? ≠ some '/' ↔
      (stripSlashes requested = [] → username ≠ [] ∧ username.getLast? ≠ some '/') := by
  have hNonempty : rootRelative username requested ≠ [] := by nofun
  rw [folderPath, List.getLast?_append_of_ne_nil _ hNonempty, rootRelative]
  by_cases hRoot : stripSlashes requested = []
  · have hBase : (filesBase username).getLast? ≠ some '/' ↔
        username ≠ [] ∧ username.getLast? ≠ some '/' := by
      unfold filesBase
      cases username with
      | nil => simp
      | cons c rest =>
        rw [List.getLast?_append_of_ne_nil _ (List.cons_ne_nil c rest)]
        exact (and_iff_right (List.cons_ne_nil c rest)).symm
    rw [if_pos hRoot, List.append_nil, hBase]
    exact ⟨fun h _ => h, fun h => h hRoot⟩
  · rw [if_neg hRoot, List.getLast?_append_of_ne_nil _ (List.cons_ne_nil '/' _),
      List.getLast?_cons_of_ne_nil hRoot]
    exact ⟨fun _ h => absurd h hRoot, fun _ => getLast?_rdropWhile _⟩

/-- The folder's own row is dropped, unless its path ends with a slash. -/
theorem listEntry_folder {username requested : Text} {info : Info}
    (h : RowOf username requested info none) :
    listEntry username (selfReferencePaths username requested) info = none ↔
      (stripSlashes requested = [] → username ≠ [] ∧ username.getLast? ≠ some '/') := by
  cases h with
  | folder full hPath hName =>
  have hRow := At_rdropWhile hPath
  constructor
  · intro hNone
    by_contra hOdd
    have hUser : username = [] ∨ '/' ∈ username := by
      rcases Classical.em (username = []) with hEmpty | hNonempty
      · exact Or.inl hEmpty
      · refine Or.inr (by_contra fun hPlain => hOdd fun _ => ⟨hNonempty, fun hLast => hPlain ?_⟩)
        exact List.mem_of_getLast? hLast
    have hOutside : (info.path.getD []).rdropWhile isSlash ∉ selfReferencePaths username requested := by
      rw [mem_selfReferencePaths_iff, hRow]
      rintro ⟨full', hFolder⟩
      have hEnds := (folderPath_ends_iff full' username requested).not.mpr hOdd
      rw [← hFolder] at hEnds
      exact hEnds (getLast?_rdropWhile _)
    -- the row is named all the same, and not as the user is
    have hNamed : ∃ name, entryName info username = some name := by
      have hLast : lastSegment (info.path.getD []) ≠ [] ∧ '/' ∉ lastSegment (info.path.getD []) := by
        refine lastSegment_named fun hEmpty => ?_
        rw [hRow] at hEmpty
        obtain ⟨rest, hRest⟩ := folderPath_eq full username requested
        have hSlashes := List.rdropWhile_eq_nil_iff.mp hEmpty (if full then 'r' else 'f')
          (by rw [hRest]; simp)
        cases full <;> exact absurd hSlashes (by decide)
      have hEntry (name : Text) (hNonempty : name ≠ []) (hPlain : '/' ∉ name)
          (h : (if info.name.getD [] = [] then lastSegment (info.path.getD []) else info.name.getD []) =
            name) : ∃ name, entryName info username = some name := by
        refine ⟨name, (entryName_of_named hNonempty hPlain h).trans (if_neg fun hSame => ?_)⟩
        rcases hUser with hEmpty | hSlash
        · exact hNonempty (hSame.trans hEmpty)
        · exact hPlain (hSame ▸ hSlash)
      by_cases hNone : info.name.getD [] = []
      · exact hEntry _ hLast.1 hLast.2 (if_pos hNone)
      · refine hEntry _ hNone ?_ (if_neg hNone)
        cases hInfo : info.name with
        | none => simp
        | some name => exact hName name hInfo
    obtain ⟨name, hEntry⟩ := hNamed
    rw [listEntry, if_neg hOutside, hEntry] at hNone
    cases hNone
  · intro hPlain
    have hSelf := rdropWhile_of_getLast? ((folderPath_ends_iff full username requested).mpr hPlain)
    rw [listEntry, if_pos]
    exact mem_selfReferencePaths_iff.mpr ⟨full, hRow.trans hSelf⟩

/-! ## Listings -/

def RowExact (username requested : Text) (row : Info × Option Child) : Prop :=
  listEntry username (selfReferencePaths username requested) row.1 = row.2.map (childEntry row.1)

theorem rowExact_iff {username requested : Text} {row : Info × Option Child}
    (h : RowOf username requested row.1 row.2) : RowExact username requested row ↔
      (∀ c, row.2 = some c → c.name ≠ username) ∧ (row.2 = none → stripSlashes requested = [] →
        username ≠ [] ∧ username.getLast? ≠ some '/') := by
  obtain ⟨info, stands⟩ := row
  rw [RowExact]
  cases stands with
  | none =>
    rw [Option.map_none, listEntry_folder h]
    simp
  | some c =>
    rw [listEntry_child h, Option.map_some]
    simp

section Filtering

variable {α β : Type} {f g : α → Option β} {rows : List α}

theorem filterMap_sublist (h : ∀ a ∈ rows, f a = g a ∨ f a = none) :
    (rows.filterMap f).Sublist (rows.filterMap g) := by
  induction rows with
  | nil => exact List.Sublist.refl []
  | cons a rows ih =>
    obtain ⟨ha, hRows⟩ := List.forall_mem_cons.mp h
    rw [List.filterMap_cons, List.filterMap_cons]
    rcases ha with hSame | hNone
    · rw [hSame]
      cases g a with
      | none => exact ih hRows
      | some b => exact (ih hRows).cons_cons b
    · rw [hNone]
      cases g a with
      | none => exact ih hRows
      | some b => exact (ih hRows).cons b

/-- Where one of the two only leaves entries out, they agree on every row or not at all. -/
theorem filterMap_eq_iff (h : ∀ a ∈ rows, f a = g a ∨ f a = none) :
    rows.filterMap f = rows.filterMap g ↔ ∀ a ∈ rows, f a = g a := by
  induction rows with
  | nil => simp
  | cons a rows ih =>
    obtain ⟨ha, hRows⟩ := List.forall_mem_cons.mp h
    rw [List.forall_mem_cons, ← ih hRows, List.filterMap_cons, List.filterMap_cons]
    rcases ha with hSame | hNone
    · rw [hSame]
      cases g a with
      | none => simp
      | some b => simp
    · rw [hNone]
      cases hg : g a with
      | none => simp
      | some b =>
        have hShorter := (filterMap_sublist hRows).length_le
        refine ⟨fun hEq => ?_, fun hBoth => nomatch hBoth.1⟩
        have hLength := congrArg List.length hEq
        dsimp only at hLength
        rw [List.length_cons] at hLength
        omega

end Filtering

/-- A listing is exact if and only if no child is called like the user and, where the root of the
files is listed with a row of its own, the username is a proper folder name. -/
theorem propfind_exact_iff {username requested : Text} {rows : List (Info × Option Child)}
    (h : ∀ row ∈ rows, RowOf username requested row.1 row.2) :
    propfind username requested (.answered (rows.map fun row => some row.1)) =
        .ok (exactListing rows) ↔
      (∀ row ∈ rows, ∀ c, row.2 = some c → c.name ≠ username) ∧
        ((∃ row ∈ rows, row.2 = none) → stripSlashes requested = [] →
          username ≠ [] ∧ username.getLast? ≠ some '/') := by
  have hRows : (∀ row ∈ rows, RowExact username requested row) ↔
      (∀ row ∈ rows, ∀ c, row.2 = some c → c.name ≠ username) ∧
        ((∃ row ∈ rows, row.2 = none) → stripSlashes requested = [] →
          username ≠ [] ∧ username.getLast? ≠ some '/') := by
    constructor
    · intro hAll
      refine ⟨fun row hRow => ((rowExact_iff (h row hRow)).mp (hAll row hRow)).1, ?_⟩
      rintro ⟨row, hRow, hFolder⟩
      exact ((rowExact_iff (h row hRow)).mp (hAll row hRow)).2 hFolder
    · rintro ⟨hChildren, hFolder⟩ row hRow
      exact (rowExact_iff (h row hRow)).mpr ⟨hChildren row hRow, fun hNone => hFolder ⟨row, hRow, hNone⟩⟩
  have hListing : propfind username requested (.answered (rows.map fun row => some row.1)) =
      .ok (rows.filterMap fun row => listEntry username (selfReferencePaths username requested) row.1) := by
    rw [propfind, List.filterMap_map]
    rfl
  rw [hListing, ← hRows, Except.ok.injEq, exactListing]
  by_cases hProper : stripSlashes requested = [] → username ≠ [] ∧ username.getLast? ≠ some '/'
  · refine filterMap_eq_iff fun row hRow => ?_
    have hRowOf := h row hRow
    obtain ⟨info, stands⟩ := row
    cases stands with
    | none => exact Or.inl ((listEntry_folder hRowOf).mpr hProper)
    | some c =>
      dsimp only
      rw [listEntry_child hRowOf]
      split
      · exact Or.inr rfl
      · exact Or.inl rfl
  · -- no child can be called by such a username
    rw [eq_comm, filterMap_eq_iff fun row hRow => ?_]
    · exact forall₂_congr fun row _ => eq_comm
    · have hRowOf := h row hRow
      obtain ⟨info, stands⟩ := row
      cases stands with
      | none => exact Or.inr rfl
      | some c =>
        have hName : c.name ≠ username := by
          intro hSame
          refine hProper fun _ => ⟨hSame ▸ c.nonempty, fun hLast => c.plain ?_⟩
          exact hSame ▸ List.mem_of_getLast? hLast
        dsimp only
        rw [listEntry_child hRowOf, if_neg hName]
        exact Or.inl rfl

def projectRows : List (Info × Option Child) :=
  [(⟨none, some "/files/u/a/b/".toList, some true, none, none, none⟩, none),
    (⟨none, some "/files/u/a/b/b/".toList, some true, none, none, none⟩,
      some ⟨"b".toList, true, by decide, by decide⟩)]

theorem projectRows_of : ∀ row ∈ projectRows, RowOf "u".toList "a/b".toList row.1 row.2 := by
  intro row hRow
  rcases List.mem_pair.mp hRow with rfl | rfl
  · exact .folder false (Or.inr (by decide +kernel)) nofun
  · exact .child false _ (Or.inr (by decide +kernel)) (Or.inl rfl) (Or.inl rfl)

/-- A child called like its folder is kept. -/
theorem propfind_exact_below :
    propfind "u".toList "a/b".toList (.answered (projectRows.map fun row => some row.1)) =
      .ok (exactListing projectRows) := by
  refine (propfind_exact_iff projectRows_of).mpr ⟨fun row hRow c hc => ?_, fun _ hRoot => ?_⟩
  · rcases List.mem_pair.mp hRow with rfl | rfl
    · cases hc
    · cases hc
      decide
  · exact absurd hRoot (by decide +kernel)

/-! ## A child called like the user -/

def aliceRow : Info :=
  ⟨none, some "/remote.php/dav/files/alice/shared/alice/".toList, some true, none, none, none⟩

def aliceChild : Child := ⟨"alice".toList, true, by decide, by decide⟩

theorem aliceRow_child : RowOf "alice".toList "shared".toList aliceRow (some aliceChild) :=
  .child true aliceChild (Or.inr (by decide +kernel)) (Or.inl rfl) (Or.inl rfl)

theorem propfind_drops_child :
    (∀ row ∈ [(aliceRow, some aliceChild)], RowOf "alice".toList "shared".toList row.1 row.2) ∧
      propfind "alice".toList "shared".toList (.answered [some aliceRow]) = .ok [] ∧
      exactListing [(aliceRow, some aliceChild)] = [⟨"alice".toList, "dir".toList, none, none⟩] := by
  refine ⟨fun row hRow => ?_, by decide +kernel, by decide +kernel⟩
  rw [List.mem_singleton.mp hRow]
  exact aliceRow_child

end AccessBroker.WebdavAdapter
