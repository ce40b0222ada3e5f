import AccessBroker.Config
import AccessBroker.MatrixBot.Grammar
import AccessBroker.MatrixBot.Sparing

/-! # The kill switch of an instance

`revoke <name>` is meant to reach every configured instance. The configuration takes any
name, the reply pattern only some, and the name is lowered before it is looked up. So a mass
revocation does what it is for exactly on the instances whose names can be typed.
-/

namespace AccessBroker.MatrixBot
open Py Grants
set_option autoImplicit false

def revokeText (name : Text) : Text := "revoke ".toList ++ name

/-- The reply is read as the revocation of exactly this instance, and leaves no grant on it. -/
def KillSwitch (name : Text) : Prop :=
  parseReply (revokeText name) = .ok (some (.revokeInstance name)) ∧
    ∀ (store : Settings) (bot : Bot) (clock : Nat → Int), Monotone clock → ∀ d : Desk,
      ∃ message d', (handleReply store bot clock bot.approver (revokeText name)).run d =
          (.ok (.awaits (.sending message)), d') ∧
        ∀ now, clock d'.asked ≤ now → activeGrants store now (some name) d'.db = []

/-- A letter, then letters, digits, `_` and `-`, and nothing that lowering changes. -/
def Typable (name : Text) : Prop :=
  name.head?.any isLetter = true ∧ name.tail.all isTargetChar = true ∧ lowerMatched name = name

theorem Typable.isRevokeTarget {name : Text} (h : Typable name) : isRevokeTarget name = true := by
  obtain ⟨hFirst, hRest, _⟩ := h
  cases name with
  | nil => cases hFirst
  | cons c rest =>
    have hc : isLetter c = true := hFirst
    rw [MatrixBot.isRevokeTarget, Bool.and_eq_true, List.head?_cons, Option.any_some, startsTarget, hc,
      Bool.true_or]
    exact ⟨rfl, hRest⟩

theorem Typable.isName {name : Text} (h : Typable name) : isName name = true := by
  cases name with
  | nil => exact absurd h.1 (by decide)
  | cons c rest => exact isName_of_isLetter h.1 h.isRevokeTarget

theorem isRevokeTarget_unspaced {name : Text} (h : isRevokeTarget name = true) :
    Unspaced name ∧ name ≠ [] := by
  cases name with
  | nil => cases h
  | cons c rest =>
    rw [isRevokeTarget, Bool.and_eq_true] at h
    refine ⟨List.forall_mem_cons.mpr ⟨?_, fun d hd => ?_⟩, List.cons_ne_nil c rest⟩
    · exact isSpace_of_isTargetChar (isTargetChar_of_startsTarget h.1)
    · exact isSpace_of_isTargetChar (List.all_eq_true.mp h.2 d hd)

theorem lowerMatched_unspaced {word : Text} (h : Unspaced word) : Unspaced (lowerMatched word) := by
  intro d hd
  rw [lowerMatched, List.mem_flatMap] at hd
  obtain ⟨c, hc, hd⟩ := hd
  by_cases hLetter : isLetter c = true
  · have hCases := letter_cases (fun c => (lowerMatched [c]).all fun d => !isSpace d)
      (by decide +kernel) hLetter
    rw [lowerMatched, List.flatMap_singleton] at hCases
    simpa using List.all_eq_true.mp hCases d hd
  · have hSpace := h c hc
    split at hd
    · rename_i hDotted
      have hi := foldLetter_dotted hDotted
      have hSame : sameLetter 'i' c = true := by
        rw [sameLetter, hi]
        rfl
      exact absurd (isLetter_of_sameLetter (by decide) hSame) hLetter
    split at hd
    · rw [List.mem_singleton.mp hd, foldLetter_of_not_isLetter hLetter]
      exact hSpace
    · rw [List.mem_singleton.mp hd]
      exact hSpace

theorem lowerMatched_nonempty {word : Text} (h : word ≠ []) : lowerMatched word ≠ [] := by
  obtain ⟨c, rest, rfl⟩ := List.exists_cons_of_ne_nil h
  rw [lowerMatched, List.flatMap_cons]
  split
  · simp
  split <;> simp

theorem words_revokeText (name : Text) : words (revokeText name) = "revoke".toList :: words name := by
  have hText : revokeText name = "revoke".toList ++ ' ' :: name := rfl
  rw [hText, words_append_space _ _ (by decide)]
  rfl

theorem parse_typable {name : Text} (h : Typable name) (hAll : name ≠ "all".toList) :
    parseReply (revokeText name) = .ok (some (.revokeInstance name)) := by
  obtain ⟨hUnspaced, hNonempty⟩ := isRevokeTarget_unspaced h.isRevokeTarget
  rw [parseReply_words, words_revokeText, words_of_unspaced hUnspaced hNonempty,
    parseWords_name (by decide) h.isName h.isRevokeTarget, readName, h.2.2, if_neg hAll]

/-- A revocation that is read names what stands in the reply. -/
theorem reads_of_revokeInstance {ws : List Text} {name : Text}
    (h : parseWords ws = .ok (some (.revokeInstance name))) : Reads ws (.revokeInstance name) := by
  cases hFit : fit ws with
  | none =>
    rw [parseWords, hFit] at h
    cases h
  | some r =>
    rw [parseWords_fit hFit, readReply] at h
    split at h
    · cases h
    split at h
    · cases h
    rename_i target hTarget
    split at h
    · obtain ⟨_, _, ⟨_, hParsed⟩ | ⟨_, _, _, hParsed⟩⟩ := readDecision_some h <;> cases hParsed
    rename_i hDecimal
    split at h
    · cases hName : readRevokeTarget ws with
      | none =>
        rw [hName] at h
        cases h
      | some name' =>
        rw [hName] at h
        have hReads := reads_name (fit_fits hFit) hTarget hDecimal hName
        rw [Option.map_some] at h
        rwa [Option.some.inj (Except.ok.inj h)] at hReads
    · cases h

theorem typable_of_parse {name : Text}
    (h : parseReply (revokeText name) = .ok (some (.revokeInstance name))) : Typable name := by
  rw [parseReply_words, words_revokeText] at h
  have hDigits : ¬ NamesDigits ("revoke".toList :: words name) := by
    intro hDigits
    rw [parseWords_digits hDigits] at h
    cases h
  have hReads := reads_of_revokeInstance h
  generalize hWords : "revoke".toList :: words name = ws at hReads hDigits
  generalize hParsed : Parsed.revokeInstance name = parsed at hReads
  cases hReads with
  | revokeInstance hWord hName =>
    rename_i word target
    have hTarget : name = lowerMatched target := by
      injection hParsed
    obtain ⟨hUnspaced, hNonempty⟩ := isRevokeTarget_unspaced hName.1
    have hSame : target = name := by
      have hTail := (List.cons_eq_cons.mp hWords).2
      rw [words_of_unspaced (hTarget ▸ lowerMatched_unspaced hUnspaced)
        (hTarget ▸ lowerMatched_nonempty hNonempty)] at hTail
      exact (List.cons_eq_cons.mp hTail).1.symm
    subst hSame
    have hFirst := hName.1
    rw [isRevokeTarget, Bool.and_eq_true] at hFirst
    refine ⟨?_, hFirst.2, hTarget.symm⟩
    cases target with
    | nil => exact hFirst.1
    | cons c rest =>
      have hNotDigit : ¬ isDigit c = true := fun hDigit => hDigits ⟨hWord, hName, hDigit⟩
      have hStart : startsTarget c = true := hFirst.1
      rw [startsTarget, eq_false_of_ne_true hNotDigit, Bool.or_false] at hStart
      exact hStart
  | _ => cases hParsed

theorem killSwitch_iff_typable {name : Text} (hAll : name ≠ "all".toList) :
    KillSwitch name ↔ Typable name := by
  constructor
  · rintro ⟨hParsed, _⟩
    exact typable_of_parse hParsed
  · intro h
    have hParsed := parse_typable h hAll
    refine ⟨hParsed, fun store bot clock hClock d => ?_⟩
    obtain ⟨ids, message, d', hRun, hRevoked⟩ := revokeMany_run hClock (some name) d
    refine ⟨message, d', ?_, hRevoked.complete⟩
    rw [handleReply, if_neg (by simp), hParsed]
    exact hRun

/-- A configured instance can be revoked by its name exactly if the name can be typed. -/
theorem kill_switch_reaches_iff {raw : List (Text × Config.Block)} {env : Config.Environments}
    {configured : List (Text × Config.Instance)} (h : Config.instances raw env = .ok configured)
    {name : Text} (hAll : name ≠ "all".toList) :
    (name ∈ configured.map Prod.fst → KillSwitch name) ↔
      (name ∈ raw.map Prod.fst → Typable name) := by
  rw [Config.instances_names h, killSwitch_iff_typable hAll]

def exampleBlock : Config.Block :=
  [("url".toList, .text "https://nc.example".toList), ("username".toList, .text "broker".toList),
    ("password".toList, .text "secret".toList)]

theorem kill_switch_reaches_iff_nc :
    ∃ configured, Config.instances [("nc".toList, exampleBlock)] ⟨[], []⟩ = .ok configured ∧
      (("nc".toList ∈ configured.map Prod.fst → KillSwitch "nc".toList) ↔
        ("nc".toList ∈ [("nc".toList, exampleBlock)].map Prod.fst → Typable "nc".toList)) :=
  ⟨_, rfl, @kill_switch_reaches_iff [("nc".toList, exampleBlock)] ⟨[], []⟩ _ rfl "nc".toList
    (by decide)⟩

/-- Both names are configured; the first is lowered and the second is not read. -/
theorem kill_switch_misses :
    ∃ configured, Config.instances [("Home".toList, exampleBlock), ("9nc".toList, exampleBlock)]
        ⟨[], []⟩ = .ok configured ∧
      configured.map Prod.fst = ["Home".toList, "9nc".toList] ∧
      ¬ KillSwitch "Home".toList ∧ ¬ KillSwitch "9nc".toList := by
  refine ⟨_, rfl, by decide, ?_, ?_⟩
  · rintro ⟨hParsed, _⟩
    have hLowered : parseReply (revokeText "Home".toList) =
        .ok (some (.revokeInstance "home".toList)) := by decide +kernel
    rw [hLowered] at hParsed
    exact absurd hParsed (by decide)
  · rintro ⟨hParsed, _⟩
    have hUnread : parseReply (revokeText "9nc".toList) = .ok none := by decide +kernel
    rw [hUnread] at hParsed
    cases hParsed

/-! ## Mass revocations -/

/-- In every reachable state of the store, the approver's `revoke all` or `revoke <instance>`
revokes what is active on its target and nothing else, and reports what it revoked. -/
def MassRevocation (target : Option Text) : Prop :=
  ∀ (store : Settings) (bot : Bot) (clock : Nat → Int), Monotone clock →
    (∀ names name, store.allowedInstances = some names → target = some name → name ∈ names) →
    ∀ (start : Int) (acts : List Act) (d : Desk),
      let s := Machine.run (Session.step store) (Session.start start) acts
      d.db = s.db → s.now ≤ clock d.asked →
        ∃ ids message d', (handleReply store bot clock bot.approver
            (revokeText (target.getD "all".toList))).run d =
              (.ok (.awaits (.sending message)), d') ∧
          RevokedMany store clock target d d' ids message

def granting (instanceName : Text) (rid : Nat) : List Act :=
  [.call (.createRequest instanceName (some "why".toList) [⟨some "docs".toList, some Paths.READ⟩]),
    .call (.approve rid none none)]

def grantedRow (instanceName : Text) : Row :=
  (pendingRow 0 instanceName "why".toList [⟨"docs".toList, Paths.READ⟩]).activate 0
    [⟨"docs".toList, Paths.READ⟩] defaultGrantDuration

theorem granting_run (instanceName : Text) (rid : Nat) {s : Session} (hNow : s.now = 0)
    (hNext : s.db.grants.next = rid) :
    let s' := Machine.run (Session.step defaultSettings) s (granting instanceName rid)
    s'.now = 0 ∧ s'.db.grants.next = rid + 1 ∧
      ∀ other, s'.db.grants.get? other =
        if other = rid then some (grantedRow instanceName) else s.db.grants.get? other := by
  obtain ⟨db, now, events⟩ := s
  obtain rfl : now = 0 := hNow
  obtain rfl : db.grants.next = rid := hNext
  let pending : Row := pendingRow 0 instanceName "why".toList [⟨"docs".toList, Paths.READ⟩]
  have hRow : (db.putGrants (db.grants.insert pending)).grants.get? db.grants.next = some pending := by
    rw [Database.putGrants_grants, AutoTable.get?_insert, if_pos rfl]
  have hCreate : ((Operation.createRequest instanceName (some "why".toList)
      [⟨some "docs".toList, some Paths.READ⟩]).run defaultSettings 0).run db =
        (.ok (some (toRecord defaultSettings 0 db.grants.next pending)),
          db.putGrants (db.grants.insert pending)) :=
    Effect.bind_ok (createRequest_run (by decide) (by decide) (by simp [defaultSettings])
      (by decide +kernel) db)
  have hApprove : ((Operation.approve db.grants.next none none).run defaultSettings 0).run
      (db.putGrants (db.grants.insert pending)) =
        (.ok (some (toRecord defaultSettings 0 db.grants.next (grantedRow instanceName))),
          (db.putGrants (db.grants.insert pending)).putGrants
            ((db.grants.insert pending).modify db.grants.next
              (Row.activate 0 [⟨"docs".toList, Paths.READ⟩] defaultGrantDuration))) := by
    refine (Effect.bind_ok ?_).trans rfl
    rw [approve, Effect.bind_ok (assertPending_run hRow rfl)]
    exact updateGrant_getRow _ hRow
  have hFiled : ∃ events', Session.step defaultSettings ⟨db, 0, events⟩
      (.call (.createRequest instanceName (some "why".toList)
        [⟨some "docs".toList, some Paths.READ⟩])) =
        ⟨db.putGrants (db.grants.insert pending), 0, events'⟩ := by
    rw [Session.step, hCreate]
    exact ⟨_, rfl⟩
  obtain ⟨events', hFiled⟩ := hFiled
  intro s'
  have hRun : s' = Session.step defaultSettings ⟨db.putGrants (db.grants.insert pending), 0, events'⟩
      (.call (.approve db.grants.next none none)) := by
    rw [← hFiled]
    rfl
  rw [hRun, Session.step, hApprove]
  refine ⟨rfl, rfl, fun other => ?_⟩
  dsimp only
  rw [Database.putGrants_grants, AutoTable.get?_modify]
  by_cases hOther : other = db.grants.next
  · rw [if_pos hOther, if_pos hOther, AutoTable.get?_insert, if_pos rfl]
    rfl
  · rw [if_neg hOther, if_neg hOther, AutoTable.get?_insert, if_neg hOther]

def threeGrants (name : Text) : List Act :=
  granting name 1 ++ granting name 2 ++ granting ('x' :: name) 3

theorem threeGrants_run (name : Text) :
    let s := Machine.run (Session.step defaultSettings) (Session.start 0) (threeGrants name)
    s.now = 0 ∧ s.db.grants.get? 1 = some (grantedRow name) ∧
      s.db.grants.get? 2 = some (grantedRow name) ∧
      s.db.grants.get? 3 = some (grantedRow ('x' :: name)) := by
  obtain ⟨hNow, hNext, hFirst⟩ := granting_run name 1 (s := Session.start 0) rfl rfl
  obtain ⟨hNow, hNext, hSecond⟩ := granting_run name 2 hNow hNext
  obtain ⟨hNow, _, hThird⟩ := granting_run ('x' :: name) 3 hNow hNext
  dsimp only
  rw [threeGrants, Machine.run_append, Machine.run_append]
  refine ⟨hNow, ?_, ?_, ?_⟩
  · rw [hThird, if_neg (by decide), hSecond, if_neg (by decide), hFirst, if_pos rfl]
  · rw [hThird, if_neg (by decide), hSecond, if_pos rfl]
  · rw [hThird, if_pos rfl]

theorem grantedRow_listed {name : Text} {target : Option Text} {db : Database} {rid : Nat}
    (hRow : db.grants.get? rid = some (grantedRow name)) (hTarget : ∀ n, target = some n → n = name) :
    activeGrants defaultSettings 0 target db ≠ [] := by
  refine List.ne_nil_of_mem (a := toRecord defaultSettings 0 rid (grantedRow name)) ?_
  refine mem_activeGrants.mpr ⟨grantedRow name, defaultGrantDuration, hRow, rfl, rfl, by decide, ?_, rfl⟩
  exact fun n hn => (hTarget n hn).symm

/-- A name that is reached is read as the revocation of that instance. -/
theorem MassRevocation.parsed {name : Text} (h : MassRevocation (some name)) :
    parseReply (revokeText name) = .ok (some (.revokeInstance name)) := by
  let bot : Bot := ⟨[], fun _ => none⟩
  let clock : Nat → Int := fun _ => 0
  obtain ⟨hNow, hFirst, hSecond, hThird⟩ := threeGrants_run name
  generalize hDb : (Machine.run (Session.step defaultSettings) (Session.start 0)
    (threeGrants name)).db = db at hFirst hSecond hThird
  obtain ⟨ids, message, d', hRun, hRevoked⟩ := h defaultSettings bot clock monotone_const
    (by simp [defaultSettings]) 0 (threeGrants name) ⟨db, [], [], 0⟩ hDb.symm (le_of_eq hNow)
  rw [Option.getD_some] at hRun
  -- what is on the instance is gone, and the grant on the other instance is as it was
  have hGone : ∀ rid, d'.db.grants.get? rid ≠ some (grantedRow name) := by
    intro rid hRow
    exact grantedRow_listed hRow (by simp) (hRevoked.complete 0 (le_refl _))
  have hOther : d'.db.grants.get? 3 = some (grantedRow ('x' :: name)) :=
    hRevoked.confined 3 _ hThird (Or.inl ⟨name, rfl, by simp [grantedRow, Row.activate, pendingRow]⟩)
  let lost (rid : Nat) (row : Row) : Prop :=
    (∃ action itemNumbers expiry, action ≠ "approve".toList ∧ action ≠ "reject".toList ∧
        parseReply (revokeText name) = .ok (some (.decision action rid itemNumbers expiry))) ∨
      parseReply (revokeText name) = .ok (some .revokeAll) ∨
      parseReply (revokeText name) = .ok (some (.revokeInstance row.instanceName))
  have hSpares : Effect.Along (Desk.Spares lost)
      (handleReply defaultSettings bot clock bot.approver (revokeText name)) :=
    handleReply_spares monotone_const bot.approver (revokeText name) fun _ _ _ hLost => hLost
  have hLost := hSpares ⟨db, [], [], 0⟩
  have hFirstLost := (hLost 1 _ hFirst rfl).resolve_right (by rw [hRun]; exact hGone 1)
  have hSecondLost := (hLost 2 _ hSecond rfl).resolve_right (by rw [hRun]; exact hGone 2)
  rcases hFirstLost with ⟨_, _, _, _, _, hParsed⟩ | hAll | hInstance
  · -- a decision names one number, and two are gone
    rcases hSecondLost with ⟨_, _, _, _, _, hOther⟩ | hOther | hOther
    · rw [hParsed] at hOther
      cases hOther
    · rw [hParsed] at hOther
      cases hOther
    · rw [hParsed] at hOther
      cases hOther
  · -- the revocation of all would have taken the grant on the other instance too
    obtain ⟨_, _, d'', hRunAll, hRevokedAll⟩ := mass_revocation defaultSettings bot clock
      monotone_const none (revokeText name) hAll ⟨db, [], [], 0⟩
    rw [hRun] at hRunAll
    cases hRunAll
    exact absurd (hRevokedAll.complete 0 (le_refl _)) (grantedRow_listed hOther (by simp))
  · exact hInstance

/-- A mass revocation is complete and confined exactly on the instances whose names can be typed,
`all` apart. -/
theorem mass_revocation_iff (target : Option Text) :
    MassRevocation target ↔ ∀ name ∈ target, Typable name ∧ name ≠ "all".toList := by
  constructor
  · rintro h name rfl
    have hParsed := h.parsed
    refine ⟨typable_of_parse hParsed, ?_⟩
    rintro rfl
    have hAll : parseReply (revokeText "all".toList) = .ok (some .revokeAll) := by decide +kernel
    rw [hAll] at hParsed
    cases hParsed
  · intro h store bot clock hClock _ start acts d s _ _
    apply mass_revocation store bot clock hClock target
    cases target with
    | none => decide +kernel
    | some name => exact parse_typable (h name rfl).1 (h name rfl).2

/-- `revoke Home` leaves the grants on the instance `Home` active. -/
theorem home_stays_granted :
    let s := Machine.run (Session.step defaultSettings) (Session.start 0) (threeGrants "Home".toList)
    let d := ((handleReply defaultSettings ⟨"@owner".toList, fun _ => none⟩ (fun _ => 0)
      "@owner".toList "revoke Home".toList).run ⟨s.db, [], [], 0⟩).2
    (activeGrants defaultSettings 0 (some "Home".toList) d.db).map GrantRecord.id = [1, 2] ∧
      ¬ MassRevocation (some "Home".toList) := by
  refine ⟨by decide +kernel, fun h => ?_⟩
  have hLowered : parseReply (revokeText "Home".toList) =
      .ok (some (.revokeInstance "home".toList)) := by decide +kernel
  have hParsed := h.parsed
  rw [hLowered] at hParsed
  exact absurd hParsed (by decide)

end AccessBroker.MatrixBot
