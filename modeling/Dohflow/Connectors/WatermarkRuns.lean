/-
This file proves that careful syncs keep every watermark to what was handed over, and shows
three runs of the code in which a watermark passes transactions that its account never
received: a link mapped to another account during the walk, a walk of a year that starts
after an old watermark, and a walk that ends on a later day than it began.
-/

import Dohflow.Connectors.Watermarks

namespace Dohflow.Connectors

open SyncCore Fallible KeyedTable

variable {providers : Uuid → Provider} {provider : Provider} {world before after : SyncWorld}
  {connection : Uuid} {walk : Walked} {externalIds : List String}
variable {links : List Link} {account : Uuid}

/-! ### The steps of a sync -/

theorem mem_accountMap {entry : String × Uuid} :
    entry ∈ accountMap (links.map Link.row) ↔
      ∃ link ∈ links, link.externalId = entry.1 ∧ link.accountId = some entry.2 := by
  simp only [accountMap, List.mem_filterMap, List.mem_map, exists_exists_and_eq_and,
    Option.map_eq_some_iff, Link.row]
  constructor
  · rintro ⟨link, member, account, mapped, rfl⟩
    exact ⟨link, member, rfl, mapped⟩
  · rintro ⟨link, member, named, mapped⟩
    exact ⟨link, member, entry.2, mapped, Prod.ext named rfl⟩

theorem Snapshot.link_eq {clock : Int} {one other : Link}
    (snapshot : Snapshot provider world connection clock links) (member : one ∈ links)
    (memberOther : other ∈ links) (same : one.externalId = other.externalId) : one = other :=
  List.inj_on_of_nodup_map snapshot.distinct member memberOther
    (Prod.ext ((snapshot.own one member).trans (snapshot.own other memberOther).symm) same)

theorem snapshot_connectorLinks (sound : Sound providers world) :
    Snapshot (providers connection) world connection world.clock
      (world.store.connectorLinks connection) := by
  unfold ConnectorStore.connectorLinks
  split
  · have among : ∀ old ∈ world.store.links.rows.filter fun link => link.connectionId = connection,
        old ∈ world.store.links.rows ∧ old.connectionId = connection := by
      intro old member
      rw [List.mem_filter, decide_eq_true_eq] at member
      exact member
    refine ⟨?_, fun old member => (among old member).2, fun old member => ?_,
      fun old member now inside same => ?_⟩
    · exact world.store.links.unique.sublist (List.filter_sublist.map _)
    · obtain ⟨inside, rfl⟩ := among old member
      exact sound.links old inside
    · rw [Table.eq_of_key_eq inside (among old member).1 same]
      exact .inr rfl
  · exact ⟨List.nodup_nil, fun _ member => (List.not_mem_nil member).elim,
      fun _ member => (List.not_mem_nil member).elim,
      fun _ member => (List.not_mem_nil member).elim⟩

theorem Sound.readLinks (sound : Sound providers world) :
    Sound providers (world.readLinks connection) := by
  unfold SyncWorld.readLinks
  split
  · dsimp only
    split
    · exact sound.enter trivial
    · exact sound.enter ⟨snapshot_connectorLinks sound, rfl⟩
  · exact sound.leave

theorem Sound.walked (sound : Sound providers world) {since : Option Int}
    {answer : Except ConnectorError (List AccountSet)}
    (running : world.syncs connection = some (.walking links since))
    (taken : world.walk (providers connection) connection links since answer = some after) :
    Sound providers after := by
  obtain ⟨snapshot, rfl⟩ : Snapshot (providers connection) world connection world.clock links ∧
    since = oldestWatermark links := sound.syncs connection _ running
  unfold SyncWorld.walk at taken
  split at taken
  · obtain rfl := Option.some.inj taken
    exact sound.leave
  · next sets =>
    dsimp only at taken
    split at taken
    · next complete =>
      split at taken
      · obtain rfl := Option.some.inj taken
        exact sound.leave
      · next batch synced =>
        obtain rfl := Option.some.inj taken
        refine sound.enter ⟨snapshot, le_refl _, fun posting member listed reached within => ?_⟩
        exact mem_records complete ((mem_accounts_of_sync synced).mp listed) member reached within
    · cases taken

theorem Sound.saveNext (sound : Sound providers world) {accounts : List ParsedAccount}
    {walk : Option Walked} (running : world.syncs connection = some (.saving accounts walk)) :
    Sound providers (world.saveNext connection accounts walk) := by
  have held : SyncSound (providers connection) world connection (.saving accounts walk) :=
    sound.syncs connection _ running
  cases accounts with
  | nil =>
    cases walk with
    | none => exact sound.leave
    | some walk => exact sound.enter held
  | cons account rest =>
    cases named : account.externalId with
    | none =>
      simp only [SyncWorld.saveNext, named]
      refine sound.enter ?_
      cases walk with
      | none => trivial
      | some walk => exact held
    | some externalId =>
      simp only [SyncWorld.saveNext, named]
      split
      · next store saved =>
        have commanded := sound.command (unadvanced_upsert saved)
        refine commanded.enter ?_
        have still : SyncSound (providers connection) { world with store } connection
            (.saving (account :: rest) walk) := commanded.syncs connection _ running
        cases walk with
        | none => trivial
        | some walk => exact still
      · exact sound.leave

theorem mem_stagedRows (returned : Returned provider world connection walk) {posting : Posting}
    (member : posting ∈ walk.records)
    (mapped : posting.account ∈ (effectiveMap (walk.links.map Link.row)
      ((world.store.connectorLinks connection).map Link.row) world.baseCurrency).map Prod.fst)
    {old : Link} (among : old ∈ walk.links) (same : old.externalId = posting.account)
    (held : old.accountId = some account) :
    (connection, account, posting) ∈ world.stagedRows connection walk := by
  obtain ⟨entry, inside, named⟩ := List.mem_map.mp mapped
  refine List.mem_map.mpr ⟨(account, posting), List.mem_filterMap.mpr ⟨posting, member, ?_⟩, rfl⟩
  cases found : List.find? (fun entry : String × Uuid => decide (entry.1 = posting.account))
    (effectiveMap (walk.links.map Link.row)
      ((world.store.connectorLinks connection).map Link.row) world.baseCurrency) with
  | none =>
    have missed := List.find?_eq_none.mp found entry inside
    rw [decide_eq_true_eq] at missed
    exact absurd named missed
  | some first =>
    obtain ⟨link, linked, firstName, firstAccount⟩ :=
      mem_accountMap.mp (List.mem_filter.mp (List.mem_of_find?_eq_some found)).1
    have sameName : first.1 = posting.account := by
      have holds := List.find?_some found
      rwa [decide_eq_true_eq] at holds
    obtain rfl := returned.snapshot.link_eq among linked
      (same.trans (firstName.trans sameName).symm)
    rw [held, Option.some.injEq] at firstAccount
    rw [Option.map_some, firstAccount]

theorem Sound.ingest (sound : Sound providers world)
    (running : world.syncs connection = some (.ingesting walk)) :
    Sound providers (world.ingest connection walk) := by
  have returned : Returned (providers connection) world connection walk :=
    sound.syncs connection _ running
  have handed : Sound providers
      { world with handed := world.handed ++ world.stagedRows connection walk } :=
    sound.of_store (fun _ => List.mem_append_left _) (le_refl _) rfl fun _ _ => id
  refine handed.enter (show Ingested _ _ _ _ _ from ⟨handed.syncs connection _ running,
    fun externalId member => (mem_advanceOf.mp member).2.2.1,
    fun posting member named old among same account mapped => ?_⟩)
  exact List.mem_append_right _
    (mem_stagedRows returned member (mem_advanceOf.mp named).2.1 among same mapped)

/-! ### The advance -/

theorem mem_advance {now : Link}
    (member : now ∈ (world.advance connection walk externalIds).store.links.rows) :
    ∃ earlier ∈ world.store.links.rows,
      (world.store.advances connection externalIds earlier = false ∧ now = earlier) ∨
      (world.store.advances connection externalIds earlier = true ∧ now.key = earlier.key ∧
        now.accountId = earlier.accountId ∧ now.lastSyncedOn = some world.clock ∧
        ∃ first, (first = none ∨ first = some walk.today) ∧
          now.firstSync = earlier.firstSync.or first) := by
  obtain ⟨between, inside, rfl⟩ := List.mem_map.mp member
  obtain ⟨earlier, among, rfl⟩ := List.mem_map.mp inside
  refine ⟨earlier, among, ?_⟩
  by_cases reached : world.store.advances connection externalIds earlier = true
  · have again : (world.store.advanceConnectorWatermarks connection world.clock
        externalIds).advances connection externalIds
        { earlier with lastSyncedOn := some world.clock } = true := reached
    rw [if_pos reached, if_pos again]
    refine .inr ⟨reached, rfl, rfl, rfl, _, ?_, rfl⟩
    split
    · exact .inr rfl
    · exact .inl rfl
  · have again : ¬ (world.store.advanceConnectorWatermarks connection world.clock
        externalIds).advances connection externalIds earlier = true := reached
    rw [if_neg reached, if_neg again]
    exact .inl ⟨Bool.eq_false_iff.mpr reached, rfl⟩

theorem oldestWatermark_eq_none {old : Link} (member : old ∈ links) (mapped : old.accountId ≠ none)
    (unmarked : old.lastSyncedOn = none) : oldestWatermark links = none := by
  unfold oldestWatermark
  refine if_neg fun all => ?_
  have marked := List.all_eq_true.mp all old
    (List.mem_filter.mpr ⟨member, Option.isSome_iff_ne_none.mpr mapped⟩)
  rw [unmarked] at marked
  cases marked

/-- A link that a careful sync advances is covered up to its new watermark. -/
theorem linkSound_of_advance (ingested : Ingested provider world connection walk externalIds)
    {link old now : Link} (inside : link ∈ world.store.links.rows)
    (named : link.externalId ∈ externalIds) (among : old ∈ walk.links)
    (key : old.key = link.key) (account : old.accountId = link.accountId)
    (reaches : Reaches provider walk world.clock old) (nowKey : now.key = link.key)
    (nowAccount : now.accountId = link.accountId) (marked : now.lastSyncedOn = some world.clock)
    {first : Option Int} (opens : first = none ∨ first = some walk.today)
    (opened : now.firstSync = link.firstSync.or first) :
    LinkSound provider world.handed world.clock now := by
  obtain ⟨snapshot, today, collected⟩ := ingested.returned
  have sameName : old.externalId = now.externalId := congrArg Prod.snd (key.trans nowKey.symm)
  have ours : now.connectionId = connection :=
    (congrArg Prod.fst (nowKey.trans key.symm)).trans (snapshot.own old among)
  have answered : old.externalId ∈ externalIds :=
    (show old.externalId = link.externalId from congrArg Prod.snd key) ▸ named
  refine ⟨fun unmarked => (Option.some_ne_none _ (marked.symm.trans unmarked)).elim,
    fun watermark account' nowMarked mapped => ?_⟩
  obtain rfl := Option.some.inj (marked.symm.trans nowMarked)
  have oldMapped : old.accountId = some account' := account.trans (nowAccount.symm.trans mapped)
  -- What the walk itself brought is handed over by now.
  have fresh : ∀ posting ∈ provider.postings, posting.account = now.externalId →
      walkStart (oldestWatermark walk.links) walk.today ≤ posting.day →
      posting.day ≤ walk.today → (now.connectionId, account', posting) ∈ world.handed := by
    intro posting member posted from_ until_
    have inIds : posting.account ∈ externalIds := by rwa [posted, ← sameName]
    rw [ours]
    exact ingested.staged posting
      (collected posting member (ingested.answered _ inIds) from_ until_) inIds old among
      (sameName.trans posted.symm) account' oldMapped
  have firsts : ∀ start, start ≤ walk.today - fullHistoryLookbackDays →
      (∀ opening, old.firstSync = some opening → start ≤ opening - fullHistoryLookbackDays) →
      ∀ opening, now.firstSync = some opening → start ≤ opening - fullHistoryLookbackDays := by
    intro start early before opening set
    rw [opened, Option.or_eq_some_iff] at set
    rcases set with linkSet | ⟨-, set⟩
    · rcases snapshot.since old among link inside key.symm with unopened | kept
      · rw [unopened] at linkSet
        cases linkSet
      · exact before opening (kept ▸ linkSet)
    · rcases opens with rfl | rfl
      · cases set
      · rw [← Option.some.inj set]
        exact early
  have withinDay : ∀ posting ∈ provider.postings, posting.account = now.externalId →
      posting.day ≤ world.clock → posting.day ≤ walk.today ∧
        ∀ watermark ∈ old.lastSyncedOn, watermark < posting.day →
          walkStart (oldestWatermark walk.links) walk.today ≤ posting.day :=
    fun posting member posted => reaches posting member (posted.trans sameName.symm)
  cases oldMarked : old.lastSyncedOn with
  | none =>
    -- The walk is one of a full year.
    have since : oldestWatermark walk.links = none :=
      oldestWatermark_eq_none among (oldMapped ▸ Option.some_ne_none _) oldMarked
    refine ⟨walk.today - fullHistoryLookbackDays, by omega, firsts _ (le_refl _) ?_, ?_⟩
    · intro opening set
      rw [(snapshot.sound old among).opened oldMarked] at set
      cases set
    · intro posting member posted from_ until_
      refine fresh posting member posted ?_ (withinDay posting member posted until_).1
      rwa [since]
  | some earlier =>
    obtain ⟨start, early, oldFirsts, held⟩ :=
      (snapshot.sound old among).covers earlier account' oldMarked oldMapped
    refine ⟨start, by omega, firsts start early oldFirsts, ?_⟩
    intro posting member posted from_ until_
    obtain ⟨byToday, afterMark⟩ := withinDay posting member posted until_
    by_cases known : posting.day ≤ earlier
    · rw [ours, ← snapshot.own old among]
      exact held posting member (posted.trans sameName.symm) from_ known
    · exact fresh posting member posted
        (afterMark earlier oldMarked (not_le.mp known)) byToday

theorem Sound.advance (sound : Sound providers world)
    (running : world.syncs connection = some (.advancing walk externalIds))
    (careful : Advances (providers connection) world connection walk externalIds) :
    Sound providers (world.advance connection walk externalIds) where
  links now member := by
    obtain ⟨link, inside, ⟨-, rfl⟩ | ⟨reached, key, account, marked, first, opens, opened⟩⟩ :=
      mem_advance member
    · exact sound.links now inside
    · obtain ⟨old, among, sameName, sameAccount, reaches⟩ := careful link inside reached
      have ingested : Ingested (providers connection) world connection walk externalIds :=
        sound.syncs connection _ running
      simp only [ConnectorStore.advances, Bool.and_eq_true, decide_eq_true_eq] at reached
      obtain ⟨⟨⟨-, ours⟩, named⟩, -⟩ := reached
      have ofConnection : now.connectionId = connection := (congrArg Prod.fst key).trans ours
      rw [ofConnection]
      exact linkSound_of_advance ingested inside named among
        (Prod.ext ((ingested.returned.snapshot.own old among).trans ours.symm) sameName) sameAccount
        reaches key account marked opens opened
  syncs other sync entered := by
    simp only [SyncWorld.advance, SyncWorld.enter, Function.update_apply] at entered
    split at entered
    · obtain rfl := Option.some.inj entered
      trivial
    · next different =>
      refine (sound.syncs other sync entered).later ⟨fun _ => id, le_refl _, fun now member ours => ?_⟩
      obtain ⟨link, inside, ⟨-, rfl⟩ | ⟨reached, key, -⟩⟩ := mem_advance member
      · exact .inr ⟨now, inside, rfl, rfl⟩
      · simp only [ConnectorStore.advances, Bool.and_eq_true, decide_eq_true_eq] at reached
        obtain ⟨⟨⟨-, theirs⟩, -⟩, -⟩ := reached
        exact absurd (ours.symm.trans ((congrArg Prod.fst key).trans theirs)) different

/-! ### Runs -/

/-- One step. -/
theorem Sound.step (sound : Sound providers world) {taken : SyncStep}
    (careful : Careful providers world taken)
    (followed : world.step providers taken = some after) : Sound providers after := by
  cases taken with
  | claim connection =>
    simp only [SyncWorld.step] at followed
    split at followed
    · obtain rfl := Option.some.inj followed
      exact sound.enter trivial
    · cases followed
  | read connection =>
    simp only [SyncWorld.step] at followed
    split at followed
    · obtain rfl := Option.some.inj followed
      exact sound.readLinks
    · cases followed
  | discovered connection accounts =>
    simp only [SyncWorld.step] at followed
    split at followed
    · obtain rfl := Option.some.inj followed
      exact sound.enter trivial
    · cases followed
  | walked connection answer =>
    simp only [SyncWorld.step] at followed
    split at followed
    · next links since running => exact sound.walked running followed
    · cases followed
  | lock connection =>
    simp only [SyncWorld.step] at followed
    split at followed
    · next accounts walk running free =>
      have held := sound.syncs connection _ running
      split at followed
      · obtain rfl := Option.some.inj followed
        have locked : Sound providers { world with lock := some connection } :=
          sound.of_store (fun _ => id) (le_refl _) rfl fun _ _ => id
        refine locked.enter ?_
        have still := locked.syncs connection _ running
        cases walk with
        | none => trivial
        | some walk => exact still
      · obtain rfl := Option.some.inj followed
        exact sound.leave
    · cases followed
  | save connection =>
    simp only [SyncWorld.step] at followed
    split at followed
    · next accounts walk running =>
      obtain rfl := Option.some.inj followed
      exact sound.saveNext running
    · cases followed
  | ingest connection =>
    simp only [SyncWorld.step] at followed
    split at followed
    · next walk running =>
      obtain rfl := Option.some.inj followed
      exact sound.ingest running
    · cases followed
  | ingestPart connection count =>
    simp only [SyncWorld.step] at followed
    split at followed
    · next walk running =>
      obtain rfl := Option.some.inj followed
      have handed : Sound providers { world with
          handed := world.handed ++ (world.stagedRows connection walk).take count } :=
        sound.of_store (fun _ => List.mem_append_left _) (le_refl _) rfl fun _ _ => id
      exact handed.leave
    · cases followed
  | advance connection =>
    simp only [SyncWorld.step] at followed
    split at followed
    · next walk externalIds running =>
      obtain rfl := Option.some.inj followed
      simp only [Careful, running, MayAdvance] at careful
      exact sound.advance running careful
    · cases followed
  | record connection =>
    simp only [SyncWorld.step] at followed
    split at followed
    · obtain rfl := Option.some.inj followed
      exact sound.leave
    · cases followed
  | fail connection =>
    simp only [SyncWorld.step] at followed
    split at followed
    · obtain rfl := Option.some.inj followed
      exact sound.leave
    · cases followed
  | crash =>
    obtain rfl := Option.some.inj followed
    exact sound.of_store (fun _ => id) (le_refl _) rfl fun _ _ running => by cases running
  | connect connection =>
    simp only [SyncWorld.step] at followed
    split at followed
    · obtain rfl := Option.some.inj followed
      exact sound.command (unadvanced_create world.store)
    · cases followed
  | discover connection externalId externalName currency =>
    simp only [SyncWorld.step] at followed
    split at followed
    · obtain rfl := Option.some.inj followed
      exact sound.committed fun _ => unadvanced_upsert
    · cases followed
  | setAccount connection externalId account =>
    simp only [SyncWorld.step] at followed
    split at followed
    · obtain rfl := Option.some.inj followed
      exact sound.committed fun _ => unadvanced_setAccount
    · cases followed
  | forget connection =>
    simp only [SyncWorld.step] at followed
    split at followed
    · obtain rfl := Option.some.inj followed
      exact sound.command (unadvanced_delete world.store)
    · cases followed
  | pass day =>
    simp only [SyncWorld.step] at followed
    split at followed
    · next later =>
      obtain rfl := Option.some.inj followed
      exact sound.of_store (fun _ => id) later rfl fun _ _ => id
    · cases followed

/-- In every run whose syncs advance only links that are mapped as before their walk and that the
walk reaches, no watermark passes a transaction that its account did not receive. -/
theorem watermarks_cover (providers : Uuid → Provider) (clock : Int) (baseCurrency : String)
    (world : SyncWorld)
    (reached : SyncReaches providers (Careful providers) clock baseCurrency world) :
    Covers providers world := by
  have sound : Sound providers world := by
    induction reached with
    | refl => exact sound_opening clock baseCurrency
    | tail _ follows inductionHypothesis =>
      obtain ⟨taken, careful, followed⟩ := follows
      exact inductionHypothesis.step careful followed
  exact sound.covers

/-! ### Samples -/

def linkId (byte : UInt8) : Uuid := .replicate 16 byte

/-- A transaction dated before the first sync, one of the day after it and one of a while later. -/
def sampleProvider : Provider :=
  ⟨[⟨"a", "first", 990 * 86400⟩, ⟨"a", "second", 1001 * 86400⟩, ⟨"a", "third", 1010 * 86400⟩],
    by decide⟩

def listed (windows : Nat) : Except ConnectorError (List AccountSet) :=
  .ok (List.replicate windows ⟨[], [], [], [⟨"a", "Checking", "USD", none, none⟩]⟩)

/-- A link is mapped, and its first sync walks the provider. -/
def firstWalk : List SyncStep :=
  [.connect (linkId 1), .discover (linkId 1) "a" (some "Checking") (some "USD"),
    .setAccount (linkId 1) "a" (some (linkId 2)),
    .claim (linkId 1), .read (linkId 1), .walked (linkId 1) (listed 10)]

def walkAgain (windows : Nat) : List SyncStep :=
  [.claim (linkId 1), .read (linkId 1), .walked (linkId 1) (listed windows)]

def persist : List SyncStep :=
  [.lock (linkId 1), .save (linkId 1), .save (linkId 1), .ingest (linkId 1), .advance (linkId 1),
    .record (linkId 1)]

def runFrom1000 (test : SyncWorld → SyncStep → Bool) (steps : List SyncStep) : Option SyncWorld :=
  (SyncWorld.opening 1000 "USD").run (fun _ => sampleProvider) test steps

def linksAndHanded (world : SyncWorld) : List Link × List (Uuid × Uuid × Posting) :=
  (world.store.links.rows, world.handed)

theorem watermarks_cover_sample :
    ∃ world, SyncReaches (fun _ => sampleProvider) (Careful fun _ => sampleProvider) 1000 "USD"
        world ∧
      world.store.links.rows = [⟨linkId 1, "a", some "Checking", some (linkId 2), some "USD",
        some 1020, 1, some 1000⟩] ∧
      Covers (fun _ => sampleProvider) world := by
  have ran : (runFrom1000 (isCareful fun _ => sampleProvider)
      (firstWalk ++ persist ++ [.pass 1020] ++ walkAgain 1 ++ persist)).map linksAndHanded =
      some ([⟨linkId 1, "a", some "Checking", some (linkId 2), some "USD", some 1020, 1,
        some 1000⟩], sampleProvider.postings.map fun posting => (linkId 1, linkId 2, posting)) := by
    decide +kernel
  obtain ⟨world, reaching, shown⟩ := Option.map_eq_some_iff.mp ran
  have reached := syncReaches_of_run careful_of_isCareful .refl reaching
  exact ⟨world, reached, congrArg Prod.fst shown,
    watermarks_cover (fun _ => sampleProvider) 1000 "USD" world reached⟩

/-- The run can be taken, and a watermark passes a transaction that its account never received. -/
def Misses (steps : List SyncStep) : Prop :=
  ∃ world, SyncReaches (fun _ => sampleProvider) (fun _ _ => True) 1000 "USD" world ∧
    runFrom1000 (fun _ _ => true) steps = some world ∧ ¬ Covers (fun _ => sampleProvider) world

theorem misses_of_run {steps : List SyncStep} {handed : List (Uuid × Uuid × Posting)}
    (ran : (runFrom1000 (fun _ _ => true) steps).map linksAndHanded = some (links, handed))
    (link : Link) (inside : link ∈ links) {watermark first : Int}
    (marked : link.lastSyncedOn = some watermark) (mapped : link.accountId = some account)
    (opened : link.firstSync = some first) (posting : Posting)
    (member : posting ∈ sampleProvider.postings) (named : posting.account = link.externalId)
    (within : posting.day ≤ watermark ∧ first - fullHistoryLookbackDays ≤ posting.day)
    (missing : (link.connectionId, account, posting) ∉ handed) : Misses steps := by
  obtain ⟨world, reaching, shown⟩ := Option.map_eq_some_iff.mp ran
  refine ⟨world, syncReaches_of_run (fun _ _ _ => trivial) .refl reaching, reaching,
    fun covers => missing ?_⟩
  rw [← show world.handed = handed from congrArg Prod.snd shown]
  refine covers link ?_ watermark account first marked mapped opened posting member named within.1
    within.2
  rw [show world.store.links.rows = links from congrArg Prod.fst shown]
  exact inside

/-- A link is mapped to another account while its sync walks; a link that was synced once gets its
next sync after more than a year, with another link newly mapped; and a walk ends on the day after
it began. Each time a watermark passes a transaction that was never handed over. -/
theorem watermarks_pass_unreceived_transactions :
    Misses (firstWalk ++ [.setAccount (linkId 1) "a" (some (linkId 3))] ++ persist ++
      walkAgain 1 ++ persist) ∧
    Misses (firstWalk ++ persist ++ [.pass 1400,
      .discover (linkId 1) "b" (some "Savings") (some "USD"),
      .setAccount (linkId 1) "b" (some (linkId 3))] ++ walkAgain 10 ++ persist) ∧
    Misses (firstWalk ++ [.pass 1001] ++ persist) := by
  refine ⟨?_, ?_, ?_⟩
  · have ran : (runFrom1000 (fun _ _ => true)
        (firstWalk ++ [.setAccount (linkId 1) "a" (some (linkId 3))] ++ persist ++
          walkAgain 1 ++ persist)).map linksAndHanded =
        some ([⟨linkId 1, "a", some "Checking", some (linkId 3), some "USD", some 1000, 2,
          some 1000⟩], [(linkId 1, linkId 2, ⟨"a", "first", 990 * 86400⟩)]) := by
      decide +kernel
    exact misses_of_run ran _ (List.mem_singleton_self _) rfl rfl rfl
      ⟨"a", "first", 990 * 86400⟩ (by decide) rfl (by decide) (by decide)
  · have ran : (runFrom1000 (fun _ _ => true) (firstWalk ++ persist ++ [.pass 1400,
        .discover (linkId 1) "b" (some "Savings") (some "USD"),
        .setAccount (linkId 1) "b" (some (linkId 3))] ++ walkAgain 10 ++ persist)).map
          linksAndHanded =
        some ([⟨linkId 1, "a", some "Checking", some (linkId 2), some "USD", some 1400, 1,
            some 1000⟩,
          ⟨linkId 1, "b", some "Savings", some (linkId 3), some "USD", none, 1, none⟩],
          [(linkId 1, linkId 2, ⟨"a", "first", 990 * 86400⟩)]) := by
      decide +kernel
    exact misses_of_run ran _ List.mem_cons_self rfl rfl rfl
      ⟨"a", "third", 1010 * 86400⟩ (by decide) rfl (by decide) (by decide)
  · have ran : (runFrom1000 (fun _ _ => true) (firstWalk ++ [.pass 1001] ++ persist)).map
          linksAndHanded =
        some ([⟨linkId 1, "a", some "Checking", some (linkId 2), some "USD", some 1001, 1,
          some 1000⟩], [(linkId 1, linkId 2, ⟨"a", "first", 990 * 86400⟩)]) := by
      decide +kernel
    exact misses_of_run ran _ (List.mem_singleton_self _) rfl rfl rfl
      ⟨"a", "second", 1001 * 86400⟩ (by decide) rfl (by decide) (by decide)

end Dohflow.Connectors
