/-
This file is about what the watermark of a link covers.

A watermark should never pass what was handed to staging for the account that its link is
mapped to, back to a year before the first sync after the mapping. A sync keeps this if,
when it advances a link, the link is still mapped as it was before the walk, and the days
of the walk reach all transactions between the watermark of then and the new one
(`watermarks_cover`). The code asks for neither: it advances a link whatever it is mapped
to by then, to the day on which it is done, after a walk of one year if any mapped link
has no watermark.

The proof carries, for every link and for every link as a sync read it, a day from which
all transactions up to the watermark were handed over (`LinkSound`).
-/

import Dohflow.Connectors.ConnectorSync

namespace Dohflow.Connectors

open SyncCore Fallible KeyedTable

variable {providers : Uuid → Provider} {provider : Provider} {world before after : SyncWorld}
  {connection : Uuid}
variable (store : ConnectorStore) {sync : Sync} {externalId : String} {clock now : Int}

/-- A watermark passes no transaction that its account did not receive. -/
def Covers (providers : Uuid → Provider) (world : SyncWorld) : Prop :=
  ∀ link ∈ world.store.links.rows, ∀ watermark account first,
    link.lastSyncedOn = some watermark → link.accountId = some account →
    link.firstSync = some first →
    ∀ posting ∈ (providers link.connectionId).postings, posting.account = link.externalId →
      posting.day ≤ watermark → first - fullHistoryLookbackDays ≤ posting.day →
      (link.connectionId, account, posting) ∈ world.handed

/-! ### The condition -/

/-- The transactions of a link that are dated by the given day are dated by the day of the walk, and
those after its watermark are not dated before the walk starts. -/
def Reaches (provider : Provider) (walk : Walked) (day : Int) (old : Link) : Prop :=
  ∀ posting ∈ provider.postings, posting.account = old.externalId → posting.day ≤ day →
    posting.day ≤ walk.today ∧ ∀ watermark ∈ old.lastSyncedOn, watermark < posting.day →
      walkStart (oldestWatermark walk.links) walk.today ≤ posting.day

instance (provider : Provider) (walk : Walked) (day : Int) (old : Link) :
    Decidable (Reaches provider walk day old) :=
  inferInstanceAs (Decidable (∀ posting ∈ provider.postings, _))

/-- The links that the sync advances are mapped as they were before its walk, which reaches up to
the day they advance to. -/
def Advances (provider : Provider) (world : SyncWorld) (connection : Uuid) (walk : Walked)
    (externalIds : List String) : Prop :=
  ∀ link ∈ world.store.links.rows, world.store.advances connection externalIds link = true →
    ∃ old ∈ walk.links, old.externalId = link.externalId ∧ old.accountId = link.accountId ∧
      Reaches provider walk world.clock old

instance (provider : Provider) (world : SyncWorld) (connection : Uuid) (walk : Walked)
    (externalIds : List String) : Decidable (Advances provider world connection walk externalIds) :=
  inferInstanceAs (Decidable (∀ link ∈ world.store.links.rows, _))

def MayAdvance (provider : Provider) (world : SyncWorld) (connection : Uuid) : Option Sync → Prop
  | some (.advancing walk externalIds) => Advances provider world connection walk externalIds
  | _ => True

instance (provider : Provider) (world : SyncWorld) (connection : Uuid) :
    ∀ sync, Decidable (MayAdvance provider world connection sync)
  | some (.advancing walk externalIds) =>
    inferInstanceAs (Decidable (Advances provider world connection walk externalIds))
  | none | some .claimed | some .discovering | some (.walking _ _) | some (.answered _ _)
  | some (.saving _ _) | some (.ingesting _) | some .recording => .isTrue trivial

/-- Every sync that advances its links may do so. -/
def Careful (providers : Uuid → Provider) (world : SyncWorld) : SyncStep → Prop
  | .advance connection =>
    MayAdvance (providers connection) world connection (world.syncs connection)
  | _ => True

/-- Whether a step is careful, for runs that are computed. -/
def isCareful (providers : Uuid → Provider) (world : SyncWorld) : SyncStep → Bool
  | .advance connection =>
    MayAdvance (providers connection) world connection (world.syncs connection)
  | _ => true

theorem careful_of_isCareful (world : SyncWorld) (taken : SyncStep)
    (passed : isCareful providers world taken = true) : Careful providers world taken := by
  cases taken with
  | advance connection =>
    show MayAdvance (providers connection) world connection (world.syncs connection)
    exact of_decide_eq_true passed
  | _ => trivial

/-! ### What is known of a link -/

/-- All transactions from some day to the watermark were handed over, and that day is early enough
for the first sync since the mapping, whether it was or is still to come. -/
structure LinkSound (provider : Provider) (handed : List (Uuid × Uuid × Posting)) (clock : Int)
    (link : Link) : Prop where
  opened : link.lastSyncedOn = none → link.firstSync = none
  covers : ∀ watermark account, link.lastSyncedOn = some watermark →
    link.accountId = some account → ∃ start, start ≤ clock - fullHistoryLookbackDays ∧
      (∀ first, link.firstSync = some first → start ≤ first - fullHistoryLookbackDays) ∧
      ∀ posting ∈ provider.postings, posting.account = link.externalId → start ≤ posting.day →
        posting.day ≤ watermark → (link.connectionId, account, posting) ∈ handed

theorem LinkSound.later {handed more : List (Uuid × Uuid × Posting)} {link : Link}
    (sound : LinkSound provider handed clock link) (grows : ∀ row ∈ handed, row ∈ more)
    (passes : clock ≤ now) :
    LinkSound provider more now link where
  opened := sound.opened
  covers watermark account marked mapped := by
    obtain ⟨start, early, firsts, held⟩ := sound.covers watermark account marked mapped
    exact ⟨start, by omega, firsts, fun posting member named from_ until_ =>
      grows _ (held posting member named from_ until_)⟩

theorem linkSound_of_unmarked {handed : List (Uuid × Uuid × Posting)} {clock : Int} {link : Link}
    (unmarked : link.lastSyncedOn = none) (unopened : link.firstSync = none) :
    LinkSound provider handed clock link where
  opened _ := unopened
  covers watermark account marked _ := by
    rw [unmarked] at marked
    cases marked

/-! ### What is known of a sync -/

/-- The links as a sync read them. Since then no other sync set the first sync of one. -/
structure Snapshot (provider : Provider) (world : SyncWorld) (connection : Uuid) (clock : Int)
    (links : List Link) : Prop where
  distinct : (links.map Link.key).Nodup
  own : ∀ old ∈ links, old.connectionId = connection
  sound : ∀ old ∈ links, LinkSound provider world.handed clock old
  since : ∀ old ∈ links, ∀ now ∈ world.store.links.rows, now.key = old.key →
    now.firstSync = none ∨ now.firstSync = old.firstSync

/-- A walk that came back. -/
structure Returned (provider : Provider) (world : SyncWorld) (connection : Uuid) (walk : Walked) :
    Prop where
  snapshot : Snapshot provider world connection walk.today walk.links
  today : walk.today ≤ world.clock
  collected : ∀ posting ∈ provider.postings,
    posting.account ∈ walk.batch.accounts.filterMap (·.externalId) →
    walkStart (oldestWatermark walk.links) walk.today ≤ posting.day →
    posting.day ≤ walk.today → posting ∈ walk.records

/-- What the walk collected of the links to advance was handed over. -/
structure Ingested (provider : Provider) (world : SyncWorld) (connection : Uuid) (walk : Walked)
    (externalIds : List String) : Prop where
  returned : Returned provider world connection walk
  answered : ∀ externalId ∈ externalIds,
    externalId ∈ walk.batch.accounts.filterMap (·.externalId)
  staged : ∀ posting ∈ walk.records, posting.account ∈ externalIds → ∀ old ∈ walk.links,
    old.externalId = posting.account → ∀ account, old.accountId = some account →
    (connection, account, posting) ∈ world.handed

def SyncSound (provider : Provider) (world : SyncWorld) (connection : Uuid) : Sync → Prop
  | .walking links since =>
    Snapshot provider world connection world.clock links ∧ since = oldestWatermark links
  | .answered _ (some walk) | .saving _ (some walk) | .ingesting walk =>
    Returned provider world connection walk
  | .advancing walk externalIds => Ingested provider world connection walk externalIds
  | _ => True

/-- Every link and every sync is as it should be. -/
structure Sound (providers : Uuid → Provider) (world : SyncWorld) : Prop where
  links : ∀ link ∈ world.store.links.rows,
    LinkSound (providers link.connectionId) world.handed world.clock link
  syncs : ∀ connection sync, world.syncs connection = some sync →
    SyncSound (providers connection) world connection sync

theorem Sound.covers (sound : Sound providers world) : Covers providers world := by
  intro link member watermark account first marked mapped opened posting among named until_ from_
  obtain ⟨start, -, firsts, held⟩ :=
    (sound.links link member).covers watermark account marked mapped
  exact held posting among named (le_trans (firsts first opened) from_) until_

theorem sound_opening (clock : Int) (baseCurrency : String) :
    Sound providers (.opening clock baseCurrency) where
  links _ member := nomatch member
  syncs _ _ running := nomatch running

/-! ### What a step leaves standing -/

/-- What was handed over stays so, the clock does not go back, and no link of the connection gets
a first sync. -/
structure Later (connection : Uuid) (before after : SyncWorld) : Prop where
  handed : ∀ row ∈ before.handed, row ∈ after.handed
  clock : before.clock ≤ after.clock
  firsts : ∀ now ∈ after.store.links.rows, now.connectionId = connection →
    now.firstSync = none ∨
      ∃ earlier ∈ before.store.links.rows, earlier.key = now.key ∧ earlier.firstSync = now.firstSync

theorem Snapshot.later {links : List Link}
    (snapshot : Snapshot provider before connection clock links)
    (later : Later connection before after) (passes : clock ≤ now) :
    Snapshot provider after connection now links where
  distinct := snapshot.distinct
  own := snapshot.own
  sound old member := (snapshot.sound old member).later later.handed passes
  since old member now inside same := by
    have ours : now.connectionId = connection :=
      (congrArg Prod.fst same).trans (snapshot.own old member)
    rcases later.firsts now inside ours with unopened | ⟨earlier, among, key, first⟩
    · exact .inl unopened
    · rw [← first]
      exact snapshot.since old member earlier among (key.trans same)

theorem Returned.later {walk : Walked} (returned : Returned provider before connection walk)
    (later : Later connection before after) : Returned provider after connection walk where
  snapshot := returned.snapshot.later later (le_refl _)
  today := le_trans returned.today later.clock
  collected := returned.collected

theorem SyncSound.later (sound : SyncSound provider before connection sync)
    (later : Later connection before after) : SyncSound provider after connection sync := by
  cases sync with
  | walking links since => exact ⟨sound.1.later later later.clock, sound.2⟩
  | answered accounts walk =>
    cases walk with
    | none => trivial
    | some walk => exact Returned.later sound later
  | saving accounts walk =>
    cases walk with
    | none => trivial
    | some walk => exact Returned.later sound later
  | ingesting walk => exact Returned.later sound later
  | advancing walk externalIds =>
    have ingested : Ingested provider before connection walk externalIds := sound
    exact ⟨ingested.returned.later later, ingested.answered,
      fun posting member named old among same account mapped =>
        later.handed _ (ingested.staged posting member named old among same account mapped)⟩
  | _ => trivial

/-- A step that leaves the syncs as they are, or ends some. -/
theorem Sound.later (sound : Sound providers before)
    (later : ∀ connection, Later connection before after)
    (links : ∀ link ∈ after.store.links.rows,
      LinkSound (providers link.connectionId) after.handed after.clock link)
    (fewer : ∀ connection sync, after.syncs connection = some sync →
      before.syncs connection = some sync) : Sound providers after where
  links := links
  syncs connection sync running :=
    (sound.syncs connection sync (fewer connection sync running)).later (later connection)

theorem Later.of_store (handed : ∀ row ∈ before.handed, row ∈ after.handed)
    (clock : before.clock ≤ after.clock) (store : after.store = before.store) :
    Later connection before after where
  handed := handed
  clock := clock
  firsts now inside _ := by
    rw [store] at inside
    exact .inr ⟨now, inside, rfl, rfl⟩

/-- A step that leaves the tables as they are and starts no sync. -/
theorem Sound.of_store (sound : Sound providers before)
    (handed : ∀ row ∈ before.handed, row ∈ after.handed) (clock : before.clock ≤ after.clock)
    (store : after.store = before.store)
    (fewer : ∀ connection sync, after.syncs connection = some sync →
      before.syncs connection = some sync) : Sound providers after := by
  refine sound.later (fun _ => .of_store handed clock store) (fun link member => ?_) fewer
  rw [store] at member
  exact (sound.links link member).later handed clock

theorem Sound.enter (sound : Sound providers world)
    (held : SyncSound (providers connection) world connection sync) :
    Sound providers (world.enter connection sync) where
  links := sound.links
  syncs other running entered := by
    simp only [SyncWorld.enter, Function.update_apply] at entered
    split at entered
    · next same =>
      subst same
      obtain rfl := Option.some.inj entered
      exact held.later (.of_store (fun _ => id) (le_refl _) rfl)
    · exact (sound.syncs other running entered).later (.of_store (fun _ => id) (le_refl _) rfl)

theorem leave_syncs {other : Uuid} (running : (world.leave connection).syncs other = some sync) :
    world.syncs other = some sync := by
  simp only [SyncWorld.leave, Function.update_apply] at running
  split at running
  · cases running
  · exact running

theorem Sound.leave (sound : Sound providers world) : Sound providers (world.leave connection) :=
  sound.of_store (fun _ => id) (le_refl _) rfl fun _ _ => leave_syncs

/-! ### The commands -/

/-- A command leaves the watermark, the mapping and the first sync of a link, or clears the
watermark and the first sync. -/
def Unadvanced (before after : ConnectorStore) : Prop :=
  ∀ now ∈ after.links.rows, now.lastSyncedOn = none ∧ now.firstSync = none ∨
    ∃ earlier ∈ before.links.rows, earlier.key = now.key ∧ earlier.accountId = now.accountId ∧
      earlier.lastSyncedOn = now.lastSyncedOn ∧ earlier.firstSync = now.firstSync

theorem unadvanced_refl : Unadvanced store store :=
  fun now member => .inr ⟨now, member, rfl, rfl, rfl, rfl⟩

theorem unadvanced_create : Unadvanced store (store.createConnectorConnection connection) := by
  unfold ConnectorStore.createConnectorConnection
  split
  · exact unadvanced_refl store
  · exact unadvanced_refl store

theorem unadvanced_upsert {store stored : ConnectorStore} {externalName currency : Option String}
    (done : store.upsertConnectorLink connection externalId externalName currency = .ok stored) :
    Unadvanced store stored := by
  obtain ⟨-, rest⟩ := ensure_bind_eq_ok.mp done
  split at rest
  · obtain rfl := Except.ok.inj rest
    exact unadvanced_refl store
  · split at rest
    · split at rest
      · obtain rfl := Except.ok.inj rest
        exact unadvanced_refl store
      · obtain ⟨-, written⟩ := ensure_bind_eq_ok.mp rest
        obtain rfl := Except.ok.inj written
        intro now member
        obtain ⟨earlier, among, rfl⟩ := List.mem_map.mp member
        refine .inr ⟨earlier, among, ?_⟩
        split <;> exact ⟨rfl, rfl, rfl, rfl⟩
    · obtain ⟨-, written⟩ := ensure_bind_eq_ok.mp rest
      split at written
      · next links inserted =>
        obtain rfl := Except.ok.inj written
        intro now member
        rw [(Table.insert_eq_some_iff.mp inserted).2, List.mem_append, List.mem_singleton]
          at member
        rcases member with among | rfl
        · exact .inr ⟨now, among, rfl, rfl, rfl, rfl⟩
        · exact .inl ⟨rfl, rfl⟩
      · obtain rfl := Except.ok.inj written
        exact unadvanced_refl store

theorem unadvanced_setAccount {store stored : ConnectorStore} {account : Option Uuid}
    (done : store.setConnectorLinkAccount connection externalId account = .ok stored) :
    Unadvanced store stored := by
  obtain ⟨-, rest⟩ := ensure_bind_eq_ok.mp done
  obtain ⟨-, written⟩ := ensure_bind_eq_ok.mp rest
  obtain rfl := Except.ok.inj written
  intro now member
  obtain ⟨earlier, among, rfl⟩ := List.mem_map.mp member
  split
  · exact .inl ⟨rfl, rfl⟩
  · exact .inr ⟨earlier, among, rfl, rfl, rfl, rfl⟩

theorem unadvanced_delete : Unadvanced store (store.deleteConnectorConnection connection) := by
  unfold ConnectorStore.deleteConnectorConnection
  split
  · exact unadvanced_refl store
  · intro now member
    obtain ⟨earlier, among, rfl⟩ := List.mem_map.mp member
    split
    · exact .inl ⟨rfl, rfl⟩
    · exact .inr ⟨earlier, among, rfl, rfl, rfl, rfl⟩

/-- A command that advances nothing keeps every link and every sync as it should be. -/
theorem Sound.command (sound : Sound providers world) {store : ConnectorStore}
    (unadvanced : Unadvanced world.store store) : Sound providers { world with store } := by
  refine sound.later (fun connection => ⟨fun _ => id, le_refl _, fun now inside _ => ?_⟩)
    (fun now inside => ?_) fun _ _ => id
  · rcases unadvanced now inside with ⟨-, unopened⟩ | ⟨earlier, among, key, -, -, first⟩
    · exact .inl unopened
    · exact .inr ⟨earlier, among, key, first⟩
  · rcases unadvanced now inside with ⟨unmarked, unopened⟩ |
      ⟨earlier, among, key, mapped, marked, first⟩
    · exact linkSound_of_unmarked unmarked unopened
    · obtain ⟨opened, covers⟩ := sound.links earlier among
      rw [mapped, marked, first, show earlier.connectionId = now.connectionId from
        congrArg Prod.fst key, show earlier.externalId = now.externalId from
        congrArg Prod.snd key] at covers
      rw [marked, first] at opened
      exact ⟨opened, covers⟩

theorem Sound.committed (sound : Sound providers world)
    {outcome : Except ConnectorDbError ConnectorStore}
    (unadvanced : ∀ store, outcome = .ok store → Unadvanced world.store store) :
    Sound providers (world.committed outcome) := by
  cases outcome with
  | error failure => exact sound
  | ok store => exact sound.command (unadvanced store rfl)

end Dohflow.Connectors
