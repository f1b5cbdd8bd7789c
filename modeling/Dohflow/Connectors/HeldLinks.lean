/-
This file is about which links a sync advances to its date.

A link advances when it was mapped as the walk started, its account appeared in a response,
its currency is not known to be foreign, and no reported scope holds it. A scope holds a
link by a sanitised id that is the link's key or its part after a slash. The rule behind it
is that a watermark advances only over windows that the provider reported complete:
`incomplete_windows_held` says for which responses and links the code keeps this rule.
-/

import Dohflow.Connectors.SimpleFin

namespace Dohflow.Connectors

open SyncCore Fallible

/-! ### Links -/

/-- A row of the links of a connection. -/
structure ConnectorLinkRow where
  externalId : String
  externalName : Option String
  /-- The account that the link is mapped to. -/
  accountId : Option Uuid
  lastSyncedOn : Option String
  currency : Option String

inductive ConnectorCurrencyRefusal
  | unknown
  | foreign (accountCurrency baseCurrency : String)

def connectorCurrencyGuard (accountCurrency : Option String) (baseCurrency : String) :
    Except ConnectorCurrencyRefusal Unit :=
  let base := toAsciiUppercase (trim baseCurrency)
  match accountCurrency.map fun code => toAsciiUppercase (trim code) with
  | none => .error .unknown
  | some code =>
    if code = "" then .error .unknown
    else if code = base then .ok ()
    else .error (.foreign code base)

/-- Whether a link is known to be in another currency than the base. -/
def ConnectorLinkRow.isForeign (link : ConnectorLinkRow) (baseCurrency : String) : Bool :=
  match connectorCurrencyGuard link.currency baseCurrency with
  | .error (.foreign _ _) => true
  | _ => false

/-- A scope holds the link with this key. -/
def holdsKey (raw externalId : String) : Bool :=
  externalId = raw || endsWith externalId ("/" ++ raw)

/-- The keys of the links that the scopes hold. -/
def heldLinkIds (heldRaw : List String) (links : List ConnectorLinkRow) : List String :=
  heldRaw.flatMap fun raw =>
    (links.filter fun link => holdsKey raw link.externalId).map (·.externalId)

/-- The links that are mapped, with their accounts. -/
def accountMap (links : List ConnectorLinkRow) : List (String × Uuid) :=
  links.filterMap fun link => link.accountId.map fun account => (link.externalId, account)

/-- The map without the links that are now known to be in another currency. -/
def effectiveMap (links linksNow : List ConnectorLinkRow) (baseCurrency : String) :
    List (String × Uuid) :=
  (accountMap links).filter fun entry =>
    !linksNow.any fun link => link.externalId = entry.1 && link.isForeign baseCurrency

/-- The links that a sync advances, by its batch, the links as the walk started, and the links as
they are read again after the accounts of the batch were saved. -/
def advanceOf (batch : SyncBatch) (links linksNow : List ConnectorLinkRow)
    (baseCurrency : String) : List String :=
  if batch.holdAllWatermarks then []
  else
    let held := heldLinkIds batch.heldAccountIds links
    let responseKeys := batch.accounts.filterMap (·.externalId)
    ((effectiveMap links linksNow baseCurrency).map Prod.fst).filter fun key =>
      key ∈ responseKeys && key ∉ held

/-- A sync that fails advances nothing. -/
def advanced (sets : List AccountSet) (links linksNow : List ConnectorLinkRow)
    (baseCurrency : String) : List String :=
  match sync sets with
  | .ok batch => advanceOf batch links linksNow baseCurrency
  | .error _ => []

/-! ### What a walk collects -/

variable {sets : List AccountSet} {links linksNow : List ConnectorLinkRow} {baseCurrency : String}
  {error : WireError} {key : String}
variable (set : AccountSet) (outcome : SplitOutcome) {more : List AccountSet} {walk after : Walk}
  {batch : SyncBatch}

/-- An error of one of the sets. -/
def Reported (sets : List AccountSet) (error : WireError) : Prop :=
  ∃ set ∈ sets, error ∈ set.errlist

/-- An account of one of the sets has the key. -/
def Appears (sets : List AccountSet) (key : String) : Prop :=
  ∃ set ∈ sets, ∃ account ∈ set.accounts, accountKey account = key

/-- An error that refuses the whole access. -/
def WireError.isFatal (error : WireError) : Bool :=
  codePrefix error.code = "gen" && error.isAuth

theorem isAuth_of_isRetry (retry : error.isRetry = true) : error.isAuth = false := by
  simp only [WireError.isRetry, Bool.or_eq_true, decide_eq_true_eq] at retry
  rcases retry with code | code
  · rw [WireError.isAuth, code]
    decide +kernel
  · rw [WireError.isAuth, code]
    decide +kernel

theorem retryRequired_add (error : WireError) :
    (outcome.add error).retryRequired = outcome.retryRequired ++
      if error.isRetry then [error.accountId.map sanitize] else [] := by
  unfold SplitOutcome.add
  by_cases retry : error.isRetry = true
  · simp [isAuth_of_isRetry retry, retry]
  · simp only [retry, Bool.false_eq_true, if_false, List.append_nil]
    split_ifs <;> rfl

theorem fatal_add (error : WireError) :
    (outcome.add error).fatal.isSome = (outcome.fatal.isSome || error.isFatal) := by
  unfold SplitOutcome.add WireError.isFatal
  by_cases auth : (decide (codePrefix error.code = "gen") && error.isAuth) = true
  · have other : (decide (codePrefix error.code = "con") && error.isAuth) = false := by
      rw [Bool.and_eq_true, decide_eq_true_eq] at auth
      simp [auth.1]
    cases held : outcome.fatal with
    | none => simp [auth, other, held]
    | some fatal =>
      have retry : error.isRetry = false := by
        by_contra isRetry
        rw [isAuth_of_isRetry (Bool.not_eq_false _ ▸ isRetry), Bool.and_false] at auth
        cases auth
      simp [auth, other, held, retry]
  · simp only [auth, Bool.false_and, Bool.or_false, Bool.false_eq_true, if_false]
    split_ifs <;> rfl

theorem retryRequired_splitErrors : (splitErrors set).retryRequired =
    (set.errlist.filter (·.isRetry)).map fun error => error.accountId.map sanitize := by
  have folded : ∀ (errors : List WireError) (outcome : SplitOutcome),
      (errors.foldl SplitOutcome.add outcome).retryRequired = outcome.retryRequired ++
        (errors.filter (·.isRetry)).map fun error => error.accountId.map sanitize := by
    intro errors
    induction errors with
    | nil => exact fun outcome => (List.append_nil _).symm
    | cons error rest inductionHypothesis =>
      intro outcome
      rw [List.foldl_cons, inductionHypothesis, retryRequired_add, List.filter_cons,
        List.append_assoc]
      cases error.isRetry <;> rfl
  exact folded set.errlist .empty

theorem fatal_splitErrors : (splitErrors set).fatal.isSome = set.errlist.any (·.isFatal) := by
  have folded : ∀ (errors : List WireError) (outcome : SplitOutcome),
      (errors.foldl SplitOutcome.add outcome).fatal.isSome =
        (outcome.fatal.isSome || errors.any (·.isFatal)) := by
    intro errors
    induction errors with
    | nil => exact fun outcome => (Bool.or_false _).symm
    | cons error rest inductionHypothesis =>
      intro outcome
      rw [List.foldl_cons, inductionHypothesis, fatal_add, List.any_cons, Bool.or_assoc]
  exact folded set.errlist .empty

/-- What a walk has collected after some sets. -/
structure Collected (walk : Walk) (sets : List AccountSet) : Prop where
  fatal : ∀ error, Reported sets error → error.isFatal = false
  held : ∀ raw, raw ∈ walk.heldAccountIds ↔ ∃ error, Reported sets error ∧
    error.isRetry = true ∧ error.accountId.map sanitize = some raw
  all : walk.holdAllWatermarks = true ↔ ∃ error, Reported sets error ∧
    error.isRetry = true ∧ error.accountId = none
  keys : ∀ key, key ∈ walk.accountKeys ↔ Appears sets key
  parsed : walk.accounts.filterMap (·.externalId) = walk.accountKeys

theorem collected_empty : Collected .empty [] where
  fatal := by rintro error ⟨_, inside, -⟩; cases inside
  held raw := by simp [Walk.empty, Reported]
  all := by simp [Walk.empty, Reported]
  keys key := by simp [Walk.empty, Appears]
  parsed := rfl

theorem foldl_addAccount (accounts : List WireAccount) (walk : Walk)
    (parsed : walk.accounts.filterMap (·.externalId) = walk.accountKeys) :
    let after := accounts.foldl (Walk.addAccount set) walk
    after.heldAccountIds = walk.heldAccountIds ∧
      after.holdAllWatermarks = walk.holdAllWatermarks ∧
      (∀ key, key ∈ after.accountKeys ↔
        key ∈ walk.accountKeys ∨ ∃ account ∈ accounts, accountKey account = key) ∧
      after.accounts.filterMap (·.externalId) = after.accountKeys := by
  induction accounts generalizing walk with
  | nil => exact ⟨rfl, rfl, by simp, parsed⟩
  | cons account rest inductionHypothesis =>
    rw [List.foldl_cons]
    by_cases known : accountKey account ∈ walk.accountKeys
    · have same : Walk.addAccount set walk account = walk := if_pos known
      rw [same]
      obtain ⟨held, all, keys, parsedAfter⟩ := inductionHypothesis walk parsed
      refine ⟨held, all, fun key => ?_, parsedAfter⟩
      rw [keys, List.exists_mem_cons_iff, ← or_assoc]
      refine or_congr_left ⟨.inl, ?_⟩
      rintro (inside | rfl)
      · exact inside
      · exact known
    · have added : Walk.addAccount set walk account = { walk with
          accountKeys := walk.accountKeys ++ [accountKey account]
          accounts := walk.accounts ++ [mapAccount account set] } := if_neg known
      rw [added]
      obtain ⟨held, all, keys, parsedAfter⟩ := inductionHypothesis { walk with
          accountKeys := walk.accountKeys ++ [accountKey account]
          accounts := walk.accounts ++ [mapAccount account set] } (by
        rw [List.filterMap_append, parsed]
        rfl)
      refine ⟨held, all, fun key => ?_, parsedAfter⟩
      rw [keys, List.exists_mem_cons_iff, List.mem_append, List.mem_singleton, or_assoc,
        @eq_comm _ key]

theorem reported_append {set : AccountSet} :
    Reported (sets ++ [set]) error ↔ Reported sets error ∨ error ∈ set.errlist := by
  simp [Reported, or_and_right, exists_or]

theorem Collected.take {set : AccountSet} (collected : Collected walk sets)
    (taken : walk.take set = .ok after) : Collected after (sets ++ [set]) := by
  unfold Walk.take at taken
  cases fatal : (splitErrors set).fatal with
  | some error =>
    simp only [fatal] at taken
    cases taken
  | none =>
    simp only [fatal] at taken
    have quiet : set.errlist.any (·.isFatal) = false := by
      rw [← fatal_splitErrors, fatal]
      rfl
    obtain rfl := Except.ok.inj taken
    obtain ⟨held, all, keys, parsed⟩ := foldl_addAccount set set.accounts
      (walk.addErrors set (splitErrors set)) collected.parsed
    refine ⟨fun error reported => ?_, fun raw => ?_, ?_, fun key => ?_, parsed⟩
    · rcases reported_append.mp reported with earlier | inside
      · exact collected.fatal error earlier
      · exact Bool.eq_false_iff.mpr (List.any_eq_false.mp quiet error inside)
    · rw [held, Walk.addErrors, List.mem_append, collected.held, retryRequired_splitErrors]
      simp only [List.mem_filterMap, List.mem_map, List.mem_filter, id, reported_append,
        or_and_right, exists_or, exists_eq_right, and_assoc]
    · rw [all, Walk.addErrors, Bool.or_eq_true, collected.all, retryRequired_splitErrors]
      simp only [List.any_map, List.any_filter, List.any_eq_true, Function.comp_apply,
        Bool.and_eq_true, Option.isNone_map, Option.isNone_iff_eq_none, reported_append,
        or_and_right, exists_or]
    · rw [keys, Walk.addErrors, collected.keys]
      simp [Appears, or_and_right, exists_or]

theorem collected_of_foldlM (collected : Collected walk sets)
    (ran : more.foldlM Walk.take walk = .ok after) : Collected after (sets ++ more) := by
  induction more generalizing walk sets with
  | nil =>
    obtain rfl := Except.ok.inj ran
    rwa [List.append_nil]
  | cons set rest inductionHypothesis =>
    rw [List.foldlM_cons, bind_eq_ok] at ran
    obtain ⟨between, taken, continued⟩ := ran
    have final := inductionHypothesis (collected.take taken) continued
    rwa [List.append_assoc] at final

theorem fatal_of_foldlM {walk : Walk} {failure : ConnectorError}
    (ran : more.foldlM Walk.take walk = .error failure) :
    ∃ error, Reported more error ∧ error.isFatal = true := by
  induction more generalizing walk with
  | nil => cases ran
  | cons set rest inductionHypothesis =>
    rw [List.foldlM_cons, bind_eq_error] at ran
    rcases ran with refused | ⟨between, -, continued⟩
    · have stops : (splitErrors set).fatal.isSome = true := by
        unfold Walk.take at refused
        cases fatal : (splitErrors set).fatal with
        | none =>
          simp only [fatal] at refused
          cases refused
        | some error => rfl
      rw [fatal_splitErrors, List.any_eq_true] at stops
      obtain ⟨error, inside, isFatal⟩ := stops
      exact ⟨error, ⟨set, List.mem_cons_self, inside⟩, isFatal⟩
    · obtain ⟨error, ⟨other, inside, member⟩, isFatal⟩ := inductionHypothesis continued
      exact ⟨error, ⟨other, List.mem_cons_of_mem _ inside, member⟩, isFatal⟩

/-! ### What a sync advances -/

/-- A link that was mapped as the walk started, is not known to be foreign and appears. -/
def Ready (sets : List AccountSet) (links linksNow : List ConnectorLinkRow)
    (baseCurrency key : String) : Prop :=
  key ∈ (effectiveMap links linksNow baseCurrency).map Prod.fst ∧ Appears sets key

/-- An error that says an account's window is incomplete holds the link with this key. -/
def Holds (sets : List AccountSet) (key : String) : Prop :=
  ∃ error raw, Reported sets error ∧ error.isRetry = true ∧ error.accountId = some raw ∧
    holdsKey (sanitize raw) key = true

/-- The sync stops, or an incomplete window is of no named account. -/
def HoldsAll (sets : List AccountSet) : Prop :=
  ∃ error, Reported sets error ∧
    (error.isFatal = true ∨ error.isRetry = true ∧ error.accountId = none)

theorem mem_sortDedup {raw : String} {ids : List String} : raw ∈ sortDedup ids ↔ raw ∈ ids := by
  rw [sortDedup, List.mem_dedup, List.mem_insertionSort]

theorem mem_links_of_effectiveMap
    (inside : key ∈ (effectiveMap links linksNow baseCurrency).map Prod.fst) :
    ∃ link ∈ links, link.externalId = key := by
  obtain ⟨entry, member, rfl⟩ := List.mem_map.mp inside
  obtain ⟨mapped, -⟩ := List.mem_filter.mp member
  obtain ⟨link, among, same⟩ := List.mem_filterMap.mp mapped
  obtain ⟨account, -, rfl⟩ := Option.map_eq_some_iff.mp same
  exact ⟨link, among, rfl⟩

theorem mem_advanceOf :
    key ∈ advanceOf batch links linksNow baseCurrency ↔ batch.holdAllWatermarks = false ∧
      key ∈ (effectiveMap links linksNow baseCurrency).map Prod.fst ∧
      key ∈ batch.accounts.filterMap (·.externalId) ∧
      ¬ ∃ raw ∈ batch.heldAccountIds, holdsKey raw key = true := by
  unfold advanceOf
  cases batch.holdAllWatermarks with
  | true => exact iff_of_false List.not_mem_nil fun open_ => nomatch open_.1
  | false =>
    rw [if_neg Bool.false_ne_true, List.mem_filter, Bool.and_eq_true, decide_eq_true_eq,
      decide_eq_true_eq, eq_self, true_and]
    refine and_congr_right fun mapped => and_congr_right fun _ => not_congr ?_
    obtain ⟨link, among, rfl⟩ := mem_links_of_effectiveMap mapped
    simp only [heldLinkIds, List.mem_flatMap, List.mem_map, List.mem_filter]
    constructor
    · rintro ⟨raw, held, other, ⟨-, holds⟩, same⟩
      exact ⟨raw, held, same ▸ holds⟩
    · rintro ⟨raw, held, holds⟩
      exact ⟨raw, held, link, ⟨among, holds⟩, rfl⟩

theorem mem_accounts_of_sync (synced : sync sets = .ok batch) :
    key ∈ batch.accounts.filterMap (·.externalId) ↔ Appears sets key := by
  rw [sync, bind_eq_ok] at synced
  obtain ⟨walk, walked, done⟩ := synced
  obtain rfl := Except.ok.inj done
  have collected : Collected walk sets := collected_of_foldlM collected_empty walked
  rw [← collected.keys, ← collected.parsed]
  rfl

theorem mem_advanced : key ∈ advanced sets links linksNow baseCurrency ↔
    ¬ HoldsAll sets ∧ Ready sets links linksNow baseCurrency key ∧ ¬ Holds sets key := by
  unfold advanced
  cases synced : sync sets with
  | error failure =>
    refine iff_of_false List.not_mem_nil fun ⟨open_, _⟩ => open_ ?_
    rw [sync, bind_eq_error] at synced
    rcases synced with refused | ⟨walk, -, done⟩
    · obtain ⟨error, reported, fatal⟩ := fatal_of_foldlM refused
      exact ⟨error, reported, .inl fatal⟩
    · cases done
  | ok batch =>
    have returned := synced
    rw [sync, bind_eq_ok] at synced
    obtain ⟨walk, walked, done⟩ := synced
    obtain rfl := Except.ok.inj done
    have collected : Collected walk sets := collected_of_foldlM collected_empty walked
    have open_iff : walk.batch.holdAllWatermarks = false ↔ ¬ HoldsAll sets := by
      rw [← Bool.not_eq_true, Walk.batch, collected.all]
      refine not_congr (exists_congr fun error => and_congr_right fun reported => ?_)
      rw [collected.fatal error reported]
      simp
    have held_iff : (∃ raw ∈ walk.batch.heldAccountIds, holdsKey raw key = true) ↔
        Holds sets key := by
      simp only [Walk.batch, mem_sortDedup, collected.held, Holds]
      constructor
      · rintro ⟨raw, ⟨error, reported, retry, named⟩, holds⟩
        obtain ⟨id, scope, rfl⟩ := Option.map_eq_some_iff.mp named
        exact ⟨error, id, reported, retry, scope, holds⟩
      · rintro ⟨error, id, reported, retry, scope, holds⟩
        exact ⟨sanitize id, ⟨error, reported, retry, by rw [scope]; rfl⟩, holds⟩
    show key ∈ advanceOf walk.batch links linksNow baseCurrency ↔ _
    rw [mem_advanceOf, open_iff, held_iff, mem_accounts_of_sync returned, Ready, and_assoc]

/-! ### The rule for incomplete windows -/

/-- A link with the account it was saved from. -/
structure SavedLink where
  connId : Option String
  id : String
  row : ConnectorLinkRow
  saved : row.externalId = accountKeyOf connId id

/-- The error says that the window of the link's account is incomplete, or asks for a new sign-in at
its connection. -/
def Names (error : WireError) (link : SavedLink) : Prop :=
  error.isRetry = true ∧ error.accountId = some link.id ∨
    error.code = "con.auth" ∧ error.connId ≠ none ∧ error.connId = link.connId

/-- It says so of no named account, or of no named connection. -/
def NamesNothing (error : WireError) : Prop :=
  error.isRetry = true ∧ error.accountId = none ∨ error.code = "con.auth" ∧ error.connId = none

/-- No link that an error names advances, and none at all when an error names nothing. -/
def HoldsIncomplete (sets : List AccountSet) (saved : List SavedLink) (advance : List String) :
    Prop :=
  (∀ link ∈ saved, ∀ error, Reported sets error → Names error link →
    link.row.externalId ∉ advance) ∧
  ((∃ error, Reported sets error ∧ NamesNothing error) → advance = [])

/-- Every error is about something that the scopes hold: a ready link that an error names is held by
the sanitised id of an account, and where an error asks for a sign-in at no connection, all ready
links are. -/
def ScopesCover (sets : List AccountSet) (saved : List SavedLink) (linksNow : List ConnectorLinkRow)
    (baseCurrency : String) : Prop :=
  ∀ link ∈ saved, Ready sets (saved.map (·.row)) linksNow baseCurrency link.row.externalId →
    (∃ error, Reported sets error ∧
      (Names error link ∨ error.code = "con.auth" ∧ error.connId = none)) →
    Holds sets link.row.externalId

/-- The scopes hold no ready link that no error names. -/
def ScopesExact (sets : List AccountSet) (saved : List SavedLink) (linksNow : List ConnectorLinkRow)
    (baseCurrency : String) : Prop :=
  ∀ link ∈ saved, Ready sets (saved.map (·.row)) linksNow baseCurrency link.row.externalId →
    (∀ error, Reported sets error → ¬ Names error link ∧ ¬ NamesNothing error) →
    ¬ Holds sets link.row.externalId

section

variable {saved : List SavedLink}

theorem advanced_of_holdsAll (all : HoldsAll sets) :
    advanced sets links linksNow baseCurrency = [] :=
  List.eq_nil_iff_forall_not_mem.mpr fun _ inside => (mem_advanced.mp inside).1 all

theorem holdsIncomplete_iff : HoldsIncomplete sets saved
      (advanced sets (saved.map (·.row)) linksNow baseCurrency) ↔
    HoldsAll sets ∨ ScopesCover sets saved linksNow baseCurrency := by
  constructor
  · rintro ⟨named, nothing⟩
    by_cases all : HoldsAll sets
    · exact .inl all
    · refine .inr fun link inside ready ⟨error, reported, about⟩ => ?_
      by_contra free
      have advances := mem_advanced.mpr ⟨all, ready, free⟩
      rcases about with names | signIn
      · exact named link inside error reported names advances
      · rw [nothing ⟨error, reported, .inr signIn⟩] at advances
        exact absurd advances List.not_mem_nil
  · rintro (all | cover)
    · rw [advanced_of_holdsAll all]
      exact ⟨fun _ _ _ _ _ => List.not_mem_nil, fun _ => rfl⟩
    · refine ⟨fun link inside error reported names advances => ?_, ?_⟩
      · obtain ⟨-, ready, free⟩ := mem_advanced.mp advances
        exact free (cover link inside ready ⟨error, reported, .inl names⟩)
      · rintro ⟨error, reported, ⟨retry, unscoped⟩ | signIn⟩
        · exact advanced_of_holdsAll ⟨error, reported, .inr ⟨retry, unscoped⟩⟩
        · refine List.eq_nil_iff_forall_not_mem.mpr fun key advances => ?_
          obtain ⟨-, ready, free⟩ := mem_advanced.mp advances
          obtain ⟨row, among, rfl⟩ := mem_links_of_effectiveMap ready.1
          obtain ⟨link, inside, rfl⟩ := List.mem_map.mp among
          exact free (cover link inside ready ⟨error, reported, .inr signIn⟩)

/-- A sync keeps the rule for incomplete windows if and only if it holds all links or its scopes
cover every error. A ready link that no scope holds advances; and the ready links that no error
names all do, if and only if no scope holds one of them. -/
theorem incomplete_windows_held (sets : List AccountSet) (saved : List SavedLink)
    (linksNow : List ConnectorLinkRow) (baseCurrency : String) :
    (HoldsIncomplete sets saved (advanced sets (saved.map (·.row)) linksNow baseCurrency) ↔
      HoldsAll sets ∨ ScopesCover sets saved linksNow baseCurrency) ∧
    (∀ link ∈ saved, ¬ HoldsAll sets →
      Ready sets (saved.map (·.row)) linksNow baseCurrency link.row.externalId →
      ¬ Holds sets link.row.externalId →
      link.row.externalId ∈ advanced sets (saved.map (·.row)) linksNow baseCurrency) ∧
    ((∀ link ∈ saved, ¬ HoldsAll sets →
      Ready sets (saved.map (·.row)) linksNow baseCurrency link.row.externalId →
      (∀ error, Reported sets error → ¬ Names error link ∧ ¬ NamesNothing error) →
      link.row.externalId ∈ advanced sets (saved.map (·.row)) linksNow baseCurrency) ↔
      HoldsAll sets ∨ ScopesExact sets saved linksNow baseCurrency) := by
  refine ⟨holdsIncomplete_iff, fun link _ open_ ready free => mem_advanced.mpr ⟨open_, ready, free⟩,
    fun advances => ?_, ?_⟩
  · by_cases all : HoldsAll sets
    · exact .inl all
    · exact .inr fun link inside ready unnamed =>
        (mem_advanced.mp (advances link inside all ready unnamed)).2.2
  · rintro (all | exact_) link inside open_ ready unnamed
    · exact absurd all open_
    · exact mem_advanced.mpr ⟨open_, ready, exact_ link inside ready unnamed⟩

end

/-! ### Incomplete windows that advance -/

/-- A link that is mapped to the account. -/
def mappedLink (connId id : String) : SavedLink where
  connId := some connId
  id := id
  row := ⟨accountKeyOf (some connId) id, none, some (.replicate 16 1), none, some "USD"⟩
  saved := rfl

/-- A response with one account and one error. -/
def oneAccount (connId id : String) (error : WireError) : AccountSet where
  errors := []
  errlist := [error]
  connections := []
  accounts := [⟨id, "Checking", "USD", none, some connId⟩]

/-- An id with a zero-width space is sanitised in the scope but not in the link, and a bank that asks
for a new sign-in is no scope: both links advance. -/
theorem incomplete_advances :
    ¬ HoldsIncomplete [oneAccount "C1" "A\u200b1" ⟨"act.failed", "", some "C1", some "A\u200b1"⟩]
        [mappedLink "C1" "A\u200b1"]
        (advanced [oneAccount "C1" "A\u200b1" ⟨"act.failed", "", some "C1", some "A\u200b1"⟩]
          [(mappedLink "C1" "A\u200b1").row] [(mappedLink "C1" "A\u200b1").row] "USD") ∧
      ¬ HoldsIncomplete [oneAccount "C1" "A1" ⟨"con.auth", "", some "C1", none⟩]
        [mappedLink "C1" "A1"]
        (advanced [oneAccount "C1" "A1" ⟨"con.auth", "", some "C1", none⟩]
          [(mappedLink "C1" "A1").row] [(mappedLink "C1" "A1").row] "USD") := by
  have forgedId : advanced
      [oneAccount "C1" "A\u200b1" ⟨"act.failed", "", some "C1", some "A\u200b1"⟩]
      [(mappedLink "C1" "A\u200b1").row] [(mappedLink "C1" "A\u200b1").row] "USD" =
        ["C1/A\u200b1"] := by decide +kernel
  have signIn : advanced [oneAccount "C1" "A1" ⟨"con.auth", "", some "C1", none⟩]
      [(mappedLink "C1" "A1").row] [(mappedLink "C1" "A1").row] "USD" = ["C1/A1"] := by
    decide +kernel
  refine ⟨fun holds => ?_, fun holds => ?_⟩
  · refine holds.1 _ List.mem_cons_self _ ⟨_, List.mem_cons_self, List.mem_cons_self⟩
      (.inl ⟨by decide, rfl⟩) ?_
    rw [forgedId]
    exact List.mem_singleton.mpr (by decide +kernel)
  · refine holds.1 _ List.mem_cons_self _ ⟨_, List.mem_cons_self, List.mem_cons_self⟩
      (.inr ⟨rfl, by decide, rfl⟩) ?_
    rw [signIn]
    exact List.mem_singleton.mpr (by decide +kernel)

end Dohflow.Connectors
