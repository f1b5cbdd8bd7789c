/-
This file proves two things about every run of the sync status.

On a log that does not fork the order of the observations does not matter: the
status settles at the least observed position that cannot be applied
(`observations_settle`). And whatever is observed, a stop is left only by its own
exit (`stops_left_only_by_exits`): `Exits` lists the exits, every other
observation keeps a stop where it is, moves it to an earlier position or halts,
and a halt that no snapshot answers is kept for good.
-/

import Mathlib.Data.Finset.Max
import Dohflow.SyncCore.Status

namespace Dohflow.SyncCore

namespace SyncStatus

variable {status : SyncStatus} {place seq : Nat} {digest : Digest}

/-! ### Observing at a stop -/

/-- The position of a stop that is not a halt. -/
def stopSeq : SyncStatus → Option Nat
  | .envelopeInvalid invalid => some invalid.seq
  | .updateRequired update => some update.seq
  | _ => none

theorem halted_or_stopSeq (stopped : status ≠ .healthy) :
    (∃ evidence, status = .halted evidence) ∨ ∃ seq, status.stopSeq = some seq := by
  cases status with
  | healthy => exact absurd rfl stopped
  | halted evidence => exact .inl ⟨evidence, rfl⟩
  | envelopeInvalid invalid => exact .inr ⟨invalid.seq, rfl⟩
  | updateRequired update => exact .inr ⟨update.seq, rfl⟩

theorem observeEngineVersion_at_stop {version own : EngineVersion}
    (here : status.stopSeq = some place) (agrees : status.samePositionOtherDigest seq digest = none)
    (foreign : version ≠ own) :
    ((status.observeEngineVersion seq digest version own).1 =
        .updateRequired ⟨seq, digest, version, own⟩ ∧ seq ≤ place) ∨
      ((status.observeEngineVersion seq digest version own).1 = status ∧ place ≤ seq) := by
  unfold observeEngineVersion
  rw [agrees]
  dsimp only
  rw [if_neg foreign]
  cases status with
  | healthy => cases here
  | halted => cases here
  | envelopeInvalid invalid =>
    obtain rfl := Option.some.inj here
    dsimp only
    split
    · next same => exact .inl ⟨rfl, same.ge⟩
    · split
      · next earlier => exact .inr ⟨rfl, earlier⟩
      · next later => exact .inl ⟨rfl, Nat.le_of_not_le later⟩
  | updateRequired update =>
    obtain rfl := Option.some.inj here
    dsimp only
    split
    · next earlier => exact .inr ⟨rfl, earlier⟩
    · next later => exact .inl ⟨rfl, Nat.le_of_not_le later⟩

theorem observeStop_at_stop {header : ClearHeader} {own : EngineVersion} {reason : StopReason}
    (here : status.stopSeq = some place) (agrees : status.samePositionOtherDigest seq digest = none)
    (same : headerEngineVersion header = own) :
    ((status.observeStop seq digest header own (.error reason)).1 =
        .envelopeInvalid
          { seq, envelopeDigest := digest, commandId := header.objectId
            deviceId := header.deviceId, deviceKeyFingerprint := header.deviceKeyFingerprint
            reason } ∧ seq ≤ place) ∨
      ((status.observeStop seq digest header own (.error reason)).1 = status ∧ place ≤ seq) := by
  unfold observeStop
  dsimp only
  rw [if_neg (not_not.mpr same), agrees]
  cases status with
  | healthy => cases here
  | halted => cases here
  | envelopeInvalid invalid =>
    obtain rfl := Option.some.inj here
    dsimp only
    split
    · next earlier => exact .inr ⟨rfl, earlier⟩
    · next later => exact .inl ⟨rfl, Nat.le_of_not_le later⟩
  | updateRequired update =>
    obtain rfl := Option.some.inj here
    dsimp only
    split
    · next earlier => exact .inr ⟨rfl, earlier⟩
    · next later => exact .inl ⟨rfl, Nat.le_of_not_le later⟩

/-! ### Observing a log that does not fork -/

/-- What a log holds at a position, with the outcome of the receiver checks on it. -/
structure LogEntry where
  envelopeDigest : Digest
  header : ClearHeader
  outcome : Except ReceiverError Unit

/-- The stop at an entry, if it cannot be applied: a foreign version before any verdict. -/
def LogEntry.stop (entry : LogEntry) (own : EngineVersion) (seq : Nat) : Option SyncStatus :=
  if headerEngineVersion entry.header ≠ own then
    some (.updateRequired
      { seq, envelopeDigest := entry.envelopeDigest
        envelopeEngineVersion := headerEngineVersion entry.header, ownEngineVersion := own })
  else
    match entry.outcome with
    | .ok () => none
    | .error error => some (.envelopeInvalid
      { seq, envelopeDigest := entry.envelopeDigest, commandId := entry.header.objectId
        deviceId := entry.header.deviceId
        deviceKeyFingerprint := entry.header.deviceKeyFingerprint
        reason := .receiverCheck error })

/-- Observe the log's entry at a position. -/
def observeLog (own : EngineVersion) (log : Nat → LogEntry) (status : SyncStatus) (seq : Nat) :
    SyncStatus :=
  (status.observeEnvelope seq (log seq).envelopeDigest (log seq).header own (log seq).outcome).1

variable (own : EngineVersion) (log : Nat → LogEntry)

/-- The observed positions that cannot be applied. -/
def stops (observed : Finset Nat) : Finset Nat :=
  observed.filter fun seq => ((log seq).stop own seq).isSome

/-- The status a set of observed positions leaves: the stop at the least of them that cannot be
applied. -/
def settled (observed : Finset Nat) : SyncStatus :=
  if stopped : (stops own log observed).Nonempty then
    ((log ((stops own log observed).min' stopped)).stop own
      ((stops own log observed).min' stopped)).getD .healthy
  else .healthy

variable {own log}
variable {observed : Finset Nat}

/-- The status is the one the observed positions leave: healthy if all of them can be applied,
otherwise the stop at the least that cannot. -/
inductive Settles (own : EngineVersion) (log : Nat → LogEntry) (observed : Finset Nat) :
    SyncStatus → Prop
  | healthy (passes : ∀ seq ∈ observed, (log seq).stop own seq = none) :
      Settles own log observed .healthy
  | stopped {least : Nat} {status : SyncStatus} (member : least ∈ observed)
      (stop : (log least).stop own least = some status)
      (lower : ∀ seq ∈ observed, seq < least → (log seq).stop own seq = none) :
      Settles own log observed status

theorem mem_stops {seq : Nat} :
    seq ∈ stops own log observed ↔
      seq ∈ observed ∧ ∃ status, (log seq).stop own seq = some status := by
  rw [stops, Finset.mem_filter, Option.isSome_iff_exists]

theorem Settles.eq_settled (settles : Settles own log observed status) :
    settled own log observed = status := by
  unfold settled
  cases settles with
  | healthy passes =>
    refine dif_neg ?_
    rintro ⟨seq, member⟩
    obtain ⟨inside, status, stop⟩ := mem_stops.mp member
    rw [passes seq inside] at stop
    cases stop
  | @stopped least status member stop lower =>
    have stopped : least ∈ stops own log observed := mem_stops.mpr ⟨member, status, stop⟩
    have same : (stops own log observed).min' ⟨least, stopped⟩ = least := by
      refine le_antisymm (Finset.min'_le _ _ stopped) (Nat.le_of_not_lt fun earlier => ?_)
      obtain ⟨inside, other, stopOther⟩ := mem_stops.mp (Finset.min'_mem _ ⟨least, stopped⟩)
      rw [lower _ inside earlier] at stopOther
      cases stopOther
    rw [dif_pos ⟨least, stopped⟩, same, stop]
    rfl

theorem samePositionOtherDigest_eq_none {place : Nat}
    (stop : (log place).stop own place = some status) (seq : Nat) :
    status.samePositionOtherDigest seq (log seq).envelopeDigest = none := by
  unfold LogEntry.stop at stop
  split at stop
  · obtain rfl := Option.some.inj stop
    by_cases same : place = seq
    · simp [samePositionOtherDigest, same]
    · simp [samePositionOtherDigest, same]
  · cases outcome : (log place).outcome with
    | ok => simp [outcome] at stop
    | error error =>
      simp only [outcome, Option.some.injEq] at stop
      subst stop
      by_cases same : place = seq
      · simp [samePositionOtherDigest, same]
      · simp [samePositionOtherDigest, same]

theorem stopSeq_of_stop {place : Nat} (stop : (log place).stop own place = some status) :
    status.stopSeq = some place := by
  unfold LogEntry.stop at stop
  split at stop
  · obtain rfl := Option.some.inj stop
    rfl
  · cases outcome : (log place).outcome with
    | ok => simp [outcome] at stop
    | error error =>
      simp only [outcome, Option.some.injEq] at stop
      subst stop
      rfl

theorem observeLog_healthy (seq : Nat) :
    observeLog own log .healthy seq = ((log seq).stop own seq).getD .healthy := by
  unfold observeLog observeEnvelope observeStop LogEntry.stop
  by_cases same : headerEngineVersion (log seq).header = own
  · cases outcome : (log seq).outcome with
    | ok => simp [same, samePositionOtherDigest, Except.mapError]
    | error error => simp [same, samePositionOtherDigest, Except.mapError]
  · simp [same, observeEngineVersion, samePositionOtherDigest]

/-- A replica stopped at an entry of the log moves only to the stop of an earlier entry. -/
theorem observeLog_of_stop {place : Nat} (stop : (log place).stop own place = some status)
    (seq : Nat) :
    observeLog own log status seq =
      if seq < place then ((log seq).stop own seq).getD status else status := by
  have agrees := samePositionOtherDigest_eq_none stop seq
  have here := stopSeq_of_stop stop
  -- At the stop's own position the entry's stop is the one the replica is at.
  have takeover {reached fresh : SyncStatus} (entry : (log seq).stop own seq = some fresh)
      (moves : (reached = fresh ∧ seq ≤ place) ∨ (reached = status ∧ place ≤ seq)) :
      reached = if seq < place then ((log seq).stop own seq).getD status else status := by
    rw [entry, Option.getD_some]
    rcases moves with ⟨rfl, before⟩ | ⟨rfl, after⟩
    · by_cases earlier : seq < place
      · rw [if_pos earlier]
      · obtain rfl := Nat.le_antisymm before (Nat.le_of_not_lt earlier)
        rw [if_neg earlier]
        exact Option.some.inj (entry.symm.trans stop)
    · rw [if_neg (Nat.not_lt.mpr after)]
  by_cases foreign : headerEngineVersion (log seq).header ≠ own
  · have gate : observeLog own log status seq =
        (status.observeEngineVersion seq (log seq).envelopeDigest
          (headerEngineVersion (log seq).header) own).1 := congrArg Prod.fst (if_pos foreign)
    rw [gate]
    exact takeover (if_pos foreign) (observeEngineVersion_at_stop here agrees foreign)
  · have same : headerEngineVersion (log seq).header = own := not_not.mp foreign
    unfold observeLog observeEnvelope
    cases outcome : (log seq).outcome with
    | ok =>
      have passes : (log seq).stop own seq = none := by
        rw [LogEntry.stop, if_neg foreign, outcome]
      rw [passes, Option.getD_none, ite_self]
      show (status.observeStop seq _ _ own (.ok ())).1 = status
      unfold observeStop
      dsimp only
      rw [if_neg foreign, agrees]
    | error error =>
      refine takeover ?_ (observeStop_at_stop here agrees same)
      rw [LogEntry.stop, if_neg foreign, outcome]

/-- One more observation settles the status on one more position. -/
theorem Settles.observe (settles : Settles own log observed status) (seq : Nat) :
    Settles own log (insert seq observed) (observeLog own log status seq) := by
  cases settles with
  | healthy passes =>
    rw [observeLog_healthy]
    cases stop : (log seq).stop own seq with
    | none =>
      refine .healthy fun other member => ?_
      obtain rfl | old := Finset.mem_insert.mp member
      · exact stop
      · exact passes other old
    | some fresh =>
      refine .stopped (Finset.mem_insert_self _ _) stop fun other member earlier => ?_
      obtain rfl | old := Finset.mem_insert.mp member
      · exact absurd earlier (lt_irrefl _)
      · exact passes other old
  | @stopped least status member stop lower =>
    rw [observeLog_of_stop stop]
    -- The new position takes over if it stops and comes before the least so far.
    cases stopNew : (log seq).stop own seq with
    | none =>
      rw [Option.getD_none, ite_self]
      refine .stopped (Finset.mem_insert_of_mem member) stop fun other inside earlier => ?_
      obtain rfl | old := Finset.mem_insert.mp inside
      · exact stopNew
      · exact lower other old earlier
    | some fresh =>
      by_cases earlier : seq < least
      · rw [if_pos earlier]
        refine .stopped (Finset.mem_insert_self _ _) stopNew fun other inside before => ?_
        obtain rfl | old := Finset.mem_insert.mp inside
        · exact absurd before (lt_irrefl _)
        · exact lower other old (before.trans earlier)
      · rw [if_neg earlier]
        refine .stopped (Finset.mem_insert_of_mem member) stop fun other inside before => ?_
        obtain rfl | old := Finset.mem_insert.mp inside
        · exact absurd before earlier
        · exact lower other old before

theorem Settles.run (settles : Settles own log observed status) (observations : List Nat) :
    Settles own log (observed ∪ observations.toFinset)
      (observations.foldl (observeLog own log) status) := by
  induction observations generalizing observed status with
  | nil => simpa using settles
  | cons seq rest inductionHypothesis =>
    have continued := inductionHypothesis (settles.observe seq)
    rw [Finset.insert_union, ← Finset.union_insert, ← List.toFinset_cons] at continued
    exact continued

/-- On a log that does not fork, whatever the order and the repetitions of the observations, the
status depends only on which positions were observed. -/
theorem observations_settle (own : EngineVersion) (log : Nat → LogEntry)
    (observations : List Nat) :
    observations.foldl (observeLog own log) .healthy =
      settled own log observations.toFinset := by
  have start : Settles own log ∅ .healthy := .healthy fun seq member =>
    absurd member (Finset.notMem_empty seq)
  have final := start.run observations
  rw [Finset.empty_union] at final
  exact final.eq_settled.symm

/-! ### Every observation, in any order -/

/-- One call on the status. A permit exists only because some status issued it for some
snapshot, perhaps long ago. -/
inductive Observation
  | chainError (error : ChainError)
  | honored (range : HonoredVoid)
  | forkSuspected (fork : ForkSuspected)
  | envelopeInContext (ledger : VoidLedger) (nextToApply seq : Nat) (envelopeDigest : Digest)
      (header : ClearHeader) (own : EngineVersion) (outcome : Except ReceiverError Unit)
  | envelope (seq : Nat) (envelopeDigest : Digest) (header : ClearHeader) (own : EngineVersion)
      (outcome : Except ReceiverError Unit)
  | applyFailure (seq : Nat) (envelopeDigest : Digest) (header : ClearHeader)
      (own : EngineVersion) (outcome : Except ApplyFailureCode Unit)
  | engineVersion (seq : Nat) (envelopeDigest : Digest) (envelopeVersion own : EngineVersion)
  | ownEngineVersion (own : EngineVersion)
  | writeSetMismatch (seq : Nat) (expected computed : Digest)
  | rebootstrapped (issuer : SyncStatus) (snapshot : SnapshotFacts) (permit : RebootstrapPermit)
      (issued : issuer.rebootstrapPermit snapshot = some permit)

/-- The status after a call. -/
def Observation.observe : Observation → SyncStatus → SyncStatus
  | .chainError error, status => (status.observeChainError error).1
  | .honored range, status => (status.observeHonored range).1
  | .forkSuspected fork, status => (status.observeForkSuspected fork).1
  | .envelopeInContext ledger nextToApply seq digest header own outcome, status =>
    (status.observeEnvelopeInContext ledger nextToApply seq digest header own outcome).1
  | .envelope seq digest header own outcome, status =>
    (status.observeEnvelope seq digest header own outcome).1
  | .applyFailure seq digest header own outcome, status =>
    (status.observeApplyFailure seq digest header own outcome).1
  | .engineVersion seq digest version own, status =>
    (status.observeEngineVersion seq digest version own).1
  | .ownEngineVersion own, status => status.observeOwnEngineVersion own
  | .writeSetMismatch seq expected computed, status =>
    (status.observeWriteSetMismatch seq expected computed).1
  | .rebootstrapped _ _ permit _, status => (status.observeRebootstrapped permit).1

/-- The status after a sequence of calls. -/
def observeAll (status : SyncStatus) (observations : List Observation) : SyncStatus :=
  observations.foldl (fun status observation => observation.observe status) status

/-- The halts no snapshot answers. -/
def isPermanent : HaltEvidence → Bool
  | .fork .. => true
  | .equivocation .. => true
  | .seqConflict .. => true
  | .voidAtTwoPositions .. => true
  | .writeSetMismatch .. => false
  | .appliedPositionInvalid .. => false

/-- The exits: an honored void that starts at the stop, a build of exactly the envelope's version,
and a permit whose snapshot the current status would grant one too. -/
inductive Exits : SyncStatus → Observation → Prop
  | honored {invalid : InvalidEnvelope} {range : HonoredVoid}
      (starts : range.first = invalid.seq) : Exits (.envelopeInvalid invalid) (.honored range)
  | updated (update : UpdateRequired) :
      Exits (.updateRequired update) (.ownEngineVersion update.envelopeEngineVersion)
  | rebootstrapped {status issuer : SyncStatus} {snapshot : SnapshotFacts}
      {permit : RebootstrapPermit} (issued : issuer.rebootstrapPermit snapshot = some permit)
      (granted : status.rebootstrapPermit snapshot = some permit) :
      Exits status (.rebootstrapped issuer snapshot permit issued)

/-- A stop after another: halted for the same reason if it was halted, otherwise halted, or stopped
no later. -/
inductive NoLater : SyncStatus → SyncStatus → Prop
  | same (status : SyncStatus) : NoLater status status
  | halts {status : SyncStatus} {seq : Nat} (stopped : status.stopSeq = some seq)
      (evidence : HaltEvidence) : NoLater status (.halted evidence)
  | stops {status next : SyncStatus} {seq earlier : Nat} (stopped : status.stopSeq = some seq)
      (stoppedNext : next.stopSeq = some earlier) (noLater : earlier ≤ seq) : NoLater status next

theorem NoLater.ne_healthy {status next : SyncStatus} (noLater : NoLater status next)
    (stopped : status ≠ .healthy) : next ≠ .healthy := by
  cases noLater with
  | same => exact stopped
  | halts =>
    intro healthy
    cases healthy
  | stops _ stoppedNext =>
    rintro rfl
    cases stoppedNext

theorem canApply_eq_true {seq : Nat} (stopped : status.stopSeq = some seq) (position : Nat) :
    status.canApply position = true ↔ position < seq := by
  cases status with
  | healthy => cases stopped
  | halted => cases stopped
  | envelopeInvalid invalid =>
    obtain rfl := Option.some.inj stopped
    exact decide_eq_true_iff
  | updateRequired update =>
    obtain rfl := Option.some.inj stopped
    exact decide_eq_true_iff

theorem NoLater.canApply {status next : SyncStatus} (noLater : NoLater status next)
    {position : Nat} (applies : next.canApply position = true) :
    status.canApply position = true := by
  cases noLater with
  | same => exact applies
  | halts => cases applies
  | stops stopped stoppedNext earlier =>
    rw [canApply_eq_true stoppedNext] at applies
    rw [canApply_eq_true stopped]
    exact applies.trans_le earlier

/-! ### One observation -/

variable {status : SyncStatus}
variable {evidence : HaltEvidence} {next : SyncStatus}

theorem NoLater.of_halts (stopped : status ≠ .healthy)
    (keeps : ∀ evidence, status = .halted evidence → next = status)
    (answers : (∃ evidence, next = .halted evidence) ∨ next = status) : NoLater status next := by
  obtain ⟨evidence, halted⟩ | ⟨seq, here⟩ := halted_or_stopSeq stopped
  · rw [keeps evidence halted]
    exact .same status
  · obtain ⟨evidence, rfl⟩ | rfl := answers
    · exact .halts here evidence
    · exact .same next

theorem noLater_observeChainError (stopped : status ≠ .healthy) (error : ChainError) :
    NoLater status (status.observeChainError error).1 := by
  refine .of_halts stopped ?_ ?_
  · rintro evidence rfl
    rfl
  · cases status <;> cases error <;> simp [observeChainError, haltOn]

theorem noLater_observeForkSuspected (stopped : status ≠ .healthy) (fork : ForkSuspected) :
    NoLater status (status.observeForkSuspected fork).1 := by
  refine .of_halts stopped ?_ ?_
  · rintro evidence rfl
    rfl
  · cases status <;> cases fork <;> simp [observeForkSuspected, haltOn]

theorem noLater_observeWriteSetMismatch (stopped : status ≠ .healthy) (seq : Nat)
    (expected computed : Digest) :
    NoLater status (status.observeWriteSetMismatch seq expected computed).1 := by
  refine .of_halts stopped ?_ ?_
  · rintro evidence rfl
    rfl
  · by_cases same : expected = computed <;>
      cases status <;> simp [observeWriteSetMismatch, haltOn, same]

theorem stopSeq_of_samePosition {seq : Nat}
    (conflict : status.samePositionOtherDigest seq digest = some evidence) :
    ∃ place, status.stopSeq = some place := by
  cases status with
  | healthy => cases conflict
  | halted => cases conflict
  | envelopeInvalid invalid => exact ⟨invalid.seq, rfl⟩
  | updateRequired update => exact ⟨update.seq, rfl⟩

theorem noLater_observeEngineVersion (stopped : status ≠ .healthy) (seq : Nat) (digest : Digest)
    (envelopeVersion own : EngineVersion) :
    NoLater status (status.observeEngineVersion seq digest envelopeVersion own).1 := by
  cases conflict : status.samePositionOtherDigest seq digest with
  | some evidence =>
    obtain ⟨place, here⟩ := stopSeq_of_samePosition conflict
    unfold observeEngineVersion
    rw [conflict]
    exact .halts here evidence
  | none =>
    by_cases same : envelopeVersion = own
    · unfold observeEngineVersion
      rw [conflict]
      dsimp only
      rw [if_pos same]
      exact .same status
    · rcases halted_or_stopSeq stopped with ⟨evidence, rfl⟩ | ⟨place, here⟩
      · unfold observeEngineVersion
        rw [conflict]
        dsimp only
        rw [if_neg same]
        exact .same _
      · rcases observeEngineVersion_at_stop here conflict same with ⟨moved, before⟩ | ⟨kept, -⟩
        · rw [moved]
          exact .stops here rfl before
        · rw [kept]
          exact .same status

theorem noLater_observeStop (stopped : status ≠ .healthy) (seq : Nat) (digest : Digest)
    (header : ClearHeader) (own : EngineVersion) (outcome : Except StopReason Unit) :
    NoLater status (status.observeStop seq digest header own outcome).1 := by
  by_cases foreign : headerEngineVersion header ≠ own
  · unfold observeStop
    dsimp only
    rw [if_pos foreign]
    exact noLater_observeEngineVersion stopped seq digest _ own
  cases conflict : status.samePositionOtherDigest seq digest with
  | some evidence =>
    obtain ⟨place, here⟩ := stopSeq_of_samePosition conflict
    unfold observeStop
    dsimp only
    rw [if_neg foreign, conflict]
    exact .halts here evidence
  | none =>
    cases outcome with
    | ok =>
      unfold observeStop
      dsimp only
      rw [if_neg foreign, conflict]
      exact .same status
    | error reason =>
      rcases halted_or_stopSeq stopped with ⟨evidence, rfl⟩ | ⟨place, here⟩
      · unfold observeStop
        dsimp only
        rw [if_neg foreign, conflict]
        exact .same _
      · rcases observeStop_at_stop here conflict (not_not.mp foreign) with
          ⟨moved, before⟩ | ⟨kept, -⟩
        · rw [moved]
          exact .stops here rfl before
        · rw [kept]
          exact .same status

theorem noLater_observeEnvelopeInContext (stopped : status ≠ .healthy) (ledger : VoidLedger)
    (nextToApply seq : Nat) (digest : Digest) (header : ClearHeader) (own : EngineVersion)
    (outcome : Except ReceiverError Unit) :
    NoLater status
      (status.observeEnvelopeInContext ledger nextToApply seq digest header own outcome).1 := by
  unfold observeEnvelopeInContext
  by_cases skipped : ledger.skips seq = true
  · rw [if_pos skipped]
    exact .same status
  · rw [if_neg skipped]
    by_cases applied : seq < nextToApply
    · rw [if_pos applied]
      refine .of_halts stopped ?_ ?_
      · rintro evidence rfl
        cases outcome <;> rfl
      · cases outcome <;> cases status <;> simp [haltOn]
    · rw [if_neg applied]
      exact noLater_observeStop stopped seq digest header own _

theorem rebootstrapPermit_eq_some {snapshot : SnapshotFacts} {permit : RebootstrapPermit}
    {issuer : SyncStatus} (issued : issuer.rebootstrapPermit snapshot = some permit) :
    status.rebootstrapPermit snapshot = some permit ↔ status.stopIdentity = some permit.stop := by
  unfold rebootstrapPermit at issued ⊢
  split at issued
  · cases issued
  next admissible =>
  rw [if_neg admissible]
  cases granted : issuer.stopIdentity with
  | none => simp [granted] at issued
  | some stop =>
    simp only [granted, Option.ite_none_right_eq_some, Option.some.injEq] at issued
    obtain ⟨passes, rfl⟩ := issued
    cases identity : status.stopIdentity with
    | none => simp
    | some current =>
      constructor
      · intro same
        simp only [Option.ite_none_right_eq_some, Option.some.injEq] at same
        obtain ⟨-, same⟩ := same
        rw [← same]
      · intro same
        obtain rfl := Option.some.inj same
        exact if_pos passes

theorem Exits.observe {observation : Observation} (exits : Exits status observation) :
    observation.observe status = .healthy := by
  cases exits with
  | honored starts => simp [Observation.observe, observeHonored, starts]
  | updated update => simp [Observation.observe, observeOwnEngineVersion]
  | rebootstrapped issued granted =>
    simp [Observation.observe, observeRebootstrapped, (rebootstrapPermit_eq_some issued).mp granted]

/-- One observation of a replica that is not healthy is an exit or leaves it stopped no later. -/
theorem exits_or_noLater (stopped : status ≠ .healthy) (observation : Observation) :
    Exits status observation ∨ NoLater status (observation.observe status) := by
  cases observation with
  | chainError error => exact .inr (noLater_observeChainError stopped error)
  | forkSuspected fork => exact .inr (noLater_observeForkSuspected stopped fork)
  | envelopeInContext ledger nextToApply seq digest header own outcome =>
    exact .inr (noLater_observeEnvelopeInContext stopped ledger nextToApply seq digest header own _)
  | envelope seq digest header own outcome =>
    exact .inr (noLater_observeStop stopped seq digest header own _)
  | applyFailure seq digest header own outcome =>
    exact .inr (noLater_observeStop stopped seq digest header own _)
  | engineVersion seq digest version own =>
    exact .inr (noLater_observeEngineVersion stopped seq digest version own)
  | writeSetMismatch seq expected computed =>
    exact .inr (noLater_observeWriteSetMismatch stopped seq expected computed)
  | honored range =>
    cases status with
    | healthy => exact absurd rfl stopped
    | halted evidence => exact .inr (.same _)
    | updateRequired update => exact .inr (.same _)
    | envelopeInvalid invalid =>
      by_cases starts : invalid.seq = range.first
      · exact .inl (.honored starts.symm)
      · refine .inr ?_
        simp only [Observation.observe, observeHonored, if_neg starts]
        exact .same _
  | ownEngineVersion own =>
    cases status with
    | healthy => exact absurd rfl stopped
    | halted evidence => exact .inr (.same _)
    | envelopeInvalid invalid => exact .inr (.same _)
    | updateRequired update =>
      by_cases same : update.envelopeEngineVersion = own
      · subst same
        exact .inl (.updated update)
      · refine .inr ?_
        simp only [Observation.observe, observeOwnEngineVersion, if_neg same]
        exact .same _
  | rebootstrapped issuer snapshot permit issued =>
    by_cases same : status.stopIdentity = some permit.stop
    · exact .inl (.rebootstrapped issued ((rebootstrapPermit_eq_some issued).mpr same))
    · refine .inr ?_
      simp only [Observation.observe, observeRebootstrapped, if_neg same]
      exact .same _

theorem observe_eq_healthy (stopped : status ≠ .healthy) (observation : Observation) :
    observation.observe status = .healthy ↔ Exits status observation := by
  constructor
  · intro healthy
    obtain exits | noLater := exits_or_noLater stopped observation
    · exact exits
    · exact absurd healthy (noLater.ne_healthy stopped)
  · exact Exits.observe

theorem not_exits_of_isPermanent (permanent : isPermanent evidence = true)
    (observation : Observation) : ¬ Exits (.halted evidence) observation := by
  intro exits
  cases exits with
  | rebootstrapped issued granted =>
    rw [rebootstrapPermit_eq_some issued] at granted
    cases evidence <;> first | cases granted | cases permanent

theorem halted_ne_healthy : SyncStatus.halted evidence ≠ .healthy := by
  intro same
  cases same

theorem NoLater.eq_of_halted (noLater : NoLater (.halted evidence) next) :
    next = .halted evidence := by
  cases noLater with
  | same => rfl
  | halts stopped => cases stopped
  | stops stopped => cases stopped

/-! ### Every run -/

theorem observeAll_append (status : SyncStatus) (before after : List Observation) :
    observeAll status (before ++ after) = observeAll (observeAll status before) after :=
  List.foldl_append

theorem observeAll_permanent (permanent : isPermanent evidence = true)
    (observations : List Observation) :
    observeAll (.halted evidence) observations = .halted evidence := by
  induction observations with
  | nil => rfl
  | cons observation rest inductionHypothesis =>
    have kept : observation.observe (.halted evidence) = .halted evidence := by
      obtain exits | noLater := exits_or_noLater halted_ne_healthy observation
      · exact absurd exits (not_exits_of_isPermanent permanent observation)
      · exact noLater.eq_of_halted
    show observeAll (observation.observe (.halted evidence)) rest = .halted evidence
    rw [kept, inductionHypothesis]

/-- No observation of the run is an exit of the status it meets. -/
def NoExit (status : SyncStatus) (observations : List Observation) : Prop :=
  ∀ before observation, before ++ [observation] <+: observations →
    ¬ Exits (observeAll status before) observation

theorem NoExit.tail {observation : Observation} {rest : List Observation}
    (noExit : NoExit status (observation :: rest)) : NoExit (observation.observe status) rest := by
  intro before next isPrefix exits
  exact noExit (observation :: before) next ((List.prefix_cons_inj observation).mpr isPrefix) exits

/-- Between exits, what may be applied only shrinks. -/
theorem NoExit.canApply {observations : List Observation} (noExit : NoExit status observations)
    {position : Nat} (applies : (observeAll status observations).canApply position = true) :
    status.canApply position = true := by
  induction observations generalizing status with
  | nil => exact applies
  | cons observation rest inductionHypothesis =>
    have afterOne := inductionHypothesis noExit.tail applies
    by_cases stopped : status = .healthy
    · rw [stopped]
      rfl
    · obtain exits | noLater := exits_or_noLater stopped observation
      · exact absurd exits (noExit [] observation (List.prefix_append [observation] rest))
      · exact noLater.canApply afterOne

/-- A stop is left only by its own exit, in every run: a permanent halt is kept for good; a status
that is not healthy becomes healthy by exactly its exits, and every other observation keeps it,
halts it or moves it to no later a position; and as long as no exit is taken, what may be applied
only shrinks. -/
theorem stops_left_only_by_exits (status : SyncStatus) (observations : List Observation) :
    (∀ evidence, status = .halted evidence → isPermanent evidence = true →
      observeAll status observations = status) ∧
    (∀ before observation, before ++ [observation] <+: observations →
      observeAll status before ≠ .healthy →
      (observeAll status (before ++ [observation]) = .healthy ↔
        Exits (observeAll status before) observation) ∧
      (¬ Exits (observeAll status before) observation →
        NoLater (observeAll status before) (observeAll status (before ++ [observation])))) ∧
    (NoExit status observations → ∀ position,
      (observeAll status observations).canApply position = true →
        status.canApply position = true) := by
  refine ⟨?_, ?_, fun noExit position applies => noExit.canApply applies⟩
  · rintro evidence rfl permanent
    exact observeAll_permanent permanent observations
  · intro before observation isPrefix stopped
    rw [observeAll_append]
    refine ⟨observe_eq_healthy stopped observation, fun noExit => ?_⟩
    obtain exits | noLater := exits_or_noLater stopped observation
    · exact absurd exits noExit
    · exact noLater

end SyncStatus

end Dohflow.SyncCore
