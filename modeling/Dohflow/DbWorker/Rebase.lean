/-
This file models the rebase of the unpushed local commands: trials that apply every
planned command, each with the commands queued that an earlier trial saw refused.

A vault state is what the rebuilt vault's commands are applied to, and `apply` is whatever
applying one command does: a new state with the command's new number, or a refusal.
`rebase_partitions` says what a rebase ends with; `invalid_refused_iff` says when each
command queued as invalid is refused by what was rebuilt.
-/

import Dohflow.DbWorker.RebasePlan
import Mathlib.Data.List.Perm.Basic

namespace Dohflow.DbWorker

open SyncCore

/-- An unpushed local command with what it takes to re-apply it. -/
structure LocalCommand (Payload : Type) where
  command : OutboxCommand
  /-- Its metadata and its decoded command. -/
  payload : Payload
  /-- Its number in the live vault. -/
  oldOpSeq : Int
  deriving DecidableEq

/-- A command that was re-applied. -/
structure Replayed where
  commandId : Uuid
  oldOpSeq : Int
  newOpSeq : Int
  deriving DecidableEq

/-- What a rebase did with the unpushed local commands, and the vault it rebuilt. -/
structure Executed (Vault : Type) where
  plan : Plan
  replayed : List Replayed
  vault : Vault
  deriving DecidableEq

/-- Why a trial stopped. -/
inductive Refused
  | command (id : Uuid)
  | abort
  deriving DecidableEq

variable {Vault Payload : Type}

/-- What applying a command does: the state after it and its new number, or a refusal. -/
abbrev Apply (Vault Payload : Type) : Type := Vault → LocalCommand Payload → Option (Vault × Int)

section

variable (apply : Apply Vault Payload) (unpushed : List (LocalCommand Payload))

/-- Apply every planned command, in local order. -/
def replayPlanned : List PlannedCommand → Vault → Except Refused (Vault × List Replayed)
  | [], vault => .ok (vault, [])
  | entry :: rest, vault =>
    if entry.disposition ≠ .replay then replayPlanned rest vault
    else
      match unpushed.find? fun unpushed => unpushed.command.commandId = entry.command.commandId with
      | none => .error .abort
      | some command =>
        match apply vault command with
        | none => .error (.command command.command.commandId)
        | some (vault, newOpSeq) =>
          (replayPlanned rest vault).map fun ended =>
            (ended.1, ⟨command.command.commandId, command.oldOpSeq, newOpSeq⟩ :: ended.2)

/-- The commands as the plan sees them. -/
def outboxOf : List OutboxCommand := unpushed.map LocalCommand.command

variable (postPull : Vault) (touched : Finset RowKey)

/-- Try the plan from a fresh copy, with every command invalid that an earlier trial saw refused;
none when that many trials do not end it. -/
def runTrials : Nat → Finset Uuid → Option (Except Refused (Executed Vault))
  | 0, _ => none
  | trials + 1, invalid =>
    let planned := plan touched invalid (outboxOf unpushed)
    match replayPlanned apply unpushed planned.commands postPull with
    | .ok (vault, replayed) => some (.ok ⟨planned, replayed, vault⟩)
    | .error (.command id) => runTrials trials (insert id invalid)
    | .error .abort => some (.error .abort)

/-- Rebase the unpushed local commands on the state after the pulled envelopes. -/
def rebaseLocal : Option (Except Refused (Executed Vault)) :=
  runTrials apply unpushed postPull touched (unpushed.length + 1) ∅

end

/-! ### One trial -/

variable {apply : Apply Vault Payload} {unpushed : List (LocalCommand Payload)} {postPull : Vault}
  {touched : Finset RowKey} {invalid : Finset Uuid}
variable {refused : List Uuid} {command : LocalCommand Payload}

/-- Apply commands one after the other, if none is refused. -/
def applyAll (apply : Apply Vault Payload) (vault : Vault) (commands : List (LocalCommand Payload)) :
    Option Vault :=
  commands.foldlM (fun vault command => (apply vault command).map Prod.fst) vault

/-- The commands that a plan with these commands invalid replays. -/
def replayedCommands (touched : Finset RowKey) (invalid : Finset Uuid)
    (unpushed : List (LocalCommand Payload)) : List (LocalCommand Payload) :=
  unpushed.filter fun command =>
    planned touched invalid (outboxOf unpushed) command.command = .replay

/-- A command is refused after these. -/
def RefusedAfter (apply : Apply Vault Payload) (postPull : Vault)
    (before : List (LocalCommand Payload)) (command : LocalCommand Payload) : Prop :=
  ∃ vault, applyAll apply postPull before = some vault ∧ apply vault command = none

/-- Distinct commands, in local order. -/
def Distinct (unpushed : List (LocalCommand Payload)) : Prop :=
  (unpushed.map fun unpushed => unpushed.command.commandId).Nodup

theorem Distinct.outbox (distinct : Distinct unpushed) :
    ((outboxOf unpushed).map OutboxCommand.commandId).Nodup := by
  rwa [outboxOf, List.map_map]

theorem Distinct.find (distinct : Distinct unpushed) (member : command ∈ unpushed) :
    unpushed.find? (fun other => other.command.commandId = command.command.commandId) =
      some command := by
  cases found : unpushed.find?
      (fun other => other.command.commandId = command.command.commandId) with
  | none => simpa using List.find?_eq_none.mp found command member
  | some other =>
    have same := List.find?_some found
    rw [decide_eq_true_eq] at same
    rw [List.inj_on_of_nodup_map distinct (List.mem_of_find?_eq_some found) member same]

/-- How a trial goes: all commands that are to be replayed are applied, or one is refused after
those before it. -/
inductive TrialEnds (apply : Apply Vault Payload) (vault : Vault)
    (commands : List (LocalCommand Payload)) : Except Refused (Vault × List Replayed) → Prop
  | applied {after : Vault} {replayed : List Replayed}
      (applied : applyAll apply vault commands = some after)
      (listed : replayed.map (fun entry => (entry.commandId, entry.oldOpSeq)) =
        commands.map fun command => (command.command.commandId, command.oldOpSeq)) :
      TrialEnds apply vault commands (.ok (after, replayed))
  | refused {before later : List (LocalCommand Payload)} {command : LocalCommand Payload}
      (split : commands = before ++ command :: later)
      (refused : RefusedAfter apply vault before command) :
      TrialEnds apply vault commands (.error (.command command.command.commandId))

theorem TrialEnds.cons {vault next : Vault} {command : LocalCommand Payload} {newOpSeq : Int}
    {commands : List (LocalCommand Payload)} {result : Except Refused (Vault × List Replayed)}
    (applied : apply vault command = some (next, newOpSeq))
    (ends : TrialEnds apply next commands result) :
    TrialEnds apply vault (command :: commands) (result.map fun ended =>
      (ended.1, ⟨command.command.commandId, command.oldOpSeq, newOpSeq⟩ :: ended.2)) := by
  have first : ∀ rest, applyAll apply vault (command :: rest) = applyAll apply next rest := by
    intro rest
    simp [applyAll, applied]
  cases ends with
  | applied all listed => exact .applied ((first _).trans all) (by simp [listed])
  | @refused before later other split refused =>
    obtain ⟨reached, all, last⟩ := refused
    have split : command :: commands = (command :: before) ++ other :: later := by
      rw [split, List.cons_append]
    exact .refused split ⟨reached, (first before).trans all, last⟩

theorem trialEnds_replayPlanned (distinct : Distinct unpushed) {vault : Vault}
    {dispositionOf : OutboxCommand → Disposition} {part : List (LocalCommand Payload)}
    (members : ∀ command ∈ part, command ∈ unpushed) :
    TrialEnds apply vault (part.filter fun command => dispositionOf command.command = .replay)
      (replayPlanned apply unpushed (part.map fun command =>
        ⟨command.command, dispositionOf command.command⟩) vault) := by
  induction part generalizing vault with
  | nil => exact .applied rfl rfl
  | cons command rest inductionHypothesis =>
    have others : ∀ other ∈ rest, other ∈ unpushed := fun other inside =>
      members other (List.mem_cons_of_mem _ inside)
    rw [List.map_cons, replayPlanned]
    by_cases replays : dispositionOf command.command = .replay
    · rw [if_neg (not_not.mpr replays), distinct.find (members command List.mem_cons_self),
        List.filter_cons, if_pos (decide_eq_true replays)]
      cases applied : apply vault command with
      | none =>
        simp only [applied]
        exact .refused (List.nil_append _).symm ⟨vault, rfl, applied⟩
      | some next =>
        simp only [applied]
        exact .cons applied (inductionHypothesis others)
    · rw [if_pos replays, List.filter_cons, if_neg (by simpa using replays)]
      exact inductionHypothesis others

/-- A trial with these commands invalid. -/
def trial (apply : Apply Vault Payload) (unpushed : List (LocalCommand Payload)) (postPull : Vault)
    (touched : Finset RowKey) (invalid : Finset Uuid) :
    Except Refused (Vault × List Replayed) :=
  replayPlanned apply unpushed (plan touched invalid (outboxOf unpushed)).commands postPull

theorem trialEnds_trial (distinct : Distinct unpushed) :
    TrialEnds apply postPull (replayedCommands touched invalid unpushed)
      (trial apply unpushed postPull touched invalid) := by
  have ends : TrialEnds apply postPull (replayedCommands touched invalid unpushed) _ :=
    trialEnds_replayPlanned distinct fun _ inside => inside
  rw [trial, plan]
  simp only [outboxOf, List.map_map]
  exact ends

/-! ### All trials -/

/-- The commands that the first trials saw refused, each with those before it invalid. -/
inductive Refusals (apply : Apply Vault Payload) (unpushed : List (LocalCommand Payload))
    (postPull : Vault) (touched : Finset RowKey) : List Uuid → Prop
  | start : Refusals apply unpushed postPull touched []
  | next {refused : List Uuid} {id : Uuid} (earlier : Refusals apply unpushed postPull touched refused)
      (refuses : trial apply unpushed postPull touched refused.toFinset = .error (.command id)) :
      Refusals apply unpushed postPull touched (refused ++ [id])

theorem refused_of_trial (distinct : Distinct unpushed) {id : Uuid}
    (refuses : trial apply unpushed postPull touched invalid = .error (.command id)) :
    ∃ before command later, replayedCommands touched invalid unpushed =
        before ++ command :: later ∧ command.command.commandId = id ∧
      RefusedAfter apply postPull before command := by
  have ends : TrialEnds apply postPull (replayedCommands touched invalid unpushed)
    (trial apply unpushed postPull touched invalid) := trialEnds_trial distinct
  rw [refuses] at ends
  generalize result : Except.error (Refused.command id) = ended at ends
  cases ends with
  | applied => cases result
  | @refused before later command split refused =>
    cases result
    exact ⟨before, command, later, split, rfl, refused⟩

theorem not_mem_invalid_of_replayed (distinct : Distinct unpushed)
    (replayed : command ∈ replayedCommands touched invalid unpushed) :
    command ∈ unpushed ∧ command.command.commandId ∉ invalid := by
  obtain ⟨member, replays⟩ := List.mem_filter.mp replayed
  refine ⟨member, fun refused => ?_⟩
  have closed : ClosedQueue touched invalid (outboxOf unpushed) _ :=
    (queuedSet_isLeast distinct.outbox).1
  exact (closed.refused command.command (List.mem_map_of_mem member) refused).2
    (of_decide_eq_true replays)

/-- No command is refused twice, and only commands of the outbox are. -/
theorem Refusals.distinct (distinct : Distinct unpushed)
    (refusals : Refusals apply unpushed postPull touched refused) :
    refused.Nodup ∧
      ∀ id ∈ refused, id ∈ unpushed.map fun unpushed => unpushed.command.commandId := by
  induction refusals with
  | start => exact ⟨List.nodup_nil, nofun⟩
  | @next refused id earlier refuses inductionHypothesis =>
    obtain ⟨nodup, members⟩ := inductionHypothesis
    obtain ⟨before, command, later, split, rfl, -⟩ := refused_of_trial distinct refuses
    obtain ⟨member, fresh⟩ := not_mem_invalid_of_replayed distinct
      (by rw [split]; simp : command ∈ replayedCommands touched refused.toFinset unpushed)
    rw [List.mem_toFinset] at fresh
    refine ⟨List.nodup_append.mpr ⟨nodup, List.nodup_singleton _, ?_⟩, fun id inside => ?_⟩
    · rintro one first other last rfl
      rw [List.mem_singleton.mp last] at first
      exact fresh first
    · rcases List.mem_append.mp inside with first | last
      · exact members id first
      · rw [List.mem_singleton.mp last]
        exact List.mem_map_of_mem member

theorem Refusals.length_le (distinct : Distinct unpushed)
    (refusals : Refusals apply unpushed postPull touched refused) :
    refused.length ≤ unpushed.length := by
  obtain ⟨nodup, members⟩ := refusals.distinct distinct
  have shorter := (nodup.subperm members).length_le
  rwa [List.length_map] at shorter

theorem runTrials_ends (distinct : Distinct unpushed) {trials : Nat}
    (refusals : Refusals apply unpushed postPull touched refused)
    (enough : unpushed.length < trials + refused.length) :
    ∃ all vault replayed, Refusals apply unpushed postPull touched all ∧
      trial apply unpushed postPull touched all.toFinset = .ok (vault, replayed) ∧
      runTrials apply unpushed postPull touched trials refused.toFinset =
        some (.ok ⟨plan touched all.toFinset (outboxOf unpushed), replayed, vault⟩) := by
  induction trials generalizing refused with
  | zero =>
    have most := refusals.length_le distinct
    omega
  | succ trials inductionHypothesis =>
    cases result : trial apply unpushed postPull touched refused.toFinset with
    | ok ended =>
      obtain ⟨vault, replayed⟩ := ended
      refine ⟨refused, vault, replayed, refusals, result, ?_⟩
      unfold trial at result
      simp only [runTrials, result]
    | error refusal =>
      cases refusal with
      | abort =>
        have ends : TrialEnds apply postPull
          (replayedCommands touched refused.toFinset unpushed)
          (trial apply unpushed postPull touched refused.toFinset) := trialEnds_trial distinct
        rw [result] at ends
        cases ends
      | command id =>
        have inserted : insert id refused.toFinset = (refused ++ [id]).toFinset := by
          refine Finset.ext fun other => ?_
          simp [or_comm]
        obtain ⟨all, vault, replayed, refusalsAll, ended, ran⟩ := inductionHypothesis
          (refusals.next result) (by rw [List.length_append, List.length_singleton]; omega)
        refine ⟨all, vault, replayed, refusalsAll, ended, ?_⟩
        unfold trial at result
        simp only [runTrials, result]
        rw [inserted, ran]

/-! ### What a rebase ends with -/

/-- What a finished rebase did, when its trials refused these commands. -/
structure Rebased (apply : Apply Vault Payload) (unpushed : List (LocalCommand Payload))
    (postPull : Vault) (touched : Finset RowKey) (refused : List Uuid)
    (executed : Executed Vault) : Prop where
  refusals : Refusals apply unpushed postPull touched refused
  planned : executed.plan = plan touched refused.toFinset (outboxOf unpushed)
  /-- Every command has one disposition, in local order. -/
  inOrder : executed.plan.commands.map PlannedCommand.command = outboxOf unpushed
  /-- The replayed and the queued commands partition the outbox. -/
  partition : (executed.plan.replayed ++ executed.plan.queued.map Prod.fst).Perm (outboxOf unpushed)
  replayedInOrder : executed.plan.replayed.Sublist (outboxOf unpushed)
  /-- The replayed commands, once each and in local order, none of them refused. -/
  rebuilt : ∃ commands : List (LocalCommand Payload), commands.Sublist unpushed ∧
    commands.map LocalCommand.command = executed.plan.replayed ∧
    applyAll apply postPull commands = some executed.vault ∧
    executed.replayed.map (fun entry => (entry.commandId, entry.oldOpSeq)) =
      commands.map fun command => (command.command.commandId, command.oldOpSeq)
  /-- Nothing is queued but what must be. -/
  least : IsLeast {queue | ClosedQueue touched refused.toFinset (outboxOf unpushed) queue}
    {command | command ∈ executed.plan.queued.map Prod.fst}
  /-- A command queued with another one names the first touched or refused one that reaches it
  through commands that are neither, and is offered as that one is. -/
  closures : ∀ command root reason, (command, .closure root, reason) ∈ executed.plan.queued →
    ∃ first cause, FirstRoot touched refused.toFinset (outboxOf unpushed) command first ∧
      first.commandId = root ∧
      ownDisposition touched refused.toFinset first = .queue cause reason

section

variable {outbox : List OutboxCommand}

theorem plan_commands : (plan touched invalid outbox).commands =
    outbox.map fun command => ⟨command, planned touched invalid outbox command⟩ := rfl

theorem plan_replayed : (plan touched invalid outbox).replayed =
    outbox.filter fun command => planned touched invalid outbox command = .replay := by
  rw [Plan.replayed, plan_commands, List.filterMap_map, ← List.filterMap_eq_filter]
  refine List.filterMap_congr fun command _ => ?_
  cases disposition : planned touched invalid outbox command <;>
    simp [Option.guard, disposition]

theorem mem_plan_queued {command : OutboxCommand} {cause : QueueCause} {reason : QueueReason} :
    (command, cause, reason) ∈ (plan touched invalid outbox).queued ↔
      command ∈ outbox ∧ planned touched invalid outbox command = .queue cause reason := by
  rw [Plan.queued, plan_commands, List.filterMap_map, List.mem_filterMap]
  constructor
  · rintro ⟨other, member, found⟩
    simp only [Function.comp_apply] at found
    split at found
    · next other_ reason_ disposition =>
      obtain ⟨rfl, rfl, rfl⟩ := by simpa using found
      exact ⟨member, disposition⟩
    · cases found
  · rintro ⟨member, disposition⟩
    exact ⟨command, member, by simp [disposition]⟩

theorem plan_queued_commands : (plan touched invalid outbox).queued.map Prod.fst =
    outbox.filter fun command => planned touched invalid outbox command ≠ .replay := by
  rw [Plan.queued, plan_commands, List.filterMap_map, List.map_filterMap,
    ← List.filterMap_eq_filter]
  refine List.filterMap_congr fun command _ => ?_
  cases disposition : planned touched invalid outbox command <;>
    simp [Option.guard, disposition]

end

theorem rebased_of_trial (distinct : Distinct unpushed) {vault : Vault} {replayed : List Replayed}
    (refusals : Refusals apply unpushed postPull touched refused)
    (ended : trial apply unpushed postPull touched refused.toFinset = .ok (vault, replayed)) :
    Rebased apply unpushed postPull touched refused
      ⟨plan touched refused.toFinset (outboxOf unpushed), replayed, vault⟩ := by
  refine ⟨refusals, rfl, ?_, ?_, ?_, ?_, ?_, ?_⟩
  · rw [plan_commands, List.map_map]
    exact List.map_id _
  · rw [plan_replayed, plan_queued_commands]
    refine List.Perm.trans ?_ (List.filter_append_perm (fun command =>
      planned touched refused.toFinset (outboxOf unpushed) command = .replay) _)
    simp
  · rw [plan_replayed]
    exact List.filter_sublist
  · have ends : TrialEnds apply postPull (replayedCommands touched refused.toFinset unpushed)
      (trial apply unpushed postPull touched refused.toFinset) := trialEnds_trial distinct
    rw [ended] at ends
    cases ends with
    | applied all listed =>
      refine ⟨_, List.filter_sublist, ?_, all, listed⟩
      rw [plan_replayed, outboxOf, List.filter_map]
      rfl
  · have same : {command | command ∈ (plan touched refused.toFinset
        (outboxOf unpushed)).queued.map Prod.fst} =
        queuedSet touched refused.toFinset (outboxOf unpushed) := by
      refine Set.ext fun command => ?_
      simp [plan_queued_commands, queuedSet]
    rw [same]
    exact queuedSet_isLeast distinct.outbox
  · intro command root reason queued
    obtain ⟨member, disposition⟩ := mem_plan_queued.mp queued
    obtain ⟨-, own⟩ | ⟨-, first, cause, given, leading, own, found⟩ | ⟨-, -, replayed⟩ :=
      planned_cases touched refused.toFinset distinct.outbox member
    · rw [disposition] at own
      exact absurd own.symm ownDisposition_ne_closure
    · rw [disposition] at found
      obtain ⟨rfl, rfl⟩ := by simpa using found
      exact ⟨first, cause, leading, rfl, own⟩
    · rw [disposition] at replayed
      cases replayed

/-- A rebase ends after at most one trial more than there are commands; the commands it replays and
those it queues partition the outbox; the vault it rebuilds is the one after the pulled envelopes
with the replayed commands applied, once each and in local order; and it queues the least set that
must be queued, so no group is split and nothing is replayed that a queued command caused. -/
theorem rebase_partitions (apply : Apply Vault Payload) (postPull : Vault)
    (touched : Finset RowKey) (distinct : Distinct unpushed) :
    ∃ executed refused, rebaseLocal apply unpushed postPull touched = some (.ok executed) ∧
      Rebased apply unpushed postPull touched refused executed := by
  obtain ⟨refused, vault, replayed, refusals, ended, ran⟩ :=
    runTrials_ends distinct .start (by simp : unpushed.length < unpushed.length + 1 + [].length)
  exact ⟨_, refused, ran, rebased_of_trial distinct refusals ended⟩

/-! ### Whether what is queued as invalid is refused -/

/-- The commands before one, in local order, that are replayed with these commands invalid. -/
def replayedBefore (touched : Finset RowKey) (invalid : Finset Uuid)
    (unpushed : List (LocalCommand Payload)) (command : LocalCommand Payload) :
    List (LocalCommand Payload) :=
  (unpushed.takeWhile fun other => other.command ≠ command.command).filter fun other =>
    planned touched invalid (outboxOf unpushed) other.command = .replay

/-- Every command queued as invalid is refused by what was rebuilt, just before its place. -/
def QueuesForCause (apply : Apply Vault Payload) (unpushed : List (LocalCommand Payload))
    (postPull : Vault) (executed : Executed Vault) : Prop :=
  ∀ command ∈ unpushed, ∀ reason, (command.command, .invalid, reason) ∈ executed.plan.queued →
    RefusedAfter apply postPull
      ((unpushed.takeWhile fun other => other.command ≠ command.command).filter fun other =>
        other.command ∈ executed.plan.replayed) command

/-- A trial refused a command after replaying one that is queued in the end. -/
def Thinned (touched : Finset RowKey) (unpushed : List (LocalCommand Payload))
    (refused : List Uuid) (command : LocalCommand Payload) : Prop :=
  ∃ earlier later, refused = earlier ++ command.command.commandId :: later ∧
    ∃ other ∈ replayedBefore touched earlier.toFinset unpushed command,
      other ∉ replayedBefore touched refused.toFinset unpushed command

theorem Refusals.refuses {refused earlier later : List Uuid} {id : Uuid}
    (refusals : Refusals apply unpushed postPull touched refused)
    (split : refused = earlier ++ id :: later) :
    trial apply unpushed postPull touched earlier.toFinset = .error (.command id) := by
  induction refusals generalizing later with
  | start => simp at split
  | @next refused last _ refuses inductionHypothesis =>
    rcases List.eq_nil_or_concat later with rfl | ⟨front, final, rfl⟩
    · obtain ⟨rfl, same⟩ := List.append_inj' split rfl
      obtain rfl := List.singleton_inj.mp same
      exact refuses
    · rw [List.concat_eq_append, ← List.cons_append, ← List.append_assoc] at split
      exact inductionHypothesis (List.append_inj' split rfl).1

theorem filter_takeWhile_of_split {test : LocalCommand Payload → Bool}
    {before later : List (LocalCommand Payload)} (distinct : Distinct unpushed)
    (split : unpushed.filter test = before ++ command :: later) :
    (unpushed.takeWhile fun other => other.command ≠ command.command).filter test = before := by
  obtain ⟨front, back, rfl, rfl, tail⟩ := List.filter_eq_append_iff.mp split
  obtain ⟨skipped, back, rfl, fails, passes, rfl⟩ := List.filter_eq_cons_iff.mp tail
  have apart : ∀ other ∈ front ++ skipped, other.command ≠ command.command := by
    rintro other inside same
    rw [Distinct, ← List.append_assoc, List.map_append, List.nodup_append] at distinct
    exact distinct.2.2 _ (List.mem_map_of_mem inside) _ (List.mem_map_of_mem List.mem_cons_self)
      (congrArg OutboxCommand.commandId same)
  have dropped : skipped.filter test = [] := List.filter_eq_nil_iff.mpr fails
  rw [← List.append_assoc, List.takeWhile_append_of_pos fun other inside =>
    decide_eq_true (apart other inside), List.takeWhile_cons_of_neg (by simp), List.append_nil,
    List.filter_append, dropped, List.append_nil]

theorem replays_of_fewer {fewer more : Finset Uuid} (distinct : Distinct unpushed)
    (subset : fewer ⊆ more) (member : command ∈ unpushed)
    (replays : planned touched more (outboxOf unpushed) command.command = .replay) :
    planned touched fewer (outboxOf unpushed) command.command = .replay := by
  by_contra queued
  have inside : command.command ∈ queuedSet touched fewer (outboxOf unpushed) :=
    ⟨List.mem_map_of_mem member, queued⟩
  exact (queuedSet_mono distinct.outbox subset inside).2 replays

theorem replayedBefore_of_not_thinned (distinct : Distinct unpushed)
    {refused earlier later : List Uuid}
    (split : refused = earlier ++ command.command.commandId :: later)
    (whole : ¬ Thinned touched unpushed refused command) :
    replayedBefore touched refused.toFinset unpushed command =
      replayedBefore touched earlier.toFinset unpushed command := by
  have subset : earlier.toFinset ⊆ refused.toFinset := by
    intro id inside
    rw [List.mem_toFinset] at inside ⊢
    rw [split]
    exact List.mem_append_left _ inside
  refine List.filter_congr fun other inside => ?_
  have member : other ∈ unpushed := (List.takeWhile_sublist _).subset inside
  refine decide_eq_decide.mpr ⟨replays_of_fewer distinct subset member, fun replays => ?_⟩
  by_contra queued
  refine whole ⟨earlier, later, split, other, ?_, fun kept => ?_⟩
  · exact List.mem_filter.mpr ⟨inside, decide_eq_true replays⟩
  · exact queued (of_decide_eq_true (List.mem_filter.mp kept).2)

/-- Each command that a trial refused after replaying one that is queued in the end is refused
without it, too. -/
def RefusalsStand (apply : Apply Vault Payload) (unpushed : List (LocalCommand Payload))
    (postPull : Vault) (touched : Finset RowKey) : Prop :=
  ∀ refused, Refusals apply unpushed postPull touched refused →
    (∀ id, trial apply unpushed postPull touched refused.toFinset ≠ .error (.command id)) →
    ∀ command ∈ unpushed, Thinned touched unpushed refused command →
      RefusedAfter apply postPull (replayedBefore touched refused.toFinset unpushed command) command

theorem Refusals.prefix_or {one other : List Uuid}
    (first : Refusals apply unpushed postPull touched one)
    (second : Refusals apply unpushed postPull touched other) : one <+: other ∨ other <+: one := by
  induction first with
  | start => exact .inl (List.nil_prefix)
  | @next refused id earlier refuses inductionHypothesis =>
    rcases inductionHypothesis with ⟨rest, rfl⟩ | before
    · cases rest with
      | nil =>
        rw [List.append_nil]
        exact .inr (List.prefix_append _ _)
      | cons next rest =>
        have same := refuses.symm.trans (second.refuses rfl)
        obtain rfl : id = next := by simpa using same
        exact .inl ⟨rest, by simp⟩
    · exact .inr (before.trans (List.prefix_append _ _))

/-- Once no trial refuses a command, the refusals are these. -/
theorem Refusals.unique {one other : List Uuid}
    (first : Refusals apply unpushed postPull touched one)
    (second : Refusals apply unpushed postPull touched other)
    (firstEnds : ∀ id, trial apply unpushed postPull touched one.toFinset ≠ .error (.command id))
    (secondEnds : ∀ id,
      trial apply unpushed postPull touched other.toFinset ≠ .error (.command id)) :
    one = other := by
  rcases first.prefix_or second with ⟨rest, rfl⟩ | ⟨rest, rfl⟩
  · cases rest with
    | nil => exact (List.append_nil _).symm
    | cons id rest => exact absurd (second.refuses rfl) (firstEnds id)
  · cases rest with
    | nil => exact List.append_nil _
    | cons id rest => exact absurd (first.refuses rfl) (secondEnds id)

theorem queued_invalid_iff (distinct : Distinct unpushed) (member : command ∈ unpushed) :
    (∃ reason, (command.command, .invalid, reason) ∈
      (plan touched invalid (outboxOf unpushed)).queued) ↔
        command.command.commandId ∈ invalid := by
  have listed : command.command ∈ outboxOf unpushed := List.mem_map_of_mem member
  have planned : (∃ reason, planned touched invalid (outboxOf unpushed) command.command =
      .queue .invalid reason) ↔ _ := planned_invalid_iff distinct.outbox listed
  rw [← planned]
  simp only [mem_plan_queued, listed, true_and]

/-- When its trials ended with these refusals, a rebase queues for cause if and only if each of them
stands that was made after replaying a command that is queued in the end. -/
theorem queuesForCause_iff (distinct : Distinct unpushed) {executed : Executed Vault}
    (rebased : Rebased apply unpushed postPull touched refused executed) :
    QueuesForCause apply unpushed postPull executed ↔
      ∀ command ∈ unpushed, Thinned touched unpushed refused command →
        RefusedAfter apply postPull (replayedBefore touched refused.toFinset unpushed command)
          command := by
  have before : ∀ command : LocalCommand Payload,
      ((unpushed.takeWhile fun other => other.command ≠ command.command).filter fun other =>
        other.command ∈ executed.plan.replayed) =
        replayedBefore touched refused.toFinset unpushed command := by
    intro command
    refine List.filter_congr fun other inside => ?_
    have member : other ∈ unpushed := (List.takeWhile_sublist _).subset inside
    rw [rebased.planned, plan_replayed]
    simp [outboxOf, List.mem_map_of_mem member]
  have queued : ∀ command ∈ unpushed, ((∃ reason, (command.command, .invalid, reason) ∈
      executed.plan.queued) ↔ command.command.commandId ∈ refused) := by
    intro command member
    rw [rebased.planned, queued_invalid_iff distinct member, List.mem_toFinset]
  constructor
  · intro forCause command member thinned
    obtain ⟨earlier, later, split, -⟩ := thinned
    obtain ⟨reason, inside⟩ := (queued command member).mpr (by rw [split]; simp)
    rw [← before command]
    exact forCause command member reason inside
  · intro stands command member reason inside
    rw [before command]
    by_cases thinned : Thinned touched unpushed refused command
    · exact stands command member thinned
    · have listed := (queued command member).mp ⟨reason, inside⟩
      obtain ⟨earlier, later, split⟩ := List.append_of_mem listed
      rw [replayedBefore_of_not_thinned distinct split thinned]
      obtain ⟨front, other, back, splitReplayed, same, refusedAfter⟩ :=
        refused_of_trial distinct (rebased.refusals.refuses split)
      have memberOther : other ∈ unpushed :=
        (List.mem_filter.mp (by rw [← replayedCommands, splitReplayed]; simp :
          other ∈ unpushed.filter _)).1
      obtain rfl := List.inj_on_of_nodup_map distinct memberOther member same
      rwa [replayedBefore, filter_takeWhile_of_split distinct splitReplayed]

def sampleCommandId (byte : UInt8) : Uuid := .replicate 16 byte

/-- A vault that lists the commands applied to it: it refuses the second one after the first, and
always the third. -/
def applyUnlessFirst (applied : List Uuid) (command : LocalCommand Unit) :
    Option (List Uuid × Int) :=
  if command.command.commandId = sampleCommandId 2 ∧ sampleCommandId 1 ∈ applied ∨
      command.command.commandId = sampleCommandId 3 then none
  else some (command.command.commandId :: applied, command.oldOpSeq + 10)

/-- A command that wrote no row, of the group of another one. -/
def sampleLocal (byte group : UInt8) (oldOpSeq : Int) : LocalCommand Unit :=
  { command := ⟨sampleCommandId byte, sampleCommandId group, none, []⟩, payload := (), oldOpSeq }

/-- Three commands, the first and the third of one correlation group. -/
def sampleUnpushed : List (LocalCommand Unit) :=
  [sampleLocal 1 1 1, sampleLocal 2 2 2, sampleLocal 3 1 3]

theorem rebase_partitions_sample :
    ∃ executed refused, rebaseLocal applyUnlessFirst sampleUnpushed [] ∅ = some (.ok executed) ∧
      Rebased applyUnlessFirst sampleUnpushed [] ∅ refused executed :=
  rebase_partitions applyUnlessFirst [] ∅ (by unfold Distinct; decide)

end Dohflow.DbWorker
