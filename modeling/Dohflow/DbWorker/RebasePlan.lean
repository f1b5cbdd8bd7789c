/-
This file models the rebase plan: which unpushed local commands are re-applied on the new
base and which are queued for the person.

A command is queued on its own when the server's envelopes wrote a row it wrote, or when
the new base refuses it. With it go the other commands of its correlation group and those
it caused. The plan finds them with a worklist, root by root in local order.
-/

import Dohflow.Foundation.Worklist
import Dohflow.SyncCore.Cbe
import Mathlib.Data.Finset.Basic
import Mathlib.Order.Bounds.Defs

namespace Dohflow.DbWorker

open SyncCore Worklist

/-- A class-1 row: its table and its key. -/
abbrev RowKey : Type := String × List UInt8

/-- An unpushed local command, as the rebase reads it back from the live vault. -/
structure OutboxCommand where
  commandId : Uuid
  correlationId : Uuid
  causationId : Option Uuid
  /-- The class-1 rows the command wrote when it was applied locally. -/
  writeSetKeys : List RowKey
  deriving DecidableEq

/-- Whether none of the command's recorded rows was written by the server's envelopes. -/
def OutboxCommand.untouched (command : OutboxCommand) (touched : Finset RowKey) : Bool :=
  command.writeSetKeys.all fun key => key ∉ touched

/-- Why a command is queued rather than re-applied. -/
inductive QueueCause
  | touched
  | invalid
  /-- It belongs to the correlation group of, or is a causal descendant of, the queued root. -/
  | closure (root : Uuid)
  deriving DecidableEq

/-- What a queued command is offered with. -/
inductive QueueReason
  | choose
  | edit
  deriving DecidableEq

def QueueReason.asColumn : QueueReason → String
  | .choose => "queue_choose"
  | .edit => "queue_edit"

/-- What the plan does with one command. -/
inductive Disposition
  | replay
  | queue (cause : QueueCause) (reason : QueueReason)
  deriving DecidableEq

/-- The auto-iff rule for one command on its own. -/
def autoIff (untouched valid : Bool) : Disposition :=
  match untouched, valid with
  | true, true => .replay
  | false, true => .queue .touched .choose
  | _, false => .queue .invalid .edit

structure PlannedCommand where
  command : OutboxCommand
  disposition : Disposition
  deriving DecidableEq

/-- Every unpushed command, in local order, with its disposition. -/
structure Plan where
  commands : List PlannedCommand
  deriving DecidableEq

/-- The commands to re-apply, in local order. -/
def Plan.replayed (plan : Plan) : List OutboxCommand :=
  plan.commands.filterMap fun planned =>
    match planned.disposition with
    | .replay => some planned.command
    | .queue _ _ => none

/-- The commands to queue, in local order, with why. -/
def Plan.queued (plan : Plan) : List (OutboxCommand × QueueCause × QueueReason) :=
  plan.commands.filterMap fun planned =>
    match planned.disposition with
    | .queue cause reason => some (planned.command, cause, reason)
    | .replay => none

/-- Whether queueing one command pulls another one in: a sibling of its group or one it caused. -/
def OutboxCommand.pulls (seed other : OutboxCommand) : Bool :=
  other.correlationId = seed.correlationId || other.causationId = some seed.commandId

section

variable (touched : Finset RowKey) (invalid : Finset Uuid)

/-- What becomes of a command on its own. -/
def ownDisposition (command : OutboxCommand) : Disposition :=
  autoIff (command.untouched touched) (command.commandId ∉ invalid)

/-- Whether a command is queued on its own. -/
def isRoot (command : OutboxCommand) : Bool := ownDisposition touched invalid command ≠ .replay

/-- The disposition of what a root pulls in, with the root's own reason. -/
def closureOf (root : OutboxCommand) : Disposition :=
  match ownDisposition touched invalid root with
  | .queue _ reason => .queue (.closure root.commandId) reason
  | .replay => .replay

/-- The commands queued on their own, in local order. -/
def rootsOf (outbox : List OutboxCommand) : List OutboxCommand :=
  outbox.filter (isRoot touched invalid)

/-- The dispositions of the roots. -/
def rootDispositions (outbox : List OutboxCommand) (id : Uuid) : Option Disposition :=
  ((rootsOf touched invalid outbox).find? fun root => root.commandId = id).map
    (ownDisposition touched invalid)

/-- Plan the rebase of an outbox, in local order. -/
def plan (outbox : List OutboxCommand) : Plan :=
  let dispositions := spreadAll outbox OutboxCommand.commandId OutboxCommand.pulls
    (closureOf touched invalid) (rootDispositions touched invalid outbox)
    (rootsOf touched invalid outbox)
  { commands := outbox.map fun command =>
      { command, disposition := (dispositions command.commandId).getD .replay } }

end

/-! ### What is queued -/

variable {touched : Finset RowKey} {invalid : Finset Uuid} {outbox : List OutboxCommand}
  {command root : OutboxCommand}

theorem isRoot_iff : isRoot touched invalid command = true ↔
    command.untouched touched = false ∨ command.commandId ∈ invalid := by
  unfold isRoot ownDisposition
  by_cases refused : command.commandId ∈ invalid <;>
    cases command.untouched touched <;> simp [autoIff, refused]

theorem ownDisposition_ne_closure {id : Uuid} {reason : QueueReason} :
    ownDisposition touched invalid command ≠ .queue (.closure id) reason := by
  unfold ownDisposition
  cases command.untouched touched <;> by_cases refused : command.commandId ∈ invalid <;>
    simp [autoIff, refused]

theorem ownDisposition_invalid_iff : (∃ reason, ownDisposition touched invalid command =
    .queue .invalid reason) ↔ command.commandId ∈ invalid := by
  unfold ownDisposition
  cases command.untouched touched <;> by_cases refused : command.commandId ∈ invalid <;>
    simp [autoIff, refused]

theorem rootDispositions_eq (distinct : (outbox.map OutboxCommand.commandId).Nodup)
    (member : command ∈ outbox) :
    rootDispositions touched invalid outbox command.commandId =
      if isRoot touched invalid command then some (ownDisposition touched invalid command)
      else none := by
  have named : ∀ root, (rootsOf touched invalid outbox).find?
      (fun root => root.commandId = command.commandId) = some root →
      root = command ∧ isRoot touched invalid command = true := by
    intro root found
    have same := List.find?_some found
    rw [decide_eq_true_eq] at same
    obtain ⟨inside, rooted⟩ := List.mem_filter.mp (List.mem_of_find?_eq_some found)
    obtain rfl := List.inj_on_of_nodup_map distinct inside member same
    exact ⟨rfl, rooted⟩
  unfold rootDispositions
  cases found : (rootsOf touched invalid outbox).find?
      (fun root => root.commandId = command.commandId) with
  | some root =>
    obtain ⟨rfl, rooted⟩ := named root found
    rw [if_pos rooted, Option.map_some]
  | none =>
    rw [if_neg ?_, Option.map_none]
    intro rooted
    have absent := List.find?_eq_none.mp found command (List.mem_filter.mpr ⟨member, rooted⟩)
    simp at absent

/-- One command leads to another through commands that are not queued on their own. -/
def Queues (touched : Finset RowKey) (invalid : Finset Uuid) (outbox : List OutboxCommand) :
    OutboxCommand → OutboxCommand → Prop :=
  Relation.ReflTransGen fun seed other =>
    other ∈ outbox ∧ isRoot touched invalid other = false ∧ seed.pulls other = true

/-- The first root in local order that reaches a command. -/
def FirstRoot (touched : Finset RowKey) (invalid : Finset Uuid) (outbox : List OutboxCommand)
    (command root : OutboxCommand) : Prop :=
  ∃ earlier later, rootsOf touched invalid outbox = earlier ++ root :: later ∧
    Queues touched invalid outbox root command ∧
    ∀ other ∈ earlier, ¬ Queues touched invalid outbox other command

/-- What the plan does with a command. -/
def planned (touched : Finset RowKey) (invalid : Finset Uuid) (outbox : List OutboxCommand)
    (command : OutboxCommand) : Disposition :=
  (spreadAll outbox OutboxCommand.commandId OutboxCommand.pulls (closureOf touched invalid)
    (rootDispositions touched invalid outbox) (rootsOf touched invalid outbox)
    command.commandId).getD .replay

theorem leads_iff (distinct : (outbox.map OutboxCommand.commandId).Nodup) :
    Leads outbox OutboxCommand.commandId OutboxCommand.pulls
      (rootDispositions touched invalid outbox) root command ↔
      Queues touched invalid outbox root command := by
  have same : ∀ seed other, Step outbox OutboxCommand.commandId OutboxCommand.pulls
      (rootDispositions touched invalid outbox) seed other ↔
      other ∈ outbox ∧ isRoot touched invalid other = false ∧ seed.pulls other = true := by
    intro seed other
    refine and_congr_right fun member => and_congr_left fun _ => ?_
    rw [rootDispositions_eq distinct member]
    cases isRoot touched invalid other <;> simp
  rw [Leads, Queues, funext fun seed => funext fun other => propext (same seed other)]

/-- The plan queues the roots on their own, what a root reaches as its closure, and nothing else. -/
theorem planned_cases (touched : Finset RowKey) (invalid : Finset Uuid)
    (distinct : (outbox.map OutboxCommand.commandId).Nodup) (member : command ∈ outbox) :
    (isRoot touched invalid command = true ∧
        planned touched invalid outbox command = ownDisposition touched invalid command) ∨
      (isRoot touched invalid command = false ∧ ∃ root cause reason,
        FirstRoot touched invalid outbox command root ∧
        ownDisposition touched invalid root = .queue cause reason ∧
        planned touched invalid outbox command = .queue (.closure root.commandId) reason) ∨
      (isRoot touched invalid command = false ∧
        (∀ root ∈ rootsOf touched invalid outbox, ¬ Queues touched invalid outbox root command) ∧
        planned touched invalid outbox command = .replay) := by
  have before : rootDispositions touched invalid outbox command.commandId = _ :=
    rootDispositions_eq distinct member
  have done : SpreadFrom outbox OutboxCommand.commandId OutboxCommand.pulls
      (closureOf touched invalid) (rootDispositions touched invalid outbox)
      (rootsOf touched invalid outbox) (spreadAll outbox OutboxCommand.commandId
        OutboxCommand.pulls (closureOf touched invalid) (rootDispositions touched invalid outbox)
        (rootsOf touched invalid outbox)) := by
    refine spreadAll_spreadFrom distinct fun root inside => ?_
    obtain ⟨inside, rooted⟩ := List.mem_filter.mp inside
    rw [rootDispositions_eq distinct inside, if_pos rooted]
    exact ⟨inside, nofun⟩
  cases rooted : isRoot touched invalid command with
  | true =>
    rw [rooted, if_pos rfl] at before
    refine .inl ⟨rfl, ?_⟩
    rw [planned, done.kept command member (by rw [before]; exact nofun), before, Option.getD_some]
  | false =>
    rw [rooted, if_neg Bool.false_ne_true] at before
    obtain ⟨root, ⟨earlier, later, split, path, others⟩, found⟩ | ⟨away, missed⟩ :=
      done.spread command member before
    · have rootedFirst : root ∈ rootsOf touched invalid outbox := by simp [split]
      obtain ⟨cause, reason, own⟩ :
          ∃ cause reason, ownDisposition touched invalid root = .queue cause reason := by
        cases own : ownDisposition touched invalid root with
        | queue cause reason => exact ⟨cause, reason, rfl⟩
        | replay => simp [rootsOf, isRoot, own] at rootedFirst
      refine .inr (.inl ⟨rfl, root, cause, reason, ⟨earlier, later, split, (leads_iff distinct).mp
        path, fun other inside => mt (leads_iff distinct).mpr (others other inside)⟩, own, ?_⟩)
      rw [planned, found, Option.getD_some, closureOf, own]
    · refine .inr (.inr ⟨rfl, fun root inside => mt (leads_iff distinct).mpr (away root inside), ?_⟩)
      rw [planned, missed, Option.getD_none]

theorem planned_invalid_iff (distinct : (outbox.map OutboxCommand.commandId).Nodup)
    (member : command ∈ outbox) :
    (∃ reason, planned touched invalid outbox command = .queue .invalid reason) ↔
      command.commandId ∈ invalid := by
  obtain ⟨-, own⟩ | ⟨valid, root, cause, reason, -, -, found⟩ | ⟨valid, -, replayed⟩ :=
    planned_cases touched invalid distinct member
  · rw [own]
    exact ownDisposition_invalid_iff
  · have unrefused : command.commandId ∉ invalid := fun refused => by
      rw [isRoot_iff.mpr (.inr refused)] at valid
      cases valid
    exact iff_of_false (by simp [found]) unrefused
  · have unrefused : command.commandId ∉ invalid := fun refused => by
      rw [isRoot_iff.mpr (.inr refused)] at valid
      cases valid
    exact iff_of_false (by simp [replayed]) unrefused

/-! ### The queued set -/

/-- A set of commands of the outbox that has every touched and every refused one, and with a command
its siblings and what it caused. -/
structure ClosedQueue (touched : Finset RowKey) (invalid : Finset Uuid)
    (outbox : List OutboxCommand) (queue : Set OutboxCommand) : Prop where
  among : ∀ command ∈ queue, command ∈ outbox
  touched : ∀ command ∈ outbox, command.untouched touched = false → command ∈ queue
  refused : ∀ command ∈ outbox, command.commandId ∈ invalid → command ∈ queue
  siblings : ∀ command ∈ queue, ∀ other ∈ outbox, other.correlationId = command.correlationId →
    other ∈ queue
  caused : ∀ command ∈ queue, ∀ other ∈ outbox, other.causationId = some command.commandId →
    other ∈ queue

/-- The commands that the plan queues. -/
def queuedSet (touched : Finset RowKey) (invalid : Finset Uuid) (outbox : List OutboxCommand) :
    Set OutboxCommand :=
  {command | command ∈ outbox ∧ planned touched invalid outbox command ≠ .replay}

theorem mem_queuedSet (distinct : (outbox.map OutboxCommand.commandId).Nodup) :
    command ∈ queuedSet touched invalid outbox ↔ command ∈ outbox ∧
      ∃ root ∈ rootsOf touched invalid outbox, Queues touched invalid outbox root command := by
  refine and_congr_right fun member => ?_
  obtain ⟨rooted, own⟩ | ⟨-, root, cause, reason, ⟨earlier, later, split, path, -⟩, -, found⟩ |
    ⟨-, away, replayed⟩ := planned_cases touched invalid distinct member
  · refine iff_of_true ?_ ⟨command, List.mem_filter.mpr ⟨member, rooted⟩, .refl⟩
    rw [own]
    exact of_decide_eq_true rooted
  · refine iff_of_true ?_ ⟨root, by simp [split], path⟩
    rw [found]
    exact nofun
  · refine iff_of_false (fun queued => queued replayed) ?_
    rintro ⟨root, inside, path⟩
    exact away root inside path

theorem pulls_iff {seed other : OutboxCommand} : seed.pulls other = true ↔
    other.correlationId = seed.correlationId ∨ other.causationId = some seed.commandId := by
  simp [OutboxCommand.pulls]

theorem queuedSet_pulls (distinct : (outbox.map OutboxCommand.commandId).Nodup)
    {seed : OutboxCommand} (queued : seed ∈ queuedSet touched invalid outbox)
    (member : command ∈ outbox) (pulled : seed.pulls command = true) :
    command ∈ queuedSet touched invalid outbox := by
  rw [mem_queuedSet distinct] at queued ⊢
  obtain ⟨-, root, inside, path⟩ := queued
  refine ⟨member, ?_⟩
  cases rooted : isRoot touched invalid command with
  | true => exact ⟨command, List.mem_filter.mpr ⟨member, rooted⟩, .refl⟩
  | false => exact ⟨root, inside, path.tail ⟨member, rooted, pulled⟩⟩

theorem queuedSet_isLeast (distinct : (outbox.map OutboxCommand.commandId).Nodup) :
    IsLeast {queue | ClosedQueue touched invalid outbox queue}
      (queuedSet touched invalid outbox) := by
  have rooted : ∀ command ∈ outbox, isRoot touched invalid command = true →
      command ∈ queuedSet touched invalid outbox := fun command member rooted =>
    (mem_queuedSet distinct).mpr
      ⟨member, command, List.mem_filter.mpr ⟨member, rooted⟩, .refl⟩
  constructor
  · refine ⟨fun command queued => queued.1, fun command member isTouched => ?_,
      fun command member refused => ?_, fun command queued other member sibling => ?_,
      fun command queued other member caused => ?_⟩
    · exact rooted command member (isRoot_iff.mpr (.inl isTouched))
    · exact rooted command member (isRoot_iff.mpr (.inr refused))
    · exact queuedSet_pulls distinct queued member (pulls_iff.mpr (.inl sibling))
    · exact queuedSet_pulls distinct queued member (pulls_iff.mpr (.inr caused))
  · intro queue closed command queued
    obtain ⟨-, root, inside, path⟩ := (mem_queuedSet distinct).mp queued
    clear queued
    induction path with
    | refl =>
      obtain ⟨inside, rooted⟩ := List.mem_filter.mp inside
      rcases isRoot_iff.mp rooted with isTouched | refused
      · exact closed.touched _ inside isTouched
      · exact closed.refused _ inside refused
    | tail earlier step inductionHypothesis =>
      rcases pulls_iff.mp step.2.2 with sibling | caused
      · exact closed.siblings _ inductionHypothesis _ step.1 sibling
      · exact closed.caused _ inductionHypothesis _ step.1 caused

theorem queuedSet_mono {more : Finset Uuid} (distinct : (outbox.map OutboxCommand.commandId).Nodup)
    (subset : invalid ⊆ more) :
    queuedSet touched invalid outbox ⊆ queuedSet touched more outbox := by
  have closed : ClosedQueue touched more outbox (queuedSet touched more outbox) :=
    (queuedSet_isLeast distinct).1
  exact (queuedSet_isLeast distinct).2 ⟨closed.among, closed.touched,
    fun command member refused => closed.refused command member (subset refused),
    closed.siblings, closed.caused⟩

end Dohflow.DbWorker
