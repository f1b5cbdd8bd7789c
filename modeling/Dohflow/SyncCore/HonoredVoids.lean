/-
This file models what the honored voids of a replica are: the ranges of log
positions they skip, the contradictions a void can reveal, and when a snapshot
gets past a stop. The rule by which a void is honored needs the replica's status
and comes after it.
-/

import Dohflow.SyncCore.Header

namespace Dohflow.SyncCore

/-- A range of log positions an honored void skips. -/
structure HonoredVoid where
  voidId : Digest
  /-- The first skipped position. -/
  first : Nat
  /-- The last skipped position, just before the void. -/
  last : Nat

/-- A void that contradicts what the replica holds: the log or the ledger forked. -/
inductive ForkSuspected
  /-- The void names another digest than the one this replica holds at the stop. -/
  | digestAtStop (seq : Nat) (ours theirs : Digest)
  /-- The void was honored at another position. -/
  | voidAtTwoPositions (voidId : Digest) (honoredAt offeredAt : Nat)

/-- The honored voids so far, in the order they were honored. -/
structure VoidLedger where
  honored : List HonoredVoid

/-- Whether the range holds a position. -/
def HonoredVoid.covers (honored : HonoredVoid) (seq : Nat) : Bool :=
  honored.first ≤ seq && seq ≤ honored.last

namespace VoidLedger

def empty : VoidLedger := ⟨[]⟩

/-- Whether an honored void skips the position. -/
def skips (ledger : VoidLedger) (seq : Nat) : Bool :=
  ledger.honored.any fun honored => honored.covers seq

end VoidLedger

/-- Whether a snapshot gets past a stop: it records a void over the stop and is rooted past it. -/
def snapshotPassesStop (stopSeq root : Nat) (recorded : List HonoredVoid) : Bool :=
  recorded.any fun honored => honored.covers stopSeq && honored.last < root

end Dohflow.SyncCore
