/-
This file models a snapshot's artifact closure as a sidecar body, and the committer
that hashes the body as it streams.

A sidecar body is the closure's ids, one after another, with nothing between them.
`ClosureManifest.fromSidecar` judges a body it holds whole; `ClosureCommitter` is
given it in chunks that may end anywhere, keeping at most one unfinished id. The
state of its hash is the bytes it was given. Over any chunks of a body the two
give one answer.
-/

import Dohflow.SyncCore.Plaintext

namespace Dohflow.SyncCore

open ByteReader Fallible

/-- The most ids in a snapshot's full closure. -/
def maxSnapshotClosure : Nat := 2 ^ 20

/-- The bytes of one id in a closure sidecar body. -/
def closureSidecarIdLen : Nat := 32

/-- The most bytes a closure sidecar body holds. -/
def maxClosureSidecarLen : Nat := maxSnapshotClosure * closureSidecarIdLen

/-- Why a closure sidecar body is not a closure. -/
inductive ClosureSidecarError
  | tooManyIds
  | notWholeIds
  | notAscending
  | countMismatch

/-! ### Whole ids off the front of a body -/

/-- The id at the front of enough bytes. -/
def firstId (bytes : List UInt8) (enough : 32 ≤ bytes.length) : Digest :=
  ⟨bytes.take 32, List.length_take_of_le enough⟩

/-- So many ids off the front of the bytes, and what is left. -/
def idsFrom : Nat → List UInt8 → List Digest × List UInt8
  | 0, bytes => ([], bytes)
  | count + 1, bytes =>
    if enough : 32 ≤ bytes.length then
      let later := idsFrom count (bytes.drop 32)
      (firstId bytes enough :: later.1, later.2)
    else ([], bytes)

/-- The whole ids of the bytes, and the bytes of an unfinished one. -/
def asChunks (bytes : List UInt8) : List Digest × List UInt8 :=
  idsFrom (bytes.length / closureSidecarIdLen) bytes

theorem idsFrom_spelled (count : Nat) (bytes : List UInt8) :
    bytes = (idsFrom count bytes).1.flatMap Writer.fixed ++ (idsFrom count bytes).2 := by
  induction count generalizing bytes with
  | zero => rfl
  | succ count inductionHypothesis =>
    by_cases enough : 32 ≤ bytes.length
    · rw [idsFrom, dif_pos enough]
      dsimp only
      rw [List.flatMap_cons, List.append_assoc, ← inductionHypothesis (bytes.drop 32)]
      exact (List.take_append_drop 32 bytes).symm
    · rw [idsFrom, dif_neg enough]
      rfl

theorem idsFrom_rest_short {count : Nat} {bytes : List UInt8}
    (reached : bytes.length < 32 * (count + 1)) : (idsFrom count bytes).2.length < 32 := by
  induction count generalizing bytes with
  | zero => exact reached
  | succ count inductionHypothesis =>
    by_cases enough : 32 ≤ bytes.length
    · rw [idsFrom, dif_pos enough]
      refine inductionHypothesis ?_
      rw [List.length_drop]
      omega
    · rw [idsFrom, dif_neg enough]
      show bytes.length < 32
      omega

theorem asChunks_spelled (bytes : List UInt8) :
    bytes = (asChunks bytes).1.flatMap Writer.fixed ++ (asChunks bytes).2 :=
  idsFrom_spelled _ _

theorem asChunks_rest_short (bytes : List UInt8) : (asChunks bytes).2.length < 32 := by
  refine idsFrom_rest_short ?_
  have width : closureSidecarIdLen = 32 := rfl
  rw [width]
  omega

theorem asChunks_of_short {bytes : List UInt8} (short : bytes.length < 32) :
    asChunks bytes = ([], bytes) := by
  have none : bytes.length / closureSidecarIdLen = 0 := Nat.div_eq_of_lt short
  rw [asChunks, none, idsFrom]

theorem asChunks_cons (id : Digest) (bytes : List UInt8) :
    asChunks (Writer.fixed id ++ bytes) = (id :: (asChunks bytes).1, (asChunks bytes).2) := by
  have length : (Writer.fixed id ++ bytes).length = bytes.length + 32 := by
    rw [List.length_append, length_fixed, Nat.add_comm]
  have count : (Writer.fixed id ++ bytes).length / closureSidecarIdLen =
      bytes.length / closureSidecarIdLen + 1 := by
    rw [length]
    exact Nat.add_div_right _ (by decide)
  have enough : 32 ≤ (Writer.fixed id ++ bytes).length := by omega
  have front : (Writer.fixed id ++ bytes).take 32 = id.toList := List.take_left' id.toList_length
  have back : (Writer.fixed id ++ bytes).drop 32 = bytes := List.drop_left' id.toList_length
  rw [asChunks, count, idsFrom, dif_pos enough, back]
  refine Prod.ext (congrArg (· :: _) ?_) rfl
  exact List.Vector.eq _ _ front

theorem asChunks_flatMap (ids : List Digest) {rest : List UInt8} (short : rest.length < 32) :
    asChunks (ids.flatMap Writer.fixed ++ rest) = (ids, rest) := by
  induction ids with
  | nil => exact asChunks_of_short short
  | cons id ids inductionHypothesis =>
    rw [List.flatMap_cons, List.append_assoc, asChunks_cons, inductionHypothesis]

theorem asChunks_append (bytes more : List UInt8) :
    asChunks (bytes ++ more) =
      ((asChunks bytes).1 ++ (asChunks ((asChunks bytes).2 ++ more)).1,
        (asChunks ((asChunks bytes).2 ++ more)).2) := by
  have spelled := asChunks_spelled bytes
  have continued := asChunks_spelled ((asChunks bytes).2 ++ more)
  have whole : bytes ++ more =
      ((asChunks bytes).1 ++ (asChunks ((asChunks bytes).2 ++ more)).1).flatMap Writer.fixed ++
        (asChunks ((asChunks bytes).2 ++ more)).2 := by
    rw [List.flatMap_append, List.append_assoc, ← continued, ← List.append_assoc, ← spelled]
  have chunks := asChunks_flatMap
    ((asChunks bytes).1 ++ (asChunks ((asChunks bytes).2 ++ more)).1)
    (asChunks_rest_short ((asChunks bytes).2 ++ more))
  rwa [← whole] at chunks

theorem asChunks_length (bytes : List UInt8) :
    bytes.length = 32 * (asChunks bytes).1.length + (asChunks bytes).2.length := by
  have length := congrArg List.length (asChunks_spelled bytes)
  rwa [List.length_append, EnvelopePlaintext.length_flatMap_fixed] at length

/-! ### The closure held whole -/

/-- A snapshot's full artifact closure: strictly ascending, within its bound. -/
structure ClosureManifest where
  ids : List Digest
  few : ids.length ≤ maxSnapshotClosure
  ascending : strictlyAscending ids

namespace ClosureManifest

/-- The closure as a sidecar body. -/
def toSidecar (manifest : ClosureManifest) : List UInt8 := manifest.ids.flatMap Writer.fixed

/-- A closure from a sidecar body. The length has held the count to its bound already. -/
def fromSidecar (bytes : List UInt8) : Except ClosureSidecarError ClosureManifest := do
  ensure (bytes.length ≤ maxClosureSidecarLen) .tooManyIds
  ensure (bytes.length % closureSidecarIdLen = 0) .notWholeIds
  let ids := (asChunks bytes).1
  if ascending : strictlyAscending ids then
    if few : ids.length ≤ maxSnapshotClosure then .ok ⟨ids, few, ascending⟩ else .error .tooManyIds
  else .error .notAscending

def commitment (crypto : Crypto) (manifest : ClosureManifest) : ManifestCommitment :=
  ⟨crypto.sha256 (ArtifactManifest.manifestBytes manifest.ids)⟩

end ClosureManifest

theorem ClosureManifest.fromSidecar_toSidecar (manifest : ClosureManifest) :
    fromSidecar manifest.toSidecar = .ok manifest := by
  have few := manifest.few
  have bound : maxClosureSidecarLen = maxSnapshotClosure * 32 := rfl
  have width : closureSidecarIdLen = 32 := rfl
  have length : manifest.toSidecar.length = 32 * manifest.ids.length :=
    EnvelopePlaintext.length_flatMap_fixed _
  have chunks : asChunks manifest.toSidecar = (manifest.ids, []) := by
    have none : ([] : List UInt8).length < 32 := Nat.zero_lt_succ 31
    have spelled := asChunks_flatMap manifest.ids none
    rwa [List.append_nil] at spelled
  have whole : manifest.toSidecar.length % closureSidecarIdLen = 0 := by
    rw [width]
    omega
  rw [fromSidecar, chunks, ensure_of (by omega), ok_bind, ensure_of whole, ok_bind,
    dif_pos manifest.ascending, dif_pos few]

theorem ClosureManifest.toSidecar_of_fromSidecar {bytes : List UInt8} {manifest : ClosureManifest}
    (read : fromSidecar bytes = .ok manifest) : manifest.toSidecar = bytes := by
  obtain ⟨-, read⟩ := ensure_bind_eq_ok.mp read
  obtain ⟨whole, read⟩ := ensure_bind_eq_ok.mp read
  have whole : bytes.length % 32 = 0 := whole
  have length := asChunks_length bytes
  have short := asChunks_rest_short bytes
  have none : (asChunks bytes).2 = [] := List.eq_nil_of_length_eq_zero (by omega)
  have spelled := asChunks_spelled bytes
  rw [none, List.append_nil] at spelled
  dsimp only at read
  split_ifs at read
  obtain rfl := Except.ok.inj read
  exact spelled.symm

/-- A sidecar body is read as a closure exactly when it is what the closure is written as. -/
theorem closure_sidecar_has_one_form (bytes : List UInt8) (manifest : ClosureManifest) :
    ClosureManifest.fromSidecar bytes = .ok manifest ↔ manifest.toSidecar = bytes := by
  constructor
  · exact ClosureManifest.toSidecar_of_fromSidecar
  · rintro rfl
    exact manifest.fromSidecar_toSidecar

/-! ### The committer -/

/-- The first bytes of the commitment's preimage. -/
def manifestPreimageHead (count : Nat) : List UInt8 :=
  Writer.withLabel "dohflow/sync-artifact-manifest/v1" ++ bigEndian 4 count

/-- The commitment of a closure sidecar computed as the body streams. -/
structure ClosureCommitter where
  /-- The bytes the hash was given. -/
  hasher : List UInt8
  declared : Nat
  seen : Nat
  previous : Option Digest
  /-- The bytes of an unfinished id. -/
  pending : List UInt8
  failed : Option ClosureSidecarError

namespace ClosureCommitter

variable {committer : ClosureCommitter} {error : ClosureSidecarError} {id : Digest}
  {chunk : List UInt8} {ids : List Digest}

def withCount (count : Nat) : ClosureCommitter :=
  { hasher := manifestPreimageHead count, declared := count, seen := 0, previous := none
    pending := [], failed := none }

/-- A committer for a body of so many bytes. -/
def forBodyLen (bodyLen : Nat) : Except ClosureSidecarError ClosureCommitter := do
  ensure (bodyLen ≤ maxClosureSidecarLen) .tooManyIds
  ensure (bodyLen % closureSidecarIdLen = 0) .notWholeIds
  return withCount (bodyLen / closureSidecarIdLen)

/-- The id that came before does not forbid this one. -/
def Follows (previous : Option Digest) (id : Digest) : Prop :=
  ∀ before ∈ previous, before.toList < id.toList

instance (previous : Option Digest) (id : Digest) : Decidable (Follows previous id) :=
  inferInstanceAs (Decidable (∀ before ∈ previous, before.toList < id.toList))

def take (committer : ClosureCommitter) (id : Digest) :
    Except ClosureSidecarError ClosureCommitter := do
  ensure (committer.seen ≠ committer.declared) .countMismatch
  ensure (Follows committer.previous id) .notAscending
  return { committer with
    hasher := committer.hasher ++ Writer.fixed id
    previous := some id
    seen := committer.seen + 1 }

/-- Take ids in order; at a refusal the ids before it stay taken. -/
def takeAll (committer : ClosureCommitter) :
    List Digest → ClosureCommitter × Except ClosureSidecarError Unit
  | [] => (committer, .ok ())
  | id :: rest =>
    match committer.take id with
    | .error error => (committer, .error error)
    | .ok next => next.takeAll rest

/-- The whole ids of a chunk, and what is left as the unfinished id. -/
def absorbWhole (committer : ClosureCommitter) (chunk : List UInt8) :
    ClosureCommitter × Except ClosureSidecarError Unit :=
  let (whole, rest) := asChunks chunk
  match committer.takeAll whole with
  | (next, .error error) => (next, .error error)
  | (next, .ok ()) => ({ next with pending := rest }, .ok ())

/-- Finish the unfinished id first, then take the chunk's own ids. -/
def absorb (committer : ClosureCommitter) (chunk : List UInt8) :
    ClosureCommitter × Except ClosureSidecarError Unit :=
  if committer.pending.length = 0 then committer.absorbWhole chunk
  else
    let taken := min (closureSidecarIdLen - committer.pending.length) chunk.length
    let pending := committer.pending ++ chunk.take taken
    if full : 32 ≤ pending.length then
      let emptied := { committer with pending := [] }
      match emptied.take (firstId pending full) with
      | .error error => (emptied, .error error)
      | .ok next => next.absorbWhole (chunk.drop taken)
    else ({ committer with pending }, .ok ())

/-- Feed the next bytes of the body. An error is kept and repeated. -/
def push (committer : ClosureCommitter) (chunk : List UInt8) :
    ClosureCommitter × Except ClosureSidecarError Unit :=
  match committer.failed with
  | some error => (committer, .error error)
  | none =>
    match committer.absorb chunk with
    | (next, .ok ()) => (next, .ok ())
    | (next, .error error) => ({ next with failed := some error }, .error error)

/-- The commitment, once the body has ended. -/
def finish (crypto : Crypto) (committer : ClosureCommitter) :
    Except ClosureSidecarError ManifestCommitment :=
  match committer.failed with
  | some error => .error error
  | none => do
    ensure (committer.pending.length = 0) .notWholeIds
    ensure (committer.seen = committer.declared) .countMismatch
    return ⟨crypto.sha256 committer.hasher⟩

/-- Push a chunk and stop where it fails. -/
def pushed (committer : ClosureCommitter) (chunk : List UInt8) :
    Except ClosureSidecarError ClosureCommitter :=
  match committer.push chunk with
  | (next, .ok ()) => .ok next
  | (_, .error error) => .error error

/-- The committer after the chunks, whatever their results. -/
def afterAll (committer : ClosureCommitter) (chunks : List (List UInt8)) : ClosureCommitter :=
  chunks.foldl (fun committer chunk => (committer.push chunk).1) committer

/-- A whole streaming run over a body of the stated length: a committer, its chunks, the end. -/
def stream (crypto : Crypto) (bodyLen : Nat) (chunks : List (List UInt8)) :
    Except ClosureSidecarError ManifestCommitment := do
  let committer ← forBodyLen bodyLen
  let final ← chunks.foldlM pushed committer
  final.finish crypto

/-! ### Taking ids -/

theorem takeAll_append (committer : ClosureCommitter) (first second : List Digest) :
    committer.takeAll (first ++ second) =
      match committer.takeAll first with
      | (next, .error error) => (next, .error error)
      | (next, .ok ()) => next.takeAll second := by
  induction first generalizing committer with
  | nil => rfl
  | cons id rest inductionHypothesis =>
    rw [List.cons_append, takeAll, takeAll]
    cases committer.take id with
    | error error => rfl
    | ok next => exact inductionHypothesis next

/-- The committer after it has taken the ids. -/
def having (committer : ClosureCommitter) (ids : List Digest) : ClosureCommitter :=
  { committer with
    hasher := committer.hasher ++ ids.flatMap Writer.fixed
    seen := committer.seen + ids.length
    previous := ids.getLast?.or committer.previous }

/-- The ids ascend, from the one that came before on. -/
def Ascends (committer : ClosureCommitter) (ids : List Digest) : Prop :=
  (committer.previous.toList ++ ids).IsChain fun first second => first.toList < second.toList

theorem ascends_cons {rest : List Digest} :
    committer.Ascends (id :: rest) ↔
      Follows committer.previous id ∧ (committer.having [id]).Ascends rest := by
  unfold Ascends having Follows
  cases committer.previous with
  | none => simp
  | some before => simp [List.isChain_cons_cons]

theorem take_eq_ok (room : committer.seen < committer.declared)
    (follows : Follows committer.previous id) :
    committer.take id = .ok (committer.having [id]) := by
  rw [take, ensure_of (by omega), ok_bind, ensure_of follows, ok_bind]
  simp [having, pure, Except.pure]

theorem having_having (committer : ClosureCommitter) (id : Digest) (rest : List Digest) :
    (committer.having [id]).having rest = committer.having (id :: rest) := by
  unfold having
  simp only [List.flatMap_cons, List.flatMap_nil, List.append_nil, List.append_assoc,
    List.length_cons, List.length_nil, mk.injEq, true_and, and_true]
  refine ⟨by omega, ?_⟩
  rw [List.getLast?_singleton, List.getLast?_cons]
  cases rest.getLast? <;> rfl

theorem takeAll_eq_ok (room : committer.seen + ids.length ≤ committer.declared)
    (ascends : committer.Ascends ids) : committer.takeAll ids = (committer.having ids, .ok ()) := by
  induction ids generalizing committer with
  | nil => simp [takeAll, having]
  | cons id rest inductionHypothesis =>
    rw [List.length_cons] at room
    obtain ⟨follows, ascends⟩ := ascends_cons.mp ascends
    rw [takeAll, take_eq_ok (by omega) follows]
    have room : (committer.having [id]).seen + rest.length ≤ (committer.having [id]).declared := by
      simp only [having, List.length_singleton]
      omega
    have tail := inductionHypothesis room ascends
    rw [having_having] at tail
    exact tail

theorem takeAll_eq_error (room : committer.seen + ids.length ≤ committer.declared)
    (falls : ¬ committer.Ascends ids) : (committer.takeAll ids).2 = .error .notAscending := by
  induction ids generalizing committer with
  | nil =>
    refine absurd ?_ falls
    unfold Ascends
    cases committer.previous <;> simp
  | cons id rest inductionHypothesis =>
    rw [List.length_cons] at room
    rw [takeAll]
    by_cases follows : Follows committer.previous id
    · rw [take_eq_ok (by omega) follows]
      refine inductionHypothesis ?_ fun ascends => falls (ascends_cons.mpr ⟨follows, ascends⟩)
      simp only [having, List.length_singleton]
      omega
    · rw [take, ensure_of (by omega), ok_bind, ensure_of_not follows]
      rfl

theorem take_keeps {committer next : ClosureCommitter} (taken : committer.take id = .ok next) :
    next.pending = committer.pending ∧ next.failed = committer.failed := by
  simp only [take, bind_eq_ok, ensure_eq_ok, exists_const] at taken
  obtain ⟨-, -, rest⟩ := taken
  obtain rfl := Except.ok.inj rest
  exact ⟨rfl, rfl⟩

theorem takeAll_keeps (committer : ClosureCommitter) (ids : List Digest) :
    (committer.takeAll ids).1.pending = committer.pending ∧
      (committer.takeAll ids).1.failed = committer.failed := by
  induction ids generalizing committer with
  | nil => exact ⟨rfl, rfl⟩
  | cons id rest inductionHypothesis =>
    rw [takeAll]
    cases taken : committer.take id with
    | error error => exact ⟨rfl, rfl⟩
    | ok next =>
      obtain ⟨samePending, sameFailed⟩ := inductionHypothesis next
      obtain ⟨pending, failed⟩ := take_keeps taken
      exact ⟨samePending.trans pending, sameFailed.trans failed⟩

/-! ### Chunks -/

/-- The committer without its unfinished id. -/
def emptied (committer : ClosureCommitter) : ClosureCommitter := { committer with pending := [] }

theorem absorb_eq (short : committer.pending.length < 32) (chunk : List UInt8) :
    committer.absorb chunk = committer.emptied.absorbWhole (committer.pending ++ chunk) := by
  have width : closureSidecarIdLen = 32 := rfl
  unfold absorb
  by_cases empty : committer.pending.length = 0
  · have none : committer.pending = [] := List.eq_nil_of_length_eq_zero empty
    have same : committer.emptied = committer := by
      rw [emptied, ← none]
    rw [if_pos empty, same, none, List.nil_append]
  rw [if_neg empty, width]
  dsimp only
  by_cases inside : committer.pending.length + chunk.length < 32
  · -- The chunk ends inside the unfinished id.
    have taken : min (32 - committer.pending.length) chunk.length = chunk.length := by omega
    have total : (committer.pending ++ chunk).length < 32 := by
      rw [List.length_append]
      exact inside
    rw [taken, List.take_length, dif_neg (by omega), absorbWhole, asChunks_of_short total]
    rfl
  · -- The chunk finishes it.
    have taken : min (32 - committer.pending.length) chunk.length =
        32 - committer.pending.length := by omega
    rw [taken]
    have length : (committer.pending ++ chunk.take (32 - committer.pending.length)).length =
        32 := by
      rw [List.length_append, List.length_take]
      omega
    rw [dif_pos length.ge]
    have front : committer.pending ++ chunk =
        Writer.fixed (firstId (committer.pending ++ chunk.take (32 - committer.pending.length))
          length.ge) ++ chunk.drop (32 - committer.pending.length) := by
      show _ = (committer.pending ++ chunk.take (32 - committer.pending.length)).take 32 ++ _
      rw [List.take_of_length_le length.le, List.append_assoc, List.take_append_drop]
    rw [front, absorbWhole, asChunks_cons]
    dsimp only
    rw [takeAll]
    show (match committer.emptied.take _ with
      | .error error => (committer.emptied, Except.error error)
      | .ok next => next.absorbWhole _) = _
    cases committer.emptied.take _ <;> rfl

theorem absorbWhole_append (empty : committer.pending = []) (first second : List UInt8) :
    committer.absorbWhole (first ++ second) =
      match committer.absorbWhole first with
      | (next, .error error) => (next, .error error)
      | (next, .ok ()) => next.emptied.absorbWhole (next.pending ++ second) := by
  rw [absorbWhole, absorbWhole, asChunks_append]
  dsimp only
  rw [takeAll_append]
  have keeps := (takeAll_keeps committer (asChunks first).1).1
  cases taken : committer.takeAll (asChunks first).1 with
  | mk next result =>
    rw [taken, empty] at keeps
    cases result with
    | error error => rfl
    | ok done =>
      have same : next.emptied = next := by
        rw [emptied, ← keeps]
      show _ = next.emptied.absorbWhole ((asChunks first).2 ++ second)
      rw [same, absorbWhole]

theorem absorbWhole_keeps {committer next : ClosureCommitter}
    (absorbed : committer.absorbWhole chunk = (next, .ok ())) :
    next.pending.length < 32 ∧ next.failed = committer.failed := by
  have keeps := (takeAll_keeps committer (asChunks chunk).1).2
  rw [absorbWhole] at absorbed
  dsimp only at absorbed
  cases taken : committer.takeAll (asChunks chunk).1 with
  | mk reached result =>
    rw [taken] at absorbed keeps
    cases result with
    | error error => cases absorbed
    | ok done =>
      obtain ⟨rfl, -⟩ := Prod.mk.inj absorbed
      exact ⟨asChunks_rest_short chunk, keeps⟩

/-- An attempt's state, unless it failed. -/
def unlessFailed (outcome : ClosureCommitter × Except ClosureSidecarError Unit) :
    Except ClosureSidecarError ClosureCommitter :=
  match outcome with
  | (next, .ok ()) => .ok next
  | (_, .error error) => .error error

theorem pushed_eq (short : committer.pending.length < 32) (working : committer.failed = none)
    (chunk : List UInt8) :
    committer.pushed chunk =
      unlessFailed (committer.emptied.absorbWhole (committer.pending ++ chunk)) := by
  rw [pushed, push, working, ← absorb_eq short]
  dsimp only
  cases committer.absorb chunk with
  | mk next result => cases result <;> rfl

theorem foldlM_pushed (short : committer.pending.length < 32) (working : committer.failed = none)
    (chunks : List (List UInt8)) :
    chunks.foldlM pushed committer =
      unlessFailed (committer.emptied.absorbWhole (committer.pending ++ chunks.flatten)) := by
  induction chunks generalizing committer with
  | nil =>
    rw [List.flatten_nil, List.append_nil, absorbWhole, asChunks_of_short short]
    rfl
  | cons chunk rest inductionHypothesis =>
    rw [List.foldlM_cons, List.flatten_cons, ← List.append_assoc,
      absorbWhole_append rfl (committer.pending ++ chunk) rest.flatten, pushed_eq short working]
    cases absorbed : committer.emptied.absorbWhole (committer.pending ++ chunk) with
    | mk next result =>
      cases result with
      | error error => rfl
      | ok done =>
        obtain ⟨nextShort, sameFailed⟩ := absorbWhole_keeps absorbed
        exact inductionHypothesis nextShort (sameFailed.trans working)

/-! ### The streaming run -/

theorem finish_eq_ok {crypto : Crypto} (working : committer.failed = none)
    (ended : committer.pending = []) (all : committer.seen = committer.declared) :
    committer.finish crypto = .ok ⟨crypto.sha256 committer.hasher⟩ := by
  rw [finish, working, ended]
  dsimp only
  rw [ensure_of List.length_nil, ok_bind, ensure_of all, ok_bind]
  rfl

theorem stream_eq (crypto : Crypto) (body : List UInt8) (chunks : List (List UInt8))
    (cut : chunks.flatten = body) :
    stream crypto body.length chunks =
      (ClosureManifest.fromSidecar body).map (ClosureManifest.commitment crypto) := by
  subst cut
  rw [stream, ClosureManifest.fromSidecar, forBodyLen]
  by_cases small : chunks.flatten.length ≤ maxClosureSidecarLen
  swap
  · rw [ensure_of_not small]
    rfl
  by_cases whole : chunks.flatten.length % closureSidecarIdLen = 0
  swap
  · rw [ensure_of small, ok_bind, ensure_of_not whole]
    rfl
  rw [ensure_of small, ok_bind, ok_bind, ensure_of whole, ok_bind, ok_bind]
  have width : closureSidecarIdLen = 32 := rfl
  have bound : maxClosureSidecarLen = 2 ^ 20 * 32 := rfl
  have most : maxSnapshotClosure = 2 ^ 20 := rfl
  have length := asChunks_length chunks.flatten
  have restShort := asChunks_rest_short chunks.flatten
  rw [width] at whole
  have count : chunks.flatten.length / closureSidecarIdLen =
      (asChunks chunks.flatten).1.length := by
    rw [width]
    omega
  have noRest : (asChunks chunks.flatten).2 = [] := List.eq_nil_of_length_eq_zero (by omega)
  have few : (asChunks chunks.flatten).1.length ≤ maxSnapshotClosure := by omega
  have fresh : (withCount (asChunks chunks.flatten).1.length).pending.length < 32 :=
    Nat.zero_lt_succ 31
  rw [pure_bind, count, foldlM_pushed fresh rfl]
  show (unlessFailed ((withCount _).absorbWhole chunks.flatten) >>= _) = _
  rw [absorbWhole]
  dsimp only
  rw [noRest]
  have room : (withCount (asChunks chunks.flatten).1.length).seen +
      (asChunks chunks.flatten).1.length ≤
      (withCount (asChunks chunks.flatten).1.length).declared := (Nat.zero_add _).le
  by_cases ascending : strictlyAscending (asChunks chunks.flatten).1
  · rw [takeAll_eq_ok room ascending, dif_pos ascending, dif_pos few]
    simp only [unlessFailed, ok_bind]
    rw [finish_eq_ok rfl rfl (Nat.zero_add _)]
    refine congrArg (fun bytes => Except.ok (ManifestCommitment.mk (crypto.sha256 bytes))) ?_
    exact List.append_assoc ..
  · have refused := takeAll_eq_error room ascending
    rw [dif_neg ascending]
    cases taken : (withCount (asChunks chunks.flatten).1.length).takeAll
        (asChunks chunks.flatten).1 with
    | mk next result =>
      rw [taken] at refused
      rw [show result = .error .notAscending from refused]
      rfl

theorem push_of_failed (failed : committer.failed = some error) (chunk : List UInt8) :
    committer.push chunk = (committer, .error error) := by
  rw [push, failed]

theorem failed_of_push {committer next : ClosureCommitter}
    (refused : committer.push chunk = (next, .error error)) : next.failed = some error := by
  unfold push at refused
  cases failed : committer.failed with
  | some before =>
    rw [failed] at refused
    obtain ⟨rfl, same⟩ := Prod.mk.inj refused
    rw [failed, Except.error.inj same]
  | none =>
    rw [failed] at refused
    dsimp only at refused
    cases absorbed : committer.absorb chunk with
    | mk reached result =>
      rw [absorbed] at refused
      cases result with
      | ok done => cases refused
      | error found =>
        obtain ⟨rfl, same⟩ := Prod.mk.inj refused
        rw [Except.error.inj same]

theorem afterAll_of_failed (failed : committer.failed = some error) (chunks : List (List UInt8)) :
    committer.afterAll chunks = committer := by
  induction chunks with
  | nil => rfl
  | cons chunk rest inductionHypothesis =>
    rw [afterAll, List.foldl_cons, push_of_failed failed]
    exact inductionHypothesis

end ClosureCommitter

/-- The committer over any chunks of a body answers as the closure read from the whole body does,
and after a failing push every later push and the end repeat its error. -/
theorem committer_streams_closure (crypto : Crypto) :
    (∀ (body : List UInt8) (chunks : List (List UInt8)), chunks.flatten = body →
      ClosureCommitter.stream crypto body.length chunks =
        (ClosureManifest.fromSidecar body).map (ClosureManifest.commitment crypto)) ∧
    (∀ (committer failing : ClosureCommitter) (chunk : List UInt8) (error : ClosureSidecarError),
      committer.push chunk = (failing, .error error) → ∀ later : List (List UInt8),
      (∀ another, ((failing.afterAll later).push another).2 = .error error) ∧
        (failing.afterAll later).finish crypto = .error error) := by
  refine ⟨ClosureCommitter.stream_eq crypto, ?_⟩
  intro committer failing chunk error refused later
  have failed := ClosureCommitter.failed_of_push refused
  rw [ClosureCommitter.afterAll_of_failed failed]
  constructor
  · intro another
    rw [ClosureCommitter.push_of_failed failed]
  · rw [ClosureCommitter.finish, failed]

end Dohflow.SyncCore
