/-
This file is a small theory of readers of byte strings.

A reader takes a value off the front of its input and leaves the rest, or it
refuses. `Reads reader bytes value` says that the reader takes exactly `bytes`
for `value`, whatever follows; it composes along the reader's own sequencing, so
a structure's reader is proved against its writer one field at a time. `ReadsAll`
is the same for a reader that must find nothing after its value. `ReadsOnly reader
write` is the other direction: whatever the reader accepts, it has read the bytes
`write` gives for the value, so a value has one spelling.

The numbers on the wire are fixed-width big-endian: `bigEndian` writes one,
`ofBigEndian` reads one back, and each inverts the other at its width.
-/

import Mathlib.Tactic.Ring

namespace ByteReader

variable (bytes : List UInt8) {width first second : Nat}

/-! ### Big-endian numbers -/

/-- The low `width` bytes of a number, most significant first. -/
def bigEndian : Nat → Nat → List UInt8
  | 0, _ => []
  | width + 1, value => UInt8.ofNat (value / 256 ^ width) :: bigEndian width value

/-- The number a byte string spells, most significant byte first. -/
def ofBigEndian (bytes : List UInt8) : Nat :=
  bytes.foldl (fun value byte => value * 256 + byte.toNat) 0

@[simp] theorem bigEndian_length (width value : Nat) : (bigEndian width value).length = width := by
  induction width with
  | zero => rfl
  | succ width inductionHypothesis => rw [bigEndian, List.length_cons, inductionHypothesis]

theorem foldl_bigEndian (width value high : Nat) :
    (bigEndian width value).foldl (fun value byte => value * 256 + byte.toNat) high =
      high * 256 ^ width + value % 256 ^ width := by
  induction width generalizing high with
  | zero => simp [bigEndian, Nat.mod_one]
  | succ width inductionHypothesis =>
    have digit : value % 256 ^ (width + 1) =
        value % 256 ^ width + 256 ^ width * (value / 256 ^ width % 2 ^ 8) := Nat.mod_pow_succ
    rw [bigEndian, List.foldl_cons, inductionHypothesis, UInt8.toNat_ofNat', digit]
    ring

theorem ofBigEndian_bigEndian (width value : Nat) :
    ofBigEndian (bigEndian width value) = value % 256 ^ width := by
  rw [ofBigEndian, foldl_bigEndian, Nat.zero_mul, Nat.zero_add]

theorem bigEndian_injective (firstFits : first < 256 ^ width) (secondFits : second < 256 ^ width)
    (same : bigEndian width first = bigEndian width second) : first = second := by
  have read := congrArg ofBigEndian same
  rwa [ofBigEndian_bigEndian, ofBigEndian_bigEndian, Nat.mod_eq_of_lt firstFits,
    Nat.mod_eq_of_lt secondFits] at read

theorem foldl_eq_add_ofBigEndian (high : Nat) :
    bytes.foldl (fun value byte => value * 256 + byte.toNat) high =
      high * 256 ^ bytes.length + ofBigEndian bytes := by
  induction bytes generalizing high with
  | nil => simp [ofBigEndian]
  | cons byte rest inductionHypothesis =>
    rw [ofBigEndian, List.foldl_cons, List.foldl_cons, inductionHypothesis, inductionHypothesis,
      List.length_cons]
    ring

theorem ofBigEndian_cons (byte : UInt8) (rest : List UInt8) :
    ofBigEndian (byte :: rest) = byte.toNat * 256 ^ rest.length + ofBigEndian rest := by
  rw [ofBigEndian, List.foldl_cons, foldl_eq_add_ofBigEndian, Nat.zero_mul, Nat.zero_add]

theorem ofBigEndian_lt : ofBigEndian bytes < 256 ^ bytes.length := by
  induction bytes with
  | nil => exact Nat.one_pos
  | cons byte rest inductionHypothesis =>
    have digit : byte.toNat < 256 := byte.toNat_lt
    calc ofBigEndian (byte :: rest)
        = byte.toNat * 256 ^ rest.length + ofBigEndian rest := ofBigEndian_cons byte rest
      _ < byte.toNat * 256 ^ rest.length + 256 ^ rest.length :=
          Nat.add_lt_add_left inductionHypothesis _
      _ = (byte.toNat + 1) * 256 ^ rest.length := by ring
      _ ≤ 256 * 256 ^ rest.length := Nat.mul_le_mul_right _ digit
      _ = 256 ^ (byte :: rest).length := by rw [List.length_cons, Nat.pow_succ']

theorem bigEndian_mul_add (width high value : Nat) :
    bigEndian width (high * 256 ^ width + value) = bigEndian width value := by
  induction width generalizing high with
  | zero => rfl
  | succ width inductionHypothesis =>
    have split : high * 256 ^ (width + 1) + value = 256 ^ width * (256 * high) + value := by ring
    have shifted : high * 256 ^ (width + 1) + value = high * 256 * 256 ^ width + value := by ring
    have digit : UInt8.ofNat ((high * 256 ^ (width + 1) + value) / 256 ^ width) =
        UInt8.ofNat (value / 256 ^ width) := by
      rw [split, Nat.mul_add_div (Nat.pow_pos (by decide)), ← UInt8.toNat_inj,
        UInt8.toNat_ofNat', UInt8.toNat_ofNat', Nat.mul_add_mod]
    rw [bigEndian, bigEndian, digit, shifted, inductionHypothesis]

theorem bigEndian_lt (less : first < second) (fits : second < 256 ^ width) :
    bigEndian width first < bigEndian width second := by
  induction width generalizing first second with
  | zero => omega
  | succ width inductionHypothesis =>
    have positive : 0 < 256 ^ width := Nat.pow_pos (by decide)
    have secondDigit : second / 256 ^ width < 256 := by
      rw [Nat.div_lt_iff_lt_mul positive, ← Nat.pow_succ']
      exact fits
    have digits : first / 256 ^ width ≤ second / 256 ^ width := Nat.div_le_div_right less.le
    rw [bigEndian, bigEndian, List.cons_lt_cons_iff]
    rcases digits.lt_or_eq with above | same
    · left
      rw [UInt8.lt_iff_toNat_lt, UInt8.toNat_ofNat', UInt8.toNat_ofNat',
        Nat.mod_eq_of_lt (by omega), Nat.mod_eq_of_lt (by omega)]
      exact above
    · right
      refine ⟨congrArg _ same, ?_⟩
      -- Under equal leading digits the rest of each number decides.
      have firstSplit := Nat.div_add_mod' first (256 ^ width)
      have secondSplit := Nat.div_add_mod' second (256 ^ width)
      rw [← firstSplit, ← secondSplit, bigEndian_mul_add, bigEndian_mul_add]
      refine inductionHypothesis ?_ (Nat.mod_lt _ positive)
      rw [same] at firstSplit
      omega

theorem bigEndian_ofBigEndian : bigEndian bytes.length (ofBigEndian bytes) = bytes := by
  induction bytes with
  | nil => rfl
  | cons byte rest inductionHypothesis =>
    have small := ofBigEndian_lt rest
    have digit : (byte.toNat * 256 ^ rest.length + ofBigEndian rest) / 256 ^ rest.length =
        byte.toNat := by
      rw [Nat.mul_comm, Nat.mul_add_div (Nat.pow_pos (by decide)), Nat.div_eq_of_lt small,
        Nat.add_zero]
    rw [ofBigEndian_cons, List.length_cons, bigEndian, digit, bigEndian_mul_add,
      inductionHypothesis, UInt8.ofNat_toNat]

/-! ### Readers -/

/-- A reader takes a value off the front of its input, or refuses with a failure. -/
abbrev Reader (Failure Value : Type) := StateT (List UInt8) (Except Failure) Value

variable {Failure Value Result : Type}
variable {next : Value → Reader Failure Result} {reader : Reader Failure Value}
  {input rest : List UInt8} {result : Result} {attempt : Except Failure Value} {value : Value}
  {failure : Failure} {condition : Prop}

/-- The reader takes exactly these bytes for this value, whatever follows them. -/
def Reads (reader : Reader Failure Value) (bytes : List UInt8) (value : Value) : Prop :=
  ∀ rest, reader.run (bytes ++ rest) = .ok (value, rest)

/-- The reader takes these bytes for this value when they are the whole input. -/
def ReadsAll (reader : Reader Failure Value) (bytes : List UInt8) (value : Value) : Prop :=
  reader.run bytes = .ok (value, [])

theorem Reads.readsAll {bytes : List UInt8} (reads : Reads reader bytes value) :
    ReadsAll reader bytes value := by
  have whole := reads []
  rwa [List.append_nil] at whole

theorem reads_pure (value : Value) : Reads (pure value : Reader Failure Value) [] value :=
  fun _ => rfl

/-- Reading one thing and then another takes their bytes in that order. -/
theorem Reads.bind {first second : List UInt8} (reads : Reads reader first value)
    (readsNext : Reads (next value) second result) :
    Reads (reader >>= next) (first ++ second) result := by
  intro rest
  rw [List.append_assoc, StateT.run_bind, reads]
  exact readsNext rest

/-- Reading one thing and then nothing more takes its bytes alone. -/
theorem Reads.bind_nil {bytes : List UInt8} (reads : Reads reader bytes value)
    (readsNext : Reads (next value) [] result) : Reads (reader >>= next) bytes result := by
  rw [← List.append_nil bytes]
  exact reads.bind readsNext

/-- Read one thing, then take everything that is left for another. -/
theorem Reads.bind_readsAll {first second : List UInt8} (reads : Reads reader first value)
    (readsNext : ReadsAll (next value) second result) :
    ReadsAll (reader >>= next) (first ++ second) result := by
  rw [ReadsAll, StateT.run_bind, reads]
  exact readsNext

/-- Carry on when the condition holds, taking nothing; otherwise refuse with the failure. -/
def require (condition : Prop) [Decidable condition] (failure : Failure) : Reader Failure Unit :=
  fun input => if condition then .ok ((), input) else .error failure

theorem reads_require [Decidable condition] (holds : condition) :
    Reads (require condition failure) [] () :=
  fun _ => if_pos holds

/-- Carry on past a condition that holds. -/
theorem Reads.require_bind [Decidable condition] {next : Unit → Reader Failure Result}
    {bytes : List UInt8} (holds : condition) (readsNext : Reads (next ()) bytes result) :
    Reads (require condition failure >>= next) bytes result :=
  (reads_require holds).bind readsNext

theorem ReadsAll.require_bind [Decidable condition] {next : Unit → Reader Failure Result}
    {bytes : List UInt8} (holds : condition) (readsNext : ReadsAll (next ()) bytes result) :
    ReadsAll (require condition failure >>= next) bytes result :=
  (reads_require holds).bind_readsAll readsNext

theorem reads_ok (holds : attempt = .ok value) :
    Reads (liftM attempt : Reader Failure Value) [] value := by
  intro rest
  rw [holds]
  rfl

theorem Reads.ok_bind {bytes : List UInt8} (holds : attempt = .ok value)
    (readsNext : Reads (next value) bytes result) :
    Reads ((liftM attempt : Reader Failure Value) >>= next) bytes result :=
  (reads_ok holds).bind readsNext

theorem ReadsAll.ok_bind {bytes : List UInt8} (holds : attempt = .ok value)
    (readsNext : ReadsAll (next value) bytes result) :
    ReadsAll ((liftM attempt : Reader Failure Value) >>= next) bytes result :=
  (reads_ok holds).bind_readsAll readsNext

/-! ### What a reader that accepts has read -/

/-- The reader takes nothing but a value's own bytes. -/
def ReadsOnly (reader : Reader Failure Value) (write : Value → List UInt8) : Prop :=
  ∀ {input rest : List UInt8} {value : Value}, reader.run input = .ok (value, rest) →
    input = write value ++ rest

theorem run_bind_eq_ok :
    (reader >>= next).run input = .ok (result, rest) ↔
      ∃ value middle, reader.run input = .ok (value, middle) ∧
        (next value).run middle = .ok (result, rest) := by
  rw [StateT.run_bind]
  cases attempt : reader.run input with
  | error failure => simp [bind, Except.bind]
  | ok taken =>
    obtain ⟨value, middle⟩ := taken
    constructor
    · intro continued
      exact ⟨value, middle, rfl, continued⟩
    · rintro ⟨_, _, ⟨⟩, continued⟩
      exact continued

theorem run_pure_eq_ok {value result : Value} :
    (pure value : Reader Failure Value).run input = .ok (result, rest) ↔
      value = result ∧ input = rest := by
  rw [StateT.run_pure]
  simp [pure, Except.pure]

theorem run_require_eq_ok [Decidable condition] {passed : Unit} :
    (require condition failure).run input = .ok (passed, rest) ↔ condition ∧ input = rest := by
  show (if condition then Except.ok ((), input) else .error failure) = .ok (passed, rest) ↔ _
  by_cases holds : condition
  · simp [holds]
  · simp [holds]

theorem run_require_bind_eq_ok [Decidable condition] {next : Unit → Reader Failure Result} :
    (require condition failure >>= next).run input = .ok (result, rest) ↔
      condition ∧ (next ()).run input = .ok (result, rest) := by
  simp only [run_bind_eq_ok, run_require_eq_ok]
  constructor
  · rintro ⟨_, _, ⟨holds, rfl⟩, continued⟩
    exact ⟨holds, continued⟩
  · rintro ⟨holds, continued⟩
    exact ⟨(), input, ⟨holds, rfl⟩, continued⟩

/-- What is read first has its own bytes in front of what is read next. -/
theorem ReadsOnly.of_bind {write : Value → List UInt8} (only : ReadsOnly reader write)
    (accepted : (reader >>= next).run input = .ok (result, rest)) :
    ∃ value middle, input = write value ++ middle ∧
      (next value).run middle = .ok (result, rest) := by
  obtain ⟨value, middle, taken, continued⟩ := run_bind_eq_ok.mp accepted
  exact ⟨value, middle, only taken, continued⟩

theorem run_liftM_eq_ok :
    (liftM attempt : Reader Failure Value).run input = .ok (value, rest) ↔
      attempt = .ok value ∧ input = rest := by
  cases attempt with
  | error failure => simp [liftM, monadLift, MonadLift.monadLift, StateT.lift, StateT.run,
      bind, Except.bind]
  | ok found => simp [liftM, monadLift, MonadLift.monadLift, StateT.lift, StateT.run,
      bind, Except.bind, pure, Except.pure]

theorem run_liftM_bind_eq_ok :
    ((liftM attempt : Reader Failure Value) >>= next).run input = .ok (result, rest) ↔
      ∃ value, attempt = .ok value ∧ (next value).run input = .ok (result, rest) := by
  simp only [run_bind_eq_ok, run_liftM_eq_ok]
  constructor
  · rintro ⟨value, _, ⟨made, rfl⟩, continued⟩
    exact ⟨value, made, continued⟩
  · rintro ⟨value, made, continued⟩
    exact ⟨value, input, ⟨made, rfl⟩, continued⟩

/-! ### Readers whose failures are translated -/

variable {Other : Type} {translate : Failure → Other} {reader : Reader Failure Value}

/-- The same reader, with its failures translated. -/
def mapFailure (translate : Failure → Other) (reader : Reader Failure Value) : Reader Other Value :=
  fun input => (reader.run input).mapError translate

theorem run_mapFailure_eq_ok {input : List UInt8} {taken : Value × List UInt8} :
    (mapFailure translate reader).run input = .ok taken ↔ reader.run input = .ok taken := by
  show (reader.run input).mapError translate = .ok taken ↔ _
  cases reader.run input with
  | error failure => simp [Except.mapError]
  | ok found => simp [Except.mapError]

theorem Reads.mapFailure {bytes : List UInt8} (reads : Reads reader bytes value) :
    Reads (mapFailure translate reader) bytes value :=
  fun rest => run_mapFailure_eq_ok.mpr (reads rest)

theorem ReadsOnly.mapFailure {write : Value → List UInt8} (only : ReadsOnly reader write) :
    ReadsOnly (mapFailure translate reader) write :=
  fun read => only (run_mapFailure_eq_ok.mp read)

end ByteReader
