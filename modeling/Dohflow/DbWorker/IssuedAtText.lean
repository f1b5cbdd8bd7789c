/-
This file models the texts of instants that the database holds, and proves that they
compare as the instants do.

A command's instant is written as RFC 3339 writes it, in UTC, with no fraction for a whole
second and else with three or six digits of it. Between the years 1970 and 9999 the texts
have fields of fixed width up to the fraction, and the plus sign of the offset sorts
before every digit, so that a shorter fraction sorts before what continues it.
-/

import Dohflow.CoreIds.DerivedIds
import Dohflow.Foundation.Calendar
import Dohflow.Foundation.FixedDigits
import Mathlib.Data.String.Basic

namespace Dohflow.DbWorker

open Calendar FixedDigits CoreIds

/-- An instant that a command may carry, in microseconds. -/
def Supported (micros : Int) : Prop :=
  IssuedAt.minSupportedMicros ≤ micros ∧ micros ≤ IssuedAt.maxSupportedMicros

instance decidableSupported (micros : Int) : Decidable (Supported micros) :=
  inferInstanceAs (Decidable (_ ∧ _))

/-! ### The text of an instant -/

/-- The day of an instant. -/
def dateOfMicros (micros : Int) : Date := (Date.firstOf (12 * 1970)).addDays (micros / 86400000000)

/-- The second of its day. -/
def secondOfDay (micros : Int) : Nat := (micros / 1000000 % 86400).toNat

/-- The microseconds in its second. -/
def microsOfSecond (micros : Int) : Nat := (micros % 1000000).toNat

def dateChars (date : Date) : List Char :=
  fixed 4 date.year.toNat ++ '-' :: (fixed 2 date.monthOfYear ++ '-' :: fixed 2 date.day)

def clockChars (second : Nat) : List Char :=
  fixed 2 (second / 3600) ++ ':' :: (fixed 2 (second / 60 % 60) ++ ':' :: fixed 2 (second % 60))

/-- The fraction of a second: none, three digits or six. -/
def fractionChars (micros : Nat) : List Char :=
  if micros = 0 then []
  else if micros % 1000 = 0 then '.' :: fixed 3 (micros / 1000)
  else '.' :: fixed 6 micros

/-- An instant as RFC 3339 writes it, in UTC. -/
def rfc3339 (micros : Int) : String :=
  String.ofList (dateChars (dateOfMicros micros) ++ ('T' :: (clockChars (secondOfDay micros) ++
    (fractionChars (microsOfSecond micros) ++ ['+', '0', '0', ':', '0', '0']))))

example : rfc3339 1500000 = "1970-01-01T00:00:01.500+00:00" := by decide +kernel

/-- What the time library promises of the texts it writes. -/
def WritesRfc3339 (toRfc3339 : Int → String) : Prop :=
  ∀ micros, Supported micros → toRfc3339 micros = rfc3339 micros

/-! ### Texts compare as their instants do -/

theorem date_le_lastDay {date : Date}
    (before : date.dayNumber ≤ (Date.firstOf (12 * 1970)).dayNumber + 2932896) :
    date.month ≤ 12 * 9999 + 11 := by
  have last : (Date.lastOf (12 * 9999 + 11)).dayNumber =
      (Date.firstOf (12 * 1970)).dayNumber + 2932896 := by decide +kernel
  rw [← last, Date.dayNumber_le_iff, Date.le_iff] at before
  rcases before with less | ⟨same, -⟩
  · exact less.le
  · exact same.le

theorem dateChars_lt {first second : Date} (less : first < second) (start : 0 ≤ first.month)
    (stop : second.month ≤ 12 * 9999 + 11) : dateChars first < dateChars second := by
  have firstDay := first.valid
  have secondDay := second.valid
  have shortMonth := daysInMonth_le second.month
  rw [Date.lt_iff] at less
  unfold dateChars Date.year yearOf Date.monthOfYear
  by_cases earlier : first.month / 12 < second.month / 12
  · exact fixed_append_lt (by omega) (by omega) _ _
  have year : first.month / 12 = second.month / 12 := by omega
  rw [year]
  refine List.append_left_lt (List.cons_lt_cons_iff.mpr (.inr ⟨rfl, ?_⟩))
  by_cases before : first.month < second.month
  · exact fixed_append_lt (by omega) (by omega) _ _
  have month : first.month = second.month := by omega
  rw [month]
  refine List.append_left_lt (List.cons_lt_cons_iff.mpr (.inr ⟨rfl, ?_⟩))
  exact fixed_lt_fixed (by omega) (by omega)

theorem clockChars_lt {first second : Nat} (less : first < second) (day : second < 86400) :
    clockChars first < clockChars second := by
  unfold clockChars
  by_cases hour : first / 3600 < second / 3600
  · exact fixed_append_lt hour (by omega) _ _
  rw [show first / 3600 = second / 3600 by omega]
  refine List.append_left_lt (List.cons_lt_cons_iff.mpr (.inr ⟨rfl, ?_⟩))
  by_cases minute : first / 60 % 60 < second / 60 % 60
  · exact fixed_append_lt minute (by omega) _ _
  rw [show first / 60 % 60 = second / 60 % 60 by omega]
  refine List.append_left_lt (List.cons_lt_cons_iff.mpr (.inr ⟨rfl, ?_⟩))
  exact fixed_lt_fixed (by omega) (by omega)

theorem plus_lt_digitChar : ∀ digit < 10, '+' < Nat.digitChar digit := by decide

theorem fraction_lt {first second : Nat} (less : first < second) (fits : second < 1000000)
    (offset : List Char) :
    fractionChars first ++ '+' :: offset < fractionChars second ++ '+' :: offset := by
  have positive : second ≠ 0 := by omega
  unfold fractionChars
  rw [if_neg positive]
  by_cases whole : first = 0
  · rw [if_pos whole, List.nil_append]
    split_ifs
    · exact List.cons_lt_cons_iff.mpr (.inl (by decide))
    · exact List.cons_lt_cons_iff.mpr (.inl (by decide))
  rw [if_neg whole]
  have six (value : Nat) : fixed 6 value = fixed 3 (value / 1000) ++ fixed 3 value := fixed_add 3 3 value
  by_cases short : first % 1000 = 0
  · rw [if_pos short]
    by_cases shortToo : second % 1000 = 0
    · rw [if_pos shortToo]
      refine List.cons_lt_cons_iff.mpr (.inr ⟨rfl, ?_⟩)
      exact fixed_append_lt (by omega) (by omega) _ _
    · rw [if_neg shortToo, six second]
      refine List.cons_lt_cons_iff.mpr (.inr ⟨rfl, ?_⟩)
      rw [List.append_eq, List.append_eq, List.append_assoc]
      by_cases before : first / 1000 < second / 1000
      · exact fixed_append_lt before (by omega) _ _
      · -- The longer fraction goes on where the offset follows the shorter one.
        rw [show first / 1000 = second / 1000 by omega]
        refine List.append_left_lt ?_
        exact List.cons_lt_cons_iff.mpr (.inl (plus_lt_digitChar _ (Nat.mod_lt _ (by decide))))
  · rw [if_neg short]
    refine (?_ : '.' :: fixed 6 first ++ '+' :: offset < _)
    by_cases shortToo : second % 1000 = 0
    · rw [if_pos shortToo, six first]
      refine List.cons_lt_cons_iff.mpr (.inr ⟨rfl, ?_⟩)
      rw [List.append_eq, List.append_eq, List.append_assoc]
      exact fixed_append_lt (by omega) (by omega) _ _
    · rw [if_neg shortToo]
      refine List.cons_lt_cons_iff.mpr (.inr ⟨rfl, ?_⟩)
      exact fixed_append_lt less fits _ _

theorem string_lt_iff {first second : List Char} :
    String.ofList first < String.ofList second ↔ first < second := by
  show (String.ofList first).toList < (String.ofList second).toList ↔ _
  rw [String.toList_ofList, String.toList_ofList]

theorem rfc3339_lt {first second : Int} (start : Supported first) (stop : Supported second)
    (less : first < second) : rfc3339 first < rfc3339 second := by
  unfold Supported IssuedAt.minSupportedMicros IssuedAt.maxSupportedMicros at start stop
  unfold rfc3339
  rw [string_lt_iff]
  have epoch : (Date.firstOf (12 * 1970)).month = 12 * 1970 := rfl
  by_cases day : first / 86400000000 < second / 86400000000
  · refine append_lt_append (by simp [dateChars]) (dateChars_lt ?_ ?_ ?_) _ _
    · exact Date.addDays_lt_iff.mpr day
    · have later : Date.firstOf (12 * 1970) ≤ dateOfMicros first := by
        rw [← Date.dayNumber_le_iff, dateOfMicros, Date.dayNumber_addDays]
        omega
      rcases Date.le_iff.mp later with less | ⟨same, -⟩ <;> omega
    · refine date_le_lastDay ?_
      rw [dateOfMicros, Date.dayNumber_addDays]
      omega
  have sameDay : first / 86400000000 = second / 86400000000 := by omega
  rw [dateOfMicros, sameDay, ← dateOfMicros]
  refine List.append_left_lt (List.cons_lt_cons_iff.mpr (.inr ⟨rfl, ?_⟩))
  by_cases clock : secondOfDay first < secondOfDay second
  · refine append_lt_append (by simp [clockChars]) (clockChars_lt clock ?_) _ _
    unfold secondOfDay
    omega
  have sameSecond : secondOfDay first = secondOfDay second := by
    unfold secondOfDay at clock ⊢
    omega
  rw [sameSecond]
  refine List.append_left_lt (fraction_lt ?_ ?_ _)
  · unfold secondOfDay at sameSecond
    unfold microsOfSecond
    omega
  · unfold microsOfSecond
    omega

theorem toRfc3339_lt_iff {toRfc3339 : Int → String} (writes : WritesRfc3339 toRfc3339)
    {first second : Int} (start : Supported first) (stop : Supported second) :
    toRfc3339 first < toRfc3339 second ↔ first < second := by
  rw [writes first start, writes second stop]
  constructor
  · intro less
    by_contra after
    rcases Int.lt_or_eq_of_le (Int.not_lt.mp after) with greater | same
    · exact lt_asymm less (rfc3339_lt stop start greater)
    · rw [same] at less
      exact lt_irrefl _ less
  · exact rfc3339_lt start stop

end Dohflow.DbWorker
