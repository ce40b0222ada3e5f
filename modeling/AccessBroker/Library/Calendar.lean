import AccessBroker.Library.Text
import Mathlib.Data.Option.Basic
import Mathlib.Tactic.Ring

/-! # Dates and times in UTC

Instants in microseconds since the year 1, the calendar day and the time of day they fall on, and
the text `datetime.isoformat` prints of them. A printed instant is read back.
-/

namespace Calendar
open Py
set_option autoImplicit false

/-! ## Days -/

structure Date where
  year : Nat
  month : Nat
  day : Nat
  deriving DecidableEq

def isLeap (year : Nat) : Bool := year % 4 == 0 && (year % 100 != 0 || year % 400 == 0)

def daysInMonth (leap : Bool) (month : Nat) : Nat :=
  if month = 2 then if leap then 29 else 28
  else if month = 4 ∨ month = 6 ∨ month = 9 ∨ month = 11 then 30 else 31

def daysBeforeMonth (leap : Bool) : Nat → Nat
  | 0 | 1 => 0
  | month + 1 => daysBeforeMonth leap month + daysInMonth leap month

def daysBeforeYear (year : Nat) : Nat :=
  let y := year - 1
  y * 365 + y / 4 - y / 100 + y / 400

/-- The first of January of the year 1 is day 1. -/
def Date.ordinal (date : Date) : Nat :=
  daysBeforeYear date.year + daysBeforeMonth (isLeap date.year) date.month + date.day

/-- The month of a day of the year, counted from 0: an estimate that can be one too high. -/
def monthOf (leap : Bool) (n : Nat) : Nat :=
  let month := (n + 50) / 32
  if n < daysBeforeMonth leap month then month - 1 else month

/-- Cycles of 400, 100 and 4 years and single years are taken off one after the other; the last
day of a leap cycle would begin another one. -/
def Date.ofOrdinal (ordinal : Nat) : Date :=
  let n := ordinal - 1
  let n400 := n / 146097
  let n := n % 146097
  let n100 := n / 36524
  let n := n % 36524
  let n4 := n / 1461
  let n := n % 1461
  let n1 := n / 365
  let n := n % 365
  let year := n400 * 400 + 1 + n100 * 100 + n4 * 4 + n1
  if n1 = 4 ∨ n100 = 4 then ⟨year - 1, 12, 31⟩
  else
    let leap := n1 == 3 && (n4 != 24 || n100 == 3)
    let month := monthOf leap n
    ⟨year, month, n - daysBeforeMonth leap month + 1⟩

structure Date.Valid (date : Date) : Prop where
  year : 1 ≤ date.year
  month : 1 ≤ date.month ∧ date.month ≤ 12
  day : 1 ≤ date.day ∧ date.day ≤ daysInMonth (isLeap date.year) date.month

theorem monthOf_spec (leap : Bool) {n : Nat} (h : n < 365 + leap.toNat) :
    (1 ≤ monthOf leap n ∧ monthOf leap n ≤ 12) ∧ daysBeforeMonth leap (monthOf leap n) ≤ n ∧
      n < daysBeforeMonth leap (monthOf leap n) + daysInMonth leap (monthOf leap n) := by
  have hAll : ∀ leap : Bool, ∀ n < 366, n < 365 + leap.toNat →
      (1 ≤ monthOf leap n ∧ monthOf leap n ≤ 12) ∧ daysBeforeMonth leap (monthOf leap n) ≤ n ∧
        n < daysBeforeMonth leap (monthOf leap n) + daysInMonth leap (monthOf leap n) := by
    decide +kernel
  refine hAll leap n ?_ h
  cases leap <;> simp at h <;> omega

section Cycles

variable {a b c d : Nat} (hb : b ≤ 3) (hc : c ≤ 24) (hd : d ≤ 3)
include hb hc hd

theorem isLeap_cycles : isLeap (a * 400 + 1 + b * 100 + c * 4 + d) =
    (d == 3 && (c != 24 || b == 3)) := by
  rw [Bool.eq_iff_iff, isLeap]
  simp only [Bool.and_eq_true, Bool.or_eq_true, beq_iff_eq, bne_iff_ne]
  omega

theorem daysBeforeYear_cycles : daysBeforeYear (a * 400 + 1 + b * 100 + c * 4 + d) =
    146097 * a + 36524 * b + 1461 * c + 365 * d := by
  rw [daysBeforeYear]
  omega

end Cycles

/-- The last day of a leap year. -/
theorem lastDay {year n : Nat} (hYear : 1 ≤ year) (hLeap : isLeap year = true)
    (hOrdinal : daysBeforeYear year + 366 = n) :
    (Date.mk year 12 31).ordinal = n ∧ (Date.mk year 12 31).Valid := by
  refine ⟨?_, hYear, by simp, by simp [daysInMonth]⟩
  rw [← hOrdinal, Date.ordinal]
  dsimp only
  rw [hLeap]
  rfl

/-- Another day, by its number in the year. -/
theorem dayOfYear {year n r : Nat} (hYear : 1 ≤ year) (hDay : r < 365)
    (hOrdinal : daysBeforeYear year + r + 1 = n) :
    let date : Date := ⟨year, monthOf (isLeap year) r,
      r - daysBeforeMonth (isLeap year) (monthOf (isLeap year) r) + 1⟩
    date.ordinal = n ∧ date.Valid := by
  obtain ⟨hMonth, hStart, hEnd⟩ := monthOf_spec (isLeap year) (n := r) (by omega)
  refine ⟨?_, hYear, hMonth, by simp, ?_⟩
  · rw [Date.ordinal]
    dsimp only
    omega
  · dsimp only
    omega

/-- A day is told by its number. -/
theorem ordinal_ofOrdinal {n : Nat} (h : 1 ≤ n) :
    (Date.ofOrdinal n).ordinal = n ∧ (Date.ofOrdinal n).Valid := by
  unfold Date.ofOrdinal
  dsimp only
  obtain ⟨a, ha⟩ : ∃ a, a = (n - 1) / 146097 := ⟨_, rfl⟩
  obtain ⟨b, hb⟩ : ∃ b, b = (n - 1) % 146097 / 36524 := ⟨_, rfl⟩
  obtain ⟨c, hc⟩ : ∃ c, c = (n - 1) % 146097 % 36524 / 1461 := ⟨_, rfl⟩
  obtain ⟨d, hd⟩ : ∃ d, d = (n - 1) % 146097 % 36524 % 1461 / 365 := ⟨_, rfl⟩
  obtain ⟨r, hr⟩ : ∃ r, r = (n - 1) % 146097 % 36524 % 1461 % 365 := ⟨_, rfl⟩
  rw [← ha, ← hb, ← hc, ← hd, ← hr]
  have hSum : n = 146097 * a + 36524 * b + 1461 * c + 365 * d + r + 1 := by omega
  split
  · -- the year before is a leap year, and this is its last day
    have hCycle : (b = 4 ∧ c = 0 ∧ d = 0 ∧ r = 0) ∨ (b ≤ 3 ∧ c ≤ 23 ∧ d = 4 ∧ r = 0) := by omega
    rcases hCycle with ⟨rfl, rfl, rfl, rfl⟩ | ⟨hB, hC, rfl, rfl⟩
    · have hYear : a * 400 + 1 + 4 * 100 + 0 * 4 + 0 - 1 = a * 400 + 1 + 3 * 100 + 24 * 4 + 3 := by
        omega
      rw [hYear]
      refine lastDay (by omega) ?_ ?_
      · rw [isLeap_cycles (by omega) (by omega) (by omega)]
        rfl
      · rw [daysBeforeYear_cycles (by omega) (by omega) (by omega)]
        omega
    · have hYear : a * 400 + 1 + b * 100 + c * 4 + 4 - 1 = a * 400 + 1 + b * 100 + c * 4 + 3 := by
        omega
      rw [hYear]
      refine lastDay (by omega) ?_ ?_
      · rw [isLeap_cycles hB (by omega) (by omega)]
        have hCentury : (c != 24) = true := by
          rw [bne_iff_ne]
          omega
        rw [hCentury]
        rfl
      · rw [daysBeforeYear_cycles hB (by omega) (by omega)]
        omega
  · have hBounds : b ≤ 3 ∧ c ≤ 24 ∧ d ≤ 3 ∧ r < 365 := by omega
    obtain ⟨hB, hC, hD, hR⟩ := hBounds
    rw [← isLeap_cycles (a := a) hB hC hD]
    refine dayOfYear (by omega) hR ?_
    rw [daysBeforeYear_cycles hB hC hD]
    omega

/-! ## Instants -/

/-- The last day is the 31st of December of the year 9999. -/
def maxOrdinal : Nat := 3652059

def microsPerDay : Nat := 86400 * 1000000

structure Datetime where
  date : Date
  hour : Nat
  minute : Nat
  second : Nat
  microsecond : Nat
  deriving DecidableEq

/-- Microseconds since the first of January of the year 1. -/
def Datetime.instant (dt : Datetime) : Int :=
  ((dt.date.ordinal - 1) * microsPerDay +
    ((dt.hour * 60 + dt.minute) * 60 + dt.second) * 1000000 + dt.microsecond : Nat)

def Datetime.ofInstant (t : Int) : Datetime :=
  let n := t.toNat
  let micros := n % microsPerDay
  ⟨Date.ofOrdinal (n / microsPerDay + 1), micros / 3600000000, micros / 60000000 % 60,
    micros / 1000000 % 60, micros % 1000000⟩

def InRange (t : Int) : Prop := 0 ≤ t ∧ t < (maxOrdinal * microsPerDay : Nat)

instance (t : Int) : Decidable (InRange t) := inferInstanceAs (Decidable (_ ∧ _))

structure Datetime.Valid (dt : Datetime) : Prop where
  date : dt.date.Valid
  year : dt.date.year ≤ 9999
  hour : dt.hour < 24
  minute : dt.minute < 60
  second : dt.second < 60
  microsecond : dt.microsecond < 1000000

theorem instant_ofInstant {t : Int} (h : 0 ≤ t) : (Datetime.ofInstant t).instant = t := by
  obtain ⟨n, rfl⟩ := Int.eq_ofNat_of_zero_le h
  have hOrdinal := (ordinal_ofOrdinal (n := n / microsPerDay + 1) (Nat.le_add_left 1 _)).1
  rw [Datetime.instant, Datetime.ofInstant]
  dsimp only [Int.toNat_natCast]
  rw [hOrdinal]
  unfold microsPerDay
  omega

theorem year_ofOrdinal {n : Nat} (h : n ≤ maxOrdinal) (hn : 1 ≤ n) :
    (Date.ofOrdinal n).year ≤ 9999 := by
  obtain ⟨hOrdinal, hValid⟩ := ordinal_ofOrdinal hn
  by_contra hLate
  have hDays : maxOrdinal ≤ daysBeforeYear (Date.ofOrdinal n).year := by
    generalize (Date.ofOrdinal n).year = year at hLate
    simp only [daysBeforeYear, maxOrdinal]
    omega
  have hDay := hValid.day.1
  rw [Date.ordinal] at hOrdinal
  omega

theorem valid_ofInstant {t : Int} (h : InRange t) : (Datetime.ofInstant t).Valid := by
  obtain ⟨h0, h1⟩ := h
  have hOrdinal : t.toNat / microsPerDay + 1 ≤ maxOrdinal := by
    apply Nat.div_lt_of_lt_mul
    rw [Nat.mul_comm]
    omega
  have hFirst : 1 ≤ t.toNat / microsPerDay + 1 := Nat.le_add_left 1 _
  constructor
  · exact (ordinal_ofOrdinal hFirst).2
  · exact year_ofOrdinal hOrdinal hFirst
  all_goals
    unfold Datetime.ofInstant microsPerDay
    dsimp only
    omega

instance (date : Date) : Decidable date.Valid :=
  decidable_of_iff (1 ≤ date.year ∧ (1 ≤ date.month ∧ date.month ≤ 12) ∧
      1 ≤ date.day ∧ date.day ≤ daysInMonth (isLeap date.year) date.month)
    ⟨fun ⟨hYear, hMonth, hDay⟩ => ⟨hYear, hMonth, hDay⟩, fun h => ⟨h.year, h.month, h.day⟩⟩

instance (dt : Datetime) : Decidable dt.Valid :=
  decidable_of_iff (dt.date.Valid ∧ dt.date.year ≤ 9999 ∧ dt.hour < 24 ∧ dt.minute < 60 ∧
      dt.second < 60 ∧ dt.microsecond < 1000000)
    ⟨fun ⟨hDate, hYear, hHour, hMinute, hSecond, hMicro⟩ =>
        ⟨hDate, hYear, hHour, hMinute, hSecond, hMicro⟩,
      fun h => ⟨h.date, h.year, h.hour, h.minute, h.second, h.microsecond⟩⟩

/-! ## Printing and reading -/

/-- The last `width` decimal digits of a number. -/
def digits : Nat → Nat → Text
  | 0, _ => []
  | width + 1, n => (n / 10 ^ width % 10).digitChar :: digits width n

/-- Exactly `width` digits, after `value`. -/
def readDigits : Nat → Nat → Text → Option (Nat × Text)
  | 0, value, text => some (value, text)
  | width + 1, value, c :: text =>
    if c.isDigit then readDigits width (10 * value + (c.toNat - 48)) text else none
  | _ + 1, _, [] => none

def readMark (mark : Char) : Text → Option Text
  | c :: text => if c = mark then some text else none
  | [] => none

def utc : Text := "+00:00".toList

def fraction (microsecond : Nat) : Text :=
  if microsecond = 0 then [] else '.' :: digits 6 microsecond

def readFraction : Text → Option (Nat × Text)
  | '.' :: text => readDigits 6 0 text
  | text => some (0, text)

def Date.isoformat (date : Date) : Text :=
  digits 4 date.year ++ '-' :: (digits 2 date.month ++ '-' :: digits 2 date.day)

/-- `isoformat` of a time in UTC. -/
def Datetime.isoformat (dt : Datetime) : Text :=
  dt.date.isoformat ++ 'T' :: (digits 2 dt.hour ++ ':' :: (digits 2 dt.minute ++
    ':' :: (digits 2 dt.second ++ (fraction dt.microsecond ++ utc))))

def Date.read (text : Text) : Option (Date × Text) := do
  let (year, text) ← readDigits 4 0 text
  let (month, text) ← readDigits 2 0 (← readMark '-' text)
  let (day, text) ← readDigits 2 0 (← readMark '-' text)
  return (⟨year, month, day⟩, text)

/-- `fromisoformat`, of the one form that `isoformat` prints in UTC. -/
def Datetime.fromisoformat (text : Text) : Option Datetime := do
  let (date, text) ← Date.read text
  let (hour, text) ← readDigits 2 0 (← readMark 'T' text)
  let (minute, text) ← readDigits 2 0 (← readMark ':' text)
  let (second, text) ← readDigits 2 0 (← readMark ':' text)
  let (microsecond, text) ← readFraction text
  let dt : Datetime := ⟨date, hour, minute, second, microsecond⟩
  if text = utc ∧ dt.Valid then some dt else none

theorem readDigits_digits (width value n : Nat) (rest : Text) :
    readDigits width value (digits width n ++ rest) =
      some (value * 10 ^ width + n % 10 ^ width, rest) := by
  have hDigit : ∀ d < 10, d.digitChar.isDigit = true ∧ d.digitChar.toNat - 48 = d := by decide
  induction width generalizing value with
  | zero => simp [readDigits, digits, Nat.mod_one]
  | succ width ih =>
    obtain ⟨hIsDigit, hValue⟩ := hDigit (n / 10 ^ width % 10) (Nat.mod_lt _ (by decide))
    rw [digits, List.cons_append, readDigits, if_pos hIsDigit, hValue, ih, Nat.mod_pow_succ]
    congr 2
    ring

theorem readDigits_of_lt {width n : Nat} (h : n < 10 ^ width) (rest : Text) :
    readDigits width 0 (digits width n ++ rest) = some (n, rest) := by
  rw [readDigits_digits, Nat.mod_eq_of_lt h, Nat.zero_mul, Nat.zero_add]

theorem readMark_cons (mark : Char) (text : Text) : readMark mark (mark :: text) = some text :=
  if_pos rfl

theorem readFraction_fraction {microsecond : Nat} (h : microsecond < 1000000) :
    readFraction (fraction microsecond ++ utc) = some (microsecond, utc) := by
  rw [fraction]
  split
  · rename_i hZero
    rw [hZero]
    rfl
  · exact readDigits_of_lt h utc

theorem Date.Valid.day_lt {date : Date} (h : date.Valid) : date.day < 100 := by
  have hDay := h.day.2
  unfold daysInMonth at hDay
  split at hDay
  · split at hDay <;> omega
  · split at hDay <;> omega

theorem Date.read_isoformat {date : Date} (h : date.Valid) (hYear : date.year ≤ 9999)
    (rest : Text) : Date.read (date.isoformat ++ rest) = some (date, rest) := by
  have hMonth : date.month < 10 ^ 2 := by
    have := h.month.2
    omega
  have hDay : date.day < 10 ^ 2 := h.day_lt
  have hYear' : date.year < 10 ^ 4 := by omega
  simp only [Date.read, Date.isoformat, List.append_assoc, List.cons_append]
  simp [readDigits_of_lt hYear', readDigits_of_lt hMonth, readDigits_of_lt hDay, readMark_cons]

/-- A printed time is read back. -/
theorem fromisoformat_isoformat {dt : Datetime} (h : dt.Valid) :
    Datetime.fromisoformat dt.isoformat = some dt := by
  have hHour : dt.hour < 10 ^ 2 := by
    have := h.hour
    omega
  have hMinute : dt.minute < 10 ^ 2 := by
    have := h.minute
    omega
  have hSecond : dt.second < 10 ^ 2 := by
    have := h.second
    omega
  simp only [Datetime.fromisoformat, Datetime.isoformat]
  simp [Date.read_isoformat h.date h.year, readDigits_of_lt hHour, readDigits_of_lt hMinute,
    readDigits_of_lt hSecond, readMark_cons, readFraction_fraction h.microsecond, h]

def print (t : Int) : Text := (Datetime.ofInstant t).isoformat

def read (text : Text) : Option Int := (Datetime.fromisoformat text).map Datetime.instant

theorem read_print {t : Int} (h : InRange t) : read (print t) = some t := by
  rw [read, print, fromisoformat_isoformat (valid_ofInstant h), Option.map_some,
    instant_ofInstant h.1]

theorem print_ne_nil (t : Int) : print t ≠ [] := by
  simp [print, Datetime.isoformat, Date.isoformat, digits]

end Calendar
