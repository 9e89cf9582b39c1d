import AdminPlatform.Lib.Digits
import Mathlib.Order.Defs.LinearOrder
import Mathlib.Order.Basic

/-! # Naive date-times

A `Datetime` is a calendar date with a time of day to the microsecond and no time zone, as
the `datetime` library has it. Its components are within their ranges by construction.

`ordinal` places it on a line, `str` is its text (`2024-05-01 12:30:00.000250`; a whole
second is written without the fraction), and `str_inj` says the text determines it. -/

namespace AdminPlatform.Lib

structure Datetime where
  year : Nat
  month : Nat
  day : Nat
  hour : Nat
  minute : Nat
  second : Nat
  microsecond : Nat
  year_le : year ≤ 9999
  month_le : month ≤ 12
  day_le : day ≤ 31
  hour_lt : hour < 24
  minute_lt : minute < 60
  second_lt : second < 60
  microsecond_lt : microsecond < 1000000
  deriving DecidableEq, Repr

namespace Datetime

/-! ## The order -/

/-- The position of a date-time on the time line (mixed radix, not contiguous in days). -/
def ordinal (t : Datetime) : Nat :=
  (((((t.year * 13 + t.month) * 32 + t.day) * 24 + t.hour) * 60 + t.minute) * 60 + t.second) *
    1000000 + t.microsecond

theorem ordinal_injective : Function.Injective ordinal := by
  rintro ⟨y, mo, d, h, mi, s, us, _, hmo, hd, hh, hmi, hs, hus⟩
    ⟨y', mo', d', h', mi', s', us', _, hmo', hd', hh', hmi', hs', hus'⟩ heq
  simp only [ordinal] at heq
  obtain ⟨rfl, rfl⟩ : us = us' ∧ s = s' := by omega
  obtain ⟨rfl, rfl⟩ : mi = mi' ∧ h = h' := by omega
  obtain ⟨rfl, rfl⟩ : d = d' ∧ mo = mo' := by omega
  obtain rfl : y = y' := by omega
  rfl

instance : LinearOrder Datetime := LinearOrder.lift' ordinal ordinal_injective

/-- `datetime.combine(date, time.min)`. -/
def startOfDay (t : Datetime) : Datetime :=
  { t with
    hour := 0, minute := 0, second := 0, microsecond := 0
    hour_lt := by decide, minute_lt := by decide, second_lt := by decide
    microsecond_lt := by decide }

/-- `datetime.combine(date, time.max)`. -/
def endOfDay (t : Datetime) : Datetime :=
  { t with
    hour := 23, minute := 59, second := 59, microsecond := 999999
    hour_lt := by decide, minute_lt := by decide, second_lt := by decide
    microsecond_lt := by decide }

/-! ## The text -/

/-- The fraction of a second, left out when it is zero. -/
def fraction (us : Nat) : List Char :=
  if us = 0 then [] else '.' :: fixedDigits 10 6 us

/-- `str` of a naive date-time. -/
def str (t : Datetime) : List Char :=
  fixedDigits 10 4 t.year ++ ('-' :: (fixedDigits 10 2 t.month ++ ('-' ::
    (fixedDigits 10 2 t.day ++ (' ' :: (fixedDigits 10 2 t.hour ++ (':' ::
      (fixedDigits 10 2 t.minute ++ (':' :: (fixedDigits 10 2 t.second ++
        fraction t.microsecond))))))))))

/-- `isoformat` of a naive date-time. -/
def isoformat (t : Datetime) : String :=
  String.ofList (t.str.map (fun c => if c = ' ' then 'T' else c))

/-- `strftime("%Y%m%d_%H%M%S")`. -/
def stamp (t : Datetime) : List Char :=
  fixedDigits 10 4 t.year ++ fixedDigits 10 2 t.month ++ fixedDigits 10 2 t.day ++ ('_' ::
    (fixedDigits 10 2 t.hour ++ fixedDigits 10 2 t.minute ++ fixedDigits 10 2 t.second))

theorem fraction_inj {a b : Nat} (ha : a < 1000000) (hb : b < 1000000)
    (h : fraction a = fraction b) : a = b := by
  unfold fraction at h
  split at h <;> split at h
  · omega
  · cases h
  · cases h
  · exact fixedDigits_inj (by norm_num) (by norm_num) ha hb (List.cons.inj h).2

/-- **A date-time is determined by its text.** -/
theorem str_inj {t u : Datetime} (h : t.str = u.str) : t = u := by
  obtain ⟨y, mo, d, hr, mi, s, us, hy, hmo, hd, hhr, hmi, hs, hus⟩ := t
  obtain ⟨y', mo', d', hr', mi', s', us', hy', hmo', hd', hhr', hmi', hs', hus'⟩ := u
  have field : ∀ {w n m : Nat} {c : Char} {r r' : List Char}, n < 10 ^ w → m < 10 ^ w →
      fixedDigits 10 w n ++ c :: r = fixedDigits 10 w m ++ c :: r' → n = m ∧ r = r' := by
    intro w n m c r r' hn hm heq
    obtain ⟨hnm, hrest⟩ := fixedDigits_append_inj (by norm_num) (by norm_num) hn hm heq
    exact ⟨hnm, (List.cons.inj hrest).2⟩
  simp only [str] at h
  obtain ⟨eyear, h⟩ := field (by omega) (by omega) h
  obtain ⟨emonth, h⟩ := field (by omega) (by omega) h
  obtain ⟨eday, h⟩ := field (by omega) (by omega) h
  obtain ⟨ehour, h⟩ := field (by omega) (by omega) h
  obtain ⟨eminute, h⟩ := field (by omega) (by omega) h
  obtain ⟨esecond, h⟩ :=
    fixedDigits_append_inj (by norm_num) (by norm_num) (by omega) (by omega) h
  have emicro := fraction_inj hus hus' h
  subst eyear emonth eday ehour eminute esecond emicro
  rfl

end Datetime
end AdminPlatform.Lib
