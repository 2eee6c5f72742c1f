/-
# Timestamps and their texts

A `datetime` with an optional offset, `datetime.isoformat` and `datetime.fromisoformat`: the three
kinds of ISO 8601 dates, times with a fraction of the second, and offsets. What is written is read
back.
-/
import Mathlib.Data.Nat.Digits.Defs
import Mathlib.Tactic.Ring

namespace RepoMesh

/-- A leap year. -/
def isLeap (year : ℕ) : Bool := year % 4 == 0 && (year % 100 != 0 || year % 400 == 0)

/-- The days of a month. -/
def daysInMonth (year month : ℕ) : ℕ :=
  if month = 2 then if isLeap year then 29 else 28
  else if month = 4 ∨ month = 6 ∨ month = 9 ∨ month = 11 then 30 else 31

/-- The microseconds of a day. -/
def dayMicroseconds : ℤ := 86400000000

/-- The fields of a `datetime`; the offset is in microseconds, and there is none where there is no
timezone. -/
structure Moment where
  year : ℕ
  month : ℕ
  day : ℕ
  hour : ℕ
  minute : ℕ
  second : ℕ
  microsecond : ℕ
  offset : Option ℤ
  deriving DecidableEq

/-- The checks of the constructors of `datetime` and `timezone`. -/
def Moment.isValid (m : Moment) : Bool :=
  1 ≤ m.year && m.year ≤ 9999 && 1 ≤ m.month && m.month ≤ 12 && 1 ≤ m.day &&
    m.day ≤ daysInMonth m.year m.month && m.hour ≤ 23 && m.minute ≤ 59 && m.second ≤ 59 &&
    m.microsecond ≤ 999999 && m.offset.all fun o => -dayMicroseconds < o && o < dayMicroseconds

/-- A `datetime`. -/
structure DateTime where
  moment : Moment
  valid : moment.isValid = true
  deriving DecidableEq

namespace IsoTime

/-! ## Writing -/

/-- A number in `width` decimal digits. -/
def padded : ℕ → ℕ → List Char
  | 0, _ => []
  | width + 1, n => padded width (n / 10) ++ [Nat.digitChar (n % 10)]

/-- The fraction of a second, where there is one. -/
def fractionText (microsecond : ℕ) : List Char :=
  if microsecond = 0 then [] else '.' :: padded 6 microsecond

/-- The offset in hours, minutes, seconds and microseconds. -/
def offsetParts (offset : ℤ) : ℕ × ℕ × ℕ × ℕ :=
  let all := offset.natAbs
  (all / 3600000000, all / 60000000 % 60, all / 1000000 % 60, all % 1000000)

/-- `_format_offset`. -/
def offsetText : Option ℤ → List Char
  | none => []
  | some offset =>
    let (hour, minute, second, microsecond) := offsetParts offset
    (if offset < 0 then '-' else '+') :: (padded 2 hour ++ ':' :: padded 2 minute ++
      if second = 0 ∧ microsecond = 0 then [] else ':' :: (padded 2 second ++ fractionText microsecond))

/-- The time of a day. -/
def clockText (hour minute second microsecond : ℕ) : List Char :=
  padded 2 hour ++ ':' :: padded 2 minute ++ ':' :: padded 2 second ++ fractionText microsecond

/-- `datetime.isoformat`. -/
def isoformat (d : DateTime) : List Char :=
  let m := d.moment
  padded 4 m.year ++ '-' :: padded 2 m.month ++ '-' :: padded 2 m.day ++
    'T' :: (clockText m.hour m.minute m.second m.microsecond ++ offsetText m.offset)

/-! ## Reading -/

/-- A number of as many digits, after those read. -/
def readDigits : ℕ → ℕ → List Char → Option (ℕ × List Char)
  | 0, n, cs => some (n, cs)
  | _ + 1, _, [] => none
  | width + 1, n, c :: cs =>
    if c.isDigit then readDigits width (n * 10 + (c.toNat - 48)) cs else none

/-- `_find_isoformat_datetime_separator`. -/
def separatorAt (cs : List Char) : Option ℕ :=
  if cs.length = 7 then some 7
  else if cs[4]? = some '-' then
    if cs[5]? = some 'W' then
      if cs[8]? = some '-' then
        if cs.length = 9 then none
        else if (cs[10]?.map Char.isDigit).getD false then some 8 else some 10
      else some 8
    else some 10
  else if cs[4]? = some 'W' then
    let digits := 7 + ((cs.drop 7).takeWhile Char.isDigit).length
    if digits < 9 then some digits else if digits % 2 = 0 then some 7 else some 8
  else some 8

/-- The days before a year. -/
def daysBeforeYear (year : ℕ) : ℕ :=
  (year - 1) * 365 + (year - 1) / 4 - (year - 1) / 100 + (year - 1) / 400

/-- The month and the day of a day of a year, counted from zero. -/
def monthAndDay (year : ℕ) : ℕ → ℕ → ℕ → ℕ × ℕ
  | 0, month, day => (month, day + 1)
  | n + 1, month, day =>
    if day < daysInMonth year month then (month, day + 1)
    else monthAndDay year n (month + 1) (day - daysInMonth year month)

/-- The Monday of the first week of a year, counted from the first day of the first one. -/
def firstMonday (year : ℕ) : ℕ :=
  let weekday := daysBeforeYear year % 7
  if weekday ≤ 3 then daysBeforeYear year - weekday else daysBeforeYear year + 7 - weekday

/-- `_isoweek_to_gregorian`. -/
def dateOfWeek (year week day : ℕ) : Option (ℕ × ℕ × ℕ) :=
  let weekday := (daysBeforeYear year + 1) % 7
  if year < 1 ∨ 9999 < year ∨ week < 1 ∨ 53 < week ∨ day < 1 ∨ 7 < day then none
  else if week = 53 ∧ weekday ≠ 4 ∧ ¬ (weekday = 3 ∧ isLeap year = true) then none
  else
    let there := firstMonday year + (week - 1) * 7 + (day - 1)
    let inYear := if there < daysBeforeYear year then year - 1
      else if there < daysBeforeYear (year + 1) then year else year + 1
    let (month, day) := monthAndDay inYear 12 1 (there - daysBeforeYear inYear)
    some (inYear, month, day)

/-- What comes after a dash, where there has to be one. -/
def afterDash (dashed : Bool) (cs : List Char) : Option (List Char) :=
  if (cs.head? == some '-') = dashed then some (if dashed then cs.tail else cs) else none

/-- `_parse_isoformat_date`. -/
def readDate (cs : List Char) : Option (ℕ × ℕ × ℕ) :=
  (readDigits 4 0 cs).bind fun (year, cs) =>
    let dashed := cs.head? == some '-'
    let cs := if dashed then cs.tail else cs
    if cs.head? = some 'W' then
      (readDigits 2 0 cs.tail).bind fun (week, cs) =>
        if cs = [] then dateOfWeek year week 1
        else (afterDash dashed cs).bind fun cs =>
          (readDigits 1 0 cs).bind fun (day, _) => dateOfWeek year week day
    else
      (readDigits 2 0 cs).bind fun (month, cs) =>
        (afterDash dashed cs).bind fun cs =>
          (readDigits 2 0 cs).map fun (day, _) => (year, month, day)

/-- The fraction of a second in microseconds; digits after the sixth are dropped. -/
def readFraction (cs : List Char) : Option ℕ :=
  if cs = [] then none
  else
    let width := min 6 cs.length
    (readDigits width 0 cs).bind fun (n, rest) =>
      if rest.all Char.isDigit then some (n * 10 ^ (6 - width)) else none

/-- `_parse_hh_mm_ss_ff`. -/
def readClock (cs : List Char) : Option (ℕ × ℕ × ℕ × ℕ) :=
  (readDigits 2 0 cs).bind fun (hour, cs) =>
    if cs = [] then some (hour, 0, 0, 0)
    else
      let colons := cs.head? == some ':'
      (readDigits 2 0 (if colons then cs.tail else cs)).bind fun (minute, cs) =>
        if cs = [] then some (hour, minute, 0, 0)
        else if colons = true ∧ cs.head? ≠ some ':' then none
        else
          (readDigits 2 0 (if colons then cs.tail else cs)).bind fun (second, cs) =>
            match cs with
            | [] => some (hour, minute, second, 0)
            | c :: cs =>
              if c = '.' ∨ c = ',' then
                (readFraction cs).map fun microsecond => (hour, minute, second, microsecond)
              else none

/-- What begins an offset. -/
def startsOffset (c : Char) : Bool := c == '+' || c == '-' || c == 'Z'

/-- The offset of a time; `some none` where there is none. -/
def readOffset : List Char → Option (Option ℤ)
  | [] => some none
  | 'Z' :: cs => if cs = [] then some (some 0) else none
  | sign :: cs =>
    (readClock cs).map fun (hour, minute, second, microsecond) =>
      let all : ℤ := hour * 3600000000 + minute * 60000000 + second * 1000000 + microsecond
      some (if sign = '-' then -all else all)

/-- `datetime(...)`. -/
def datetime (m : Moment) : Option DateTime :=
  if h : m.isValid = true then some ⟨m, h⟩ else none

/-- `datetime.fromisoformat`. -/
def fromisoformat (cs : List Char) : Option DateTime :=
  if cs.length < 7 then none
  else
    (separatorAt cs).bind fun separator =>
      (readDate (cs.take separator)).bind fun (year, month, day) =>
        let time := cs.drop (separator + 1)
        if time = [] then datetime ⟨year, month, day, 0, 0, 0, 0, none⟩
        else
          (readClock (time.takeWhile fun c => !startsOffset c)).bind
            fun (hour, minute, second, microsecond) =>
              (readOffset (time.dropWhile fun c => !startsOffset c)).bind fun offset =>
                datetime ⟨year, month, day, hour, minute, second, microsecond, offset⟩

/-! ## Digits -/

theorem digitChar_facts : ∀ n < 10, (Nat.digitChar n).isDigit = true ∧
    (Nat.digitChar n).toNat - 48 = n ∧ startsOffset (Nat.digitChar n) = false := by
  decide

theorem length_padded (width n : ℕ) : (padded width n).length = width := by
  induction width generalizing n with
  | zero => rfl
  | succ width ih => rw [padded, List.length_append, ih, List.length_singleton]

theorem mem_padded {width n : ℕ} {c : Char} (h : c ∈ padded width n) :
    ∃ d < 10, c = Nat.digitChar d := by
  induction width generalizing n with
  | zero => cases h
  | succ width ih =>
    rw [padded, List.mem_append, List.mem_singleton] at h
    rcases h with h | rfl
    · exact ih h
    · exact ⟨n % 10, Nat.mod_lt n (by omega), rfl⟩

theorem readDigits_succ (width n : ℕ) (cs : List Char) :
    readDigits (width + 1) n cs =
      (readDigits width n cs).bind fun (m, rest) => readDigits 1 m rest := by
  induction width generalizing n cs with
  | zero => rfl
  | succ width ih =>
    cases cs with
    | nil => rfl
    | cons c cs =>
      rw [readDigits, readDigits]
      split_ifs
      · exact ih _ cs
      · rfl

/-- **Digits are read back.** -/
theorem readDigits_padded (width m n : ℕ) (rest : List Char) :
    readDigits width m (padded width n ++ rest) =
      some (m * 10 ^ width + n % 10 ^ width, rest) := by
  induction width generalizing n rest with
  | zero => simp [readDigits, padded, Nat.mod_one]
  | succ width ih =>
    obtain ⟨hdigit, hvalue, -⟩ := digitChar_facts (n % 10) (Nat.mod_lt n (by omega))
    have hone : ∀ v, readDigits 1 v (Nat.digitChar (n % 10) :: rest) =
        some (v * 10 + n % 10, rest) := by
      intro v
      rw [readDigits, if_pos hdigit, hvalue, readDigits]
    have hsplit : n % 10 ^ (width + 1) = n % 10 + 10 * (n / 10 % 10 ^ width) := by
      rw [pow_succ', Nat.mod_mul]
    rw [readDigits_succ, padded, List.append_assoc, List.singleton_append, ih, Option.bind_some]
    dsimp only
    rw [hone, hsplit, pow_succ]
    congr 2
    ring

theorem readDigits_padded_of_lt {width n : ℕ} (h : n < 10 ^ width) (rest : List Char) :
    readDigits width 0 (padded width n ++ rest) = some (n, rest) := by
  rw [readDigits_padded, Nat.mod_eq_of_lt h, Nat.zero_mul, Nat.zero_add]

theorem readDigits_two {n : ℕ} (h : n < 100) (rest : List Char) :
    readDigits 2 0 (padded 2 n ++ rest) = some (n, rest) :=
  readDigits_padded_of_lt h rest

/-! ## What is written is read back -/

theorem readFraction_padded {microsecond : ℕ} (h : microsecond < 1000000) :
    readFraction (padded 6 microsecond) = some microsecond := by
  have hne : padded 6 microsecond ≠ [] := by
    intro hnil
    have hlength := length_padded 6 microsecond
    rw [hnil] at hlength
    cases hlength
  have hread : readDigits 6 0 (padded 6 microsecond ++ []) = some (microsecond, []) :=
    readDigits_padded_of_lt h []
  rw [List.append_nil] at hread
  rw [readFraction, if_neg hne]
  simp only [length_padded, min_self, hread, Option.bind_some]
  simp

theorem readClock_clockText {hour minute second microsecond : ℕ} (hhour : hour < 100)
    (hminute : minute < 100) (hsecond : second < 100) (hmicrosecond : microsecond < 1000000) :
    readClock (clockText hour minute second microsecond) =
      some (hour, minute, second, microsecond) := by
  simp only [clockText, List.append_assoc, List.cons_append]
  rw [readClock, readDigits_two hhour, Option.bind_some]
  simp only [reduceCtorEq, if_false, List.head?_cons, BEq.rfl, if_true, List.tail_cons]
  rw [readDigits_two hminute, Option.bind_some]
  simp only [reduceCtorEq, if_false, List.head?_cons, ne_eq, not_true_eq_false, and_false,
    List.tail_cons]
  rw [readDigits_two hsecond, Option.bind_some, fractionText]
  by_cases hzero : microsecond = 0
  · simp [hzero]
  · simp [hzero, readFraction_padded hmicrosecond]

theorem readClock_short {hour minute : ℕ} (hhour : hour < 100) (hminute : minute < 100) :
    readClock (padded 2 hour ++ ':' :: padded 2 minute) = some (hour, minute, 0, 0) := by
  have hread := readDigits_two hminute []
  rw [List.append_nil] at hread
  rw [readClock, readDigits_two hhour, Option.bind_some]
  simp only [reduceCtorEq, if_false, List.head?_cons, BEq.rfl, if_true, List.tail_cons]
  rw [hread, Option.bind_some, if_pos rfl]

/-- **Offsets are read back.** -/
theorem readOffset_offsetText {offset : Option ℤ}
    (h : ∀ o ∈ offset, -dayMicroseconds < o ∧ o < dayMicroseconds) :
    readOffset (offsetText offset) = some offset := by
  cases offset with
  | none => rfl
  | some offset =>
    obtain ⟨hlow, hhigh⟩ := h offset rfl
    rw [dayMicroseconds] at hlow hhigh
    set all := offset.natAbs with hall
    have hhour : all / 3600000000 < 100 := by omega
    have hminute : all / 60000000 % 60 < 100 := by omega
    have hsecond : all / 1000000 % 60 < 100 := by omega
    have hmicrosecond : all % 1000000 < 1000000 := by omega
    have hclock : readClock (padded 2 (all / 3600000000) ++ ':' :: padded 2 (all / 60000000 % 60) ++
        if all / 1000000 % 60 = 0 ∧ all % 1000000 = 0 then []
        else ':' :: (padded 2 (all / 1000000 % 60) ++ fractionText (all % 1000000))) =
          some (all / 3600000000, all / 60000000 % 60, all / 1000000 % 60, all % 1000000) := by
      split_ifs with hshort
      · rw [List.append_nil, readClock_short hhour hminute, hshort.1, hshort.2]
      · have hlong := readClock_clockText hhour hminute hsecond hmicrosecond
        rw [clockText] at hlong
        simpa only [List.append_assoc, List.cons_append] using hlong
    have hsum : all / 3600000000 * 3600000000 + all / 60000000 % 60 * 60000000 +
        all / 1000000 % 60 * 1000000 + all % 1000000 = all := by omega
    simp only [offsetText, offsetParts, ← hall]
    by_cases hsign : offset < 0
    · rw [if_pos hsign, readOffset, hclock]
      · simp only [Option.map_some, if_true, Option.some.injEq]
        omega
      · simp
    · rw [if_neg hsign, readOffset, hclock]
      · simp only [Option.map_some, Option.some.injEq]
        rw [if_neg (by decide)]
        omega
      · simp

theorem startsOffset_clockText {hour minute second microsecond : ℕ} {c : Char}
    (h : c ∈ clockText hour minute second microsecond) : startsOffset c = false := by
  have hdigit : ∀ {width n}, c ∈ padded width n → startsOffset c = false := by
    intro width n hc
    obtain ⟨d, hd, rfl⟩ := mem_padded hc
    exact (digitChar_facts d hd).2.2
  have hcases : c = ':' ∨ c = '.' ∨ ∃ width n, c ∈ padded width n := by
    simp only [clockText, List.mem_append, List.mem_cons] at h
    rcases h with ((h | rfl | h) | rfl | h) | h
    · exact .inr (.inr ⟨_, _, h⟩)
    · exact .inl rfl
    · exact .inr (.inr ⟨_, _, h⟩)
    · exact .inl rfl
    · exact .inr (.inr ⟨_, _, h⟩)
    · rw [fractionText] at h
      split_ifs at h
      · cases h
      · rcases List.mem_cons.mp h with rfl | h
        · exact .inr (.inl rfl)
        · exact .inr (.inr ⟨_, _, h⟩)
  rcases hcases with rfl | rfl | ⟨width, n, hc⟩
  · rfl
  · rfl
  · exact hdigit hc

theorem offsetText_cases (offset : Option ℤ) :
    offsetText offset = [] ∨ ∃ sign cs, offsetText offset = sign :: cs ∧ startsOffset sign = true := by
  cases offset with
  | none => exact .inl rfl
  | some offset =>
    refine .inr ⟨_, _, rfl, ?_⟩
    split_ifs <;> rfl

theorem split_time {hour minute second microsecond : ℕ} (offset : Option ℤ) :
    ((clockText hour minute second microsecond ++ offsetText offset).takeWhile
        fun c => !startsOffset c) = clockText hour minute second microsecond ∧
      ((clockText hour minute second microsecond ++ offsetText offset).dropWhile
        fun c => !startsOffset c) = offsetText offset := by
  have hclock : ∀ c ∈ clockText hour minute second microsecond, (!startsOffset c) = true := by
    intro c hc
    rw [startsOffset_clockText hc]
    rfl
  rw [List.takeWhile_append_of_pos hclock, List.dropWhile_append_of_pos hclock]
  rcases offsetText_cases offset with h | ⟨sign, cs, h, hsign⟩
  · simp [h]
  · simp [h, hsign]

/-! ## Whole timestamps -/

/-- The date of a timestamp. -/
def dateText (year month day : ℕ) : List Char :=
  padded 4 year ++ '-' :: padded 2 month ++ '-' :: padded 2 day

theorem length_dateText (year month day : ℕ) : (dateText year month day).length = 10 := by
  simp [dateText, length_padded]

theorem readDate_dateText {year month day : ℕ} (hyear : year < 10000) (hmonth : month < 100)
    (hday : day < 100) : readDate (dateText year month day) = some (year, month, day) := by
  have hlast := readDigits_two hday []
  rw [List.append_nil] at hlast
  have hfour : readDigits 4 0 (padded 4 year ++ '-' :: (padded 2 month ++ '-' :: padded 2 day)) =
      some (year, '-' :: (padded 2 month ++ '-' :: padded 2 day)) :=
    readDigits_padded_of_lt hyear _
  have hmonthHead : (padded 2 month ++ '-' :: padded 2 day).head? ≠ some 'W' := by
    simp [padded]
  simp only [dateText, List.append_assoc, List.cons_append]
  rw [readDate, hfour, Option.bind_some]
  simp only [List.head?_cons, BEq.rfl, if_true, List.tail_cons, hmonthHead, if_false]
  rw [readDigits_two hmonth, Option.bind_some, afterDash]
  simp [hlast]

theorem separatorAt_isoformat (year month day : ℕ) (time : List Char) :
    separatorAt (dateText year month day ++ 'T' :: time) = some 10 := by
  have hlength : (dateText year month day ++ 'T' :: time).length ≠ 7 := by
    rw [List.length_append, length_dateText]
    omega
  have hdash : (dateText year month day ++ 'T' :: time)[4]? = some '-' := by
    simp [dateText, padded]
  have hweek : (dateText year month day ++ 'T' :: time)[5]? ≠ some 'W' := by
    simp [dateText, padded]
  rw [separatorAt, if_neg hlength, if_pos hdash, if_neg hweek]

theorem bounds_of_isValid {m : Moment} (h : m.isValid = true) :
    m.year < 10000 ∧ m.month < 100 ∧ m.day < 100 ∧ m.hour < 100 ∧ m.minute < 100 ∧ m.second < 100 ∧
      m.microsecond < 1000000 ∧ ∀ o ∈ m.offset, -dayMicroseconds < o ∧ o < dayMicroseconds := by
  simp only [Moment.isValid, Bool.and_eq_true, decide_eq_true_eq, Option.all_eq_true] at h
  obtain ⟨⟨⟨⟨⟨⟨⟨⟨⟨⟨-, hyear⟩, -⟩, hmonth⟩, -⟩, hday⟩, hhour⟩, hminute⟩, hsecond⟩, hmicro⟩, hoffset⟩ := h
  have hdays : daysInMonth m.year m.month ≤ 31 := by
    rw [daysInMonth]
    split_ifs <;> omega
  refine ⟨by omega, by omega, by omega, by omega, by omega, by omega, by omega, hoffset⟩

theorem datetime_moment (d : DateTime) : datetime d.moment = some d := by
  rw [datetime, dif_pos d.valid]

/-- **Timestamps are read back.** -/
theorem fromisoformat_isoformat (d : DateTime) : fromisoformat (isoformat d) = some d := by
  obtain ⟨hyear, hmonth, hday, hhour, hminute, hsecond, hmicro, hoffset⟩ := bounds_of_isValid d.valid
  set m := d.moment with hm
  set time := clockText m.hour m.minute m.second m.microsecond ++ offsetText m.offset with htime
  have hiso : isoformat d = dateText m.year m.month m.day ++ 'T' :: time := by
    simp only [isoformat, dateText, ← hm, htime, List.append_assoc, List.cons_append]
  have hlength : ¬ (isoformat d).length < 7 := by
    rw [hiso, List.length_append, length_dateText]
    omega
  have htake : (isoformat d).take 10 = dateText m.year m.month m.day := by
    rw [hiso, ← length_dateText m.year m.month m.day, List.take_left]
  have hdrop : (isoformat d).drop (10 + 1) = time := by
    rw [← List.drop_drop, hiso, ← length_dateText m.year m.month m.day, List.drop_left]
    rfl
  have hne : time ≠ [] := by
    simp [htime, clockText, padded]
  have hsplit := @split_time m.hour m.minute m.second m.microsecond m.offset
  rw [← htime] at hsplit
  have hseparator : separatorAt (isoformat d) = some 10 := by
    rw [hiso, separatorAt_isoformat]
  rw [fromisoformat, if_neg hlength, hseparator, Option.bind_some, htake,
    readDate_dateText hyear hmonth hday, Option.bind_some]
  simp only [hdrop, hne, if_false, hsplit.1, hsplit.2]
  rw [readClock_clockText hhour hminute hsecond hmicro, Option.bind_some,
    readOffset_offsetText hoffset, Option.bind_some]
  exact datetime_moment d

end IsoTime
end RepoMesh
