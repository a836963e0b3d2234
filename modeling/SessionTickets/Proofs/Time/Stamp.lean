import SessionTickets.Time.Stamp

namespace SessionTickets

namespace Text

open Decimal

private theorem isDigit_digit (d : Nat) : (digit d).isDigit := by
  have h := toNat_digit d
  simp only [Char.isDigit, Bool.and_eq_true, decide_eq_true_eq, UInt32.le_iff_toNat_le]
  change 48 ≤ (digit d).toNat ∧ (digit d).toNat ≤ 57
  omega

/-- A number in a width is written in digits. -/
theorem isDigit_of_mem_fixed (width n : Nat) {c : Char} (h : c ∈ fixed width n) : c.isDigit := by
  induction width generalizing n with
  | zero => cases h
  | succ width ih =>
    rw [fixed, List.mem_append, List.mem_singleton] at h
    rcases h with h | rfl
    · exact ih _ h
    · exact isDigit_digit n

private theorem isBlank_of_isDigit {c : Char} (h : c.isDigit) : isBlank c = false := by
  simp only [Char.isDigit, Bool.and_eq_true, decide_eq_true_eq, UInt32.le_iff_toNat_le] at h
  change 48 ≤ c.toNat ∧ c.toNat ≤ 57 at h
  simp [isBlank, blankRanges]
  omega

private theorem skipBlanks_cons {c : Char} (h : isBlank c = false) (rest : List Char) :
    skipBlanks (c :: rest) = c :: rest := by
  simp [skipBlanks, h]

/-- A number has digits enough. -/
theorem Decimal.lt_ten_pow_length (n : Nat) : n < Nat.pow 10 (length n) := by
  rw [length]
  split
  · omega
  · have := Decimal.lt_ten_pow_length (n / 10)
    have hpow : Nat.pow 10 (length (n / 10) + 1) = Nat.pow 10 (length (n / 10)) * 10 := rfl
    rw [hpow]
    omega

private theorem Decimal.value_append (ds es : List Char) :
    value (ds ++ es) = value ds * Nat.pow 10 es.length + value es := by
  have hfold : ∀ n, es.foldl (fun n d => 10 * n + (d.toNat - 48)) n = n * Nat.pow 10 es.length + value es := by
    induction es with
    | nil => simp [value]
    | cons d es ih =>
      intro n
      have hvalue : value (d :: es) = (10 * 0 + (d.toNat - 48)) * Nat.pow 10 es.length + value es := ih _
      have hpow : Nat.pow 10 (es.length + 1) = Nat.pow 10 es.length * 10 := rfl
      rw [List.foldl_cons, ih, hvalue, List.length_cons, hpow]
      grind
  rw [value, List.foldl_append, hfold]
  rfl

private theorem Decimal.value_lt {ds : List Char} (h : ∀ c ∈ ds, c.isDigit) : value ds < Nat.pow 10 ds.length := by
  induction ds with
  | nil => decide
  | cons d ds ih =>
    obtain ⟨hd, hds⟩ := List.forall_mem_cons.1 h
    simp only [Char.isDigit, Bool.and_eq_true, decide_eq_true_eq, UInt32.le_iff_toNat_le] at hd
    change 48 ≤ d.toNat ∧ d.toNat ≤ 57 at hd
    have hsplit : value (d :: ds) = (10 * 0 + (d.toNat - 48)) * Nat.pow 10 ds.length + value ds :=
      value_append [d] ds
    have hlead : (10 * 0 + (d.toNat - 48)) * Nat.pow 10 ds.length ≤ 9 * Nat.pow 10 ds.length :=
      Nat.mul_le_mul_right _ (by omega)
    have hpow : Nat.pow 10 (ds.length + 1) = Nat.pow 10 ds.length * 10 := rfl
    have hrest := ih hds
    rw [hsplit, List.length_cons, hpow]
    omega

end Text

namespace Time.Stamp
open Text

/-- A text that does not go on with a digit. -/
def EndsDigits (rest : List Char) : Prop :=
  ∀ c ∈ rest.head?, c.isDigit = false

private theorem EndsDigits.takeWhile {rest : List Char} (h : EndsDigits rest) :
    rest.takeWhile Char.isDigit = [] := by
  cases rest with
  | nil => rfl
  | cons c rest => rw [List.takeWhile_cons, h c rfl, if_neg Bool.false_ne_true]

private theorem EndsDigits.dropWhile {rest : List Char} (h : EndsDigits rest) :
    rest.dropWhile Char.isDigit = rest := by
  cases rest with
  | nil => rfl
  | cons c rest => rw [List.dropWhile_cons, h c rfl, if_neg Bool.false_ne_true]

private theorem number?_append {most : Nat} {ds rest : List Char} (hds : ∀ c ∈ ds, c.isDigit)
    (hne : ds ≠ []) (hmost : ds.length ≤ most) (hrest : EndsDigits rest) :
    number? most (ds ++ rest) = some (Decimal.value ds, rest) := by
  have htake : ((ds ++ rest).takeWhile Char.isDigit).take most = ds := by
    rw [List.takeWhile_append_of_pos hds, hrest.takeWhile, List.append_nil,
      List.take_of_length_le hmost]
  rw [number?, htake]
  cases ds with
  | nil => cases hne rfl
  | cons d ds => simp

/-- A number in a width begins with a digit. -/
theorem fixed_eq_cons (width n : Nat) (hwidth : 0 < width) :
    ∃ d ds, Decimal.fixed width n = d :: ds ∧ d.isDigit := by
  cases hds : Decimal.fixed width n with
  | nil =>
    have hlen := Decimal.length_fixed width n
    rw [hds, List.length_nil] at hlen
    omega
  | cons d ds =>
    exact ⟨d, ds, rfl, isDigit_of_mem_fixed width n (by simp [hds])⟩

private theorem number?_fixed (most width n : Nat) {rest : List Char} (hwidth : 0 < width)
    (hmost : width ≤ most) (hn : n < Nat.pow 10 width) (hrest : EndsDigits rest) :
    number? most (Decimal.fixed width n ++ rest) = some (n, rest) := by
  obtain ⟨d, ds, hds, _⟩ := fixed_eq_cons width n hwidth
  rw [number?_append (fun c => isDigit_of_mem_fixed width n) (by simp [hds]) (by simpa using hmost) hrest,
    Decimal.value_fixed, Nat.mod_eq_of_lt hn]

private theorem skipBlanks_fixed (width n : Nat) (rest : List Char) (hwidth : 0 < width) :
    skipBlanks (Decimal.fixed width n ++ rest) = Decimal.fixed width n ++ rest := by
  obtain ⟨d, ds, hds, hd⟩ := fixed_eq_cons width n hwidth
  rw [hds, List.cons_append, skipBlanks_cons (isBlank_of_isDigit hd)]

private theorem field?_fixed {largest n : Nat} {rest : List Char} (hn : n ≤ largest)
    (hlargest : largest < 100) (hrest : EndsDigits rest) :
    field? largest (Decimal.fixed 2 n ++ rest) = some (n, rest) := by
  rw [field?, skipBlanks_fixed 2 n rest (by decide),
    number?_fixed 2 2 n (by decide) (by decide) (show n < 100 by omega) hrest]
  simp [hn]

private theorem mark?_cons (c : Char) (h : isBlank c = false) (rest : List Char) :
    mark? c (c :: rest) = some rest := by
  simp [mark?, skipBlanks_cons h]

/-- A number is read back from its digits, however many there are. -/
private theorem number?_padded (width n : Nat) {rest : List Char} (hrest : EndsDigits rest) :
    number? (Decimal.padded width n ++ rest).length (Decimal.padded width n ++ rest) =
      some (n, rest) := by
  have hlength : 0 < Decimal.length n := by
    rw [Decimal.length]
    split <;> omega
  have hn : n < Nat.pow 10 (max width (Decimal.length n)) :=
    Nat.lt_of_lt_of_le (Decimal.lt_ten_pow_length n) (Nat.pow_le_pow_right (by decide) (by omega))
  apply number?_fixed _ _ n (by omega) _ hn hrest
  simp [Decimal.padded]

/-- A year is read back from its text, with a sign or without. -/
private theorem year?_yearText (year : Int) {rest : List Char} (hrest : EndsDigits rest) :
    year? (yearText year ++ rest) = some (year, rest) := by
  rw [yearText]
  split
  · next h =>
    obtain ⟨d, ds, hds, hd⟩ := fixed_eq_cons 4 year.toNat (by decide)
    have hnumber := number?_fixed 4 4 year.toNat (by decide) (by decide)
      (show year.toNat < 10000 by omega) hrest
    rw [year?, skipBlanks_fixed 4 year.toNat rest (by decide)]
    -- The text begins with a digit, so it has no sign.
    split
    · next hhead =>
      rw [hds] at hhead
      cases hhead
      cases hd
    · next hhead =>
      rw [hds] at hhead
      cases hhead
      cases hd
    · simp only [hnumber, Option.map_some, Int.toNat_of_nonneg h.1]
  · next h =>
    have hnumber := number?_padded 4 year.natAbs hrest
    by_cases hneg : year < 0
    · rw [if_pos hneg, year?, List.cons_append, skipBlanks_cons (by decide)]
      have hyear : -(year.natAbs : Int) = year := by omega
      simp only [hnumber, Option.map_some, hyear]
    · rw [if_neg hneg, year?, List.cons_append, skipBlanks_cons (by decide)]
      have hyear : (year.natAbs : Int) = year := by omega
      simp only [hnumber, Option.map_some, hyear]

private theorem date?_text (date : Date) (rest : List Char) (hrest : EndsDigits rest) :
    date? (yearText date.year ++ '-' :: (Decimal.fixed 2 date.month ++
      '-' :: (Decimal.fixed 2 date.day ++ rest))) = some (date, rest) := by
  have hdash : ∀ tail, EndsDigits ('-' :: tail) := by simp [EndsDigits]
  have hday : date.day ≤ 31 := by
    have := date.day_mem.2
    simp only [daysInMonth] at this
    split at this <;> (try split at this) <;> omega
  have hdate : Date.ofNumbers? date.year date.month date.day = some date :=
    dif_pos ⟨date.month_mem, date.day_mem⟩
  have hmark := mark?_cons '-' (by decide)
  simp [date?, year?_yearText date.year (hdash _), hmark,
    field?_fixed date.month_mem.2 (by decide) (hdash _), field?_fixed hday (by decide) hrest, hdate]

/-- A text of the fraction of a second. Without a point there is none, else the digits after it are those of
the fraction, however many there are. -/
inductive Fraction (nanos : Nat) : List Char → Prop
  | whole (h : nanos = 0) : Fraction nanos []
  | digits {ds : List Char} (hne : ds ≠ []) (hdigits : ∀ c ∈ ds, c.isDigit)
    (hvalue : Decimal.value ds * Instant.nanosPerSecond = nanos * Nat.pow 10 ds.length) :
    Fraction nanos ('.' :: ds)

private theorem fraction_text {nanos : Nat} (hnanos : nanos < 1000000000) : Fraction nanos (fractionText nanos) := by
  have hfixed : ∀ width n, 0 < width → n < Nat.pow 10 width →
      n * Instant.nanosPerSecond = nanos * Nat.pow 10 width → Fraction nanos ('.' :: Decimal.fixed width n) := by
    intro width n hwidth hn hvalue
    obtain ⟨d, ds, hds, _⟩ := fixed_eq_cons width n hwidth
    refine .digits (by simp [hds]) (fun c => isDigit_of_mem_fixed width n) ?_
    rw [Decimal.value_fixed, Decimal.length_fixed, Nat.mod_eq_of_lt hn, hvalue]
  rw [fractionText]
  split
  · next h => exact .whole h
  split
  · exact hfixed 3 _ (by decide) (show _ < 1000 by omega) (show _ * 1000000000 = _ * 1000 by omega)
  split
  · exact hfixed 6 _ (by decide) (show _ < 1000000 by omega) (show _ * 1000000000 = _ * 1000000 by omega)
  · exact hfixed 9 _ (by decide) hnanos rfl

/-- The digits from the tenth on are zeros, so the first nine tell the nanoseconds. -/
theorem value_take {ds : List Char} {nanos : Nat} (hdigits : ∀ c ∈ ds, c.isDigit)
    (hvalue : Decimal.value ds * Instant.nanosPerSecond = nanos * Nat.pow 10 ds.length) :
    Decimal.value (ds.take 9) * Nat.pow 10 (9 - (ds.take 9).length) = nanos := by
  have hsecond : Instant.nanosPerSecond = Nat.pow 10 9 := rfl
  by_cases hshort : ds.length ≤ 9
  · have hpow : Nat.pow 10 9 = Nat.pow 10 (9 - ds.length) * Nat.pow 10 ds.length := by
      have hsum := Nat.pow_add 10 (9 - ds.length) ds.length
      rwa [Nat.sub_add_cancel hshort] at hsum
    rw [hsecond, hpow, ← Nat.mul_assoc] at hvalue
    rw [List.take_of_length_le hshort]
    exact Nat.mul_right_cancel (Nat.pow_pos (by decide)) hvalue
  · have hlength : (ds.take 9).length = 9 := by
      rw [List.length_take]
      omega
    have hpos : 0 < Nat.pow 10 (ds.drop 9).length := Nat.pow_pos (by decide)
    have hpow : Nat.pow 10 ds.length = Nat.pow 10 (ds.drop 9).length * Nat.pow 10 9 := by
      have hsum := Nat.pow_add 10 (ds.drop 9).length 9
      rwa [List.length_drop, Nat.sub_add_cancel (by omega), ← List.length_drop] at hsum
    rw [hsecond, hpow, ← Nat.mul_assoc] at hvalue
    have hall : Decimal.value ds = nanos * Nat.pow 10 (ds.drop 9).length :=
      Nat.mul_right_cancel (Nat.pow_pos (by decide)) hvalue
    have hsplit := Decimal.value_append (ds.take 9) (ds.drop 9)
    have htail : Decimal.value (ds.drop 9) < Nat.pow 10 (ds.drop 9).length :=
      Decimal.value_lt fun c hc => hdigits c (List.mem_of_mem_drop hc)
    have hlead : Decimal.value ds / Nat.pow 10 (ds.drop 9).length = Decimal.value (ds.take 9) := by
      rw [List.take_append_drop] at hsplit
      rw [hsplit, Nat.mul_comm, Nat.mul_add_div hpos, Nat.div_eq_of_lt htail, Nat.add_zero]
    have hnone : Nat.pow 10 (9 - 9) = 1 := rfl
    rw [hlength, hnone, Nat.mul_one, ← hlead, hall, Nat.mul_div_cancel _ hpos]

private theorem Fraction.endsDigits {nanos : Nat} {fraction : List Char} (h : Fraction nanos fraction)
    {rest : List Char} (hrest : EndsDigits rest) : EndsDigits (fraction ++ rest) := by
  cases h with
  | whole => exact hrest
  | digits => simp [EndsDigits]

/-- A fraction is read from every text of it. -/
private theorem Fraction.fraction?_eq {nanos : Nat} {fraction : List Char} (h : Fraction nanos fraction)
    {rest : List Char} (hrest : EndsDigits rest) (hpoint : ∀ tail, rest ≠ '.' :: tail) :
    fraction? (fraction ++ rest) = some (nanos, rest) := by
  cases h with
  | whole h =>
    rw [h, List.nil_append]
    unfold fraction?
    split
    · next tail => cases hpoint tail rfl
    · rfl
  | @digits ds hne hdigits hvalue =>
    have htake : (ds ++ rest).takeWhile Char.isDigit = ds := by
      rw [List.takeWhile_append_of_pos hdigits, hrest.takeWhile, List.append_nil]
    have hdrop : (ds ++ rest).dropWhile Char.isDigit = rest := by
      rw [List.dropWhile_append_of_pos hdigits, hrest.dropWhile]
    rw [List.cons_append, fraction?, htake, hdrop]
    split
    · exact absurd rfl hne
    · exact congrArg (fun n => some (n, rest)) (value_take hdigits hvalue)

/-- A time of day is read back from its text, with any text of its fraction. Second 60 is a leap second. -/
private theorem time?_text {hour minute second nanos : Nat} (hhour : hour ≤ 23) (hminute : minute ≤ 59)
    (hsecond : second ≤ 60) {fraction : List Char} (hfraction : Fraction nanos fraction)
    {rest : List Char} (hrest : EndsDigits rest) (hpoint : ∀ tail, rest ≠ '.' :: tail) :
    time? (Decimal.fixed 2 hour ++ ':' :: (Decimal.fixed 2 minute ++ ':' ::
      (Decimal.fixed 2 second ++ (fraction ++ rest)))) =
      if second = 60 then
        some (3600 * hour + 60 * minute + 59, Instant.nanosPerSecond + nanos, rest)
      else
        some (3600 * hour + 60 * minute + second, nanos, rest) := by
  have hcolon : ∀ tail, EndsDigits (':' :: tail) := by simp [EndsDigits]
  have hmark := mark?_cons ':' (by decide)
  simp [time?, field?_fixed hhour (by decide) (hcolon _), hmark,
    field?_fixed hminute (by decide) (hcolon _), field?_fixed hsecond (by decide) (hfraction.endsDigits hrest),
    hfraction.fraction?_eq hrest hpoint]

private theorem pair?_fixed {largest n : Nat} (hn : n ≤ largest) (hlargest : largest < 100)
    (rest : List Char) : pair? largest (Decimal.fixed 2 n ++ rest) = some (n, rest) := by
  have hvalue := Decimal.value_fixed 2 n
  have hfixed : Decimal.fixed 2 n = [Decimal.digit (n / 10), Decimal.digit n] := rfl
  rw [hfixed] at hvalue ⊢
  rw [Nat.mod_eq_of_lt (show n < 100 by omega)] at hvalue
  simp [pair?, isDigit_digit, hvalue, hn]

private theorem clock?_text (negative : Bool) {hours minutes : Nat} (hhours : hours ≤ 23)
    (hminutes : minutes ≤ 59) :
    clock? negative (Decimal.fixed 2 hours ++ ':' :: Decimal.fixed 2 minutes) =
      (Offset.ofClock? negative hours minutes).map fun offset => (offset, []) := by
  have hskip : (':' :: Decimal.fixed 2 minutes).dropWhile (fun c => c = ':' || isBlank c) =
      Decimal.fixed 2 minutes := by
    obtain ⟨d, ds, hds, hd⟩ := fixed_eq_cons 2 minutes (by decide)
    have hcolon : d ≠ ':' := by
      rintro rfl
      cases hd
    simp [hds, hcolon, isBlank_of_isDigit hd]
  have hpair := pair?_fixed hminutes (by decide) []
  rw [List.append_nil] at hpair
  simp only [clock?, pair?_fixed hhours (by decide), Option.bind_eq_bind, Option.bind_some, hskip,
    hpair]
  cases Offset.ofClock? negative hours minutes <;> rfl

/-- A text of an offset: sign, hours and minutes, or `Z` for none. -/
inductive Names (o : Offset) : List Char → Prop
  | none (h : o.minutes = 0) : Names o ['Z']
  | ahead {hours minutes : Nat} (hhours : hours ≤ 23) (hminutes : minutes ≤ 59)
    (h : o.minutes = 60 * hours + minutes) : Names o ('+' :: Decimal.fixed 2 hours ++ ':' :: Decimal.fixed 2 minutes)
  | behind {hours minutes : Nat} (hhours : hours ≤ 23) (hminutes : minutes ≤ 59)
    (h : o.minutes = -(60 * hours + minutes)) :
    Names o ('-' :: Decimal.fixed 2 hours ++ ':' :: Decimal.fixed 2 minutes)

private theorem names_text (o : Offset) : Names o o.text := by
  have hbounded := o.bounded
  have hhours : o.minutes.natAbs / 60 ≤ 23 := by omega
  have hminutes : o.minutes.natAbs % 60 ≤ 59 := by omega
  rw [Offset.text]
  split
  · next h => exact .none h
  · split
    · exact .behind hhours hminutes (by omega)
    · exact .ahead hhours hminutes (by omega)

private theorem ofClock?_eq {o : Offset} {negative : Bool} {hours minutes : Nat}
    (h : o.minutes = if negative then -(60 * hours + minutes : Int) else 60 * hours + minutes) :
    Offset.ofClock? negative hours minutes = some o := by
  have hbounded := o.bounded
  have hlt : (60 * hours + minutes : Int) < 1440 := by
    cases negative
    · simp only [Bool.false_eq_true, if_false] at h
      omega
    · simp only [if_true] at h
      omega
  unfold Offset.ofClock?
  simp only [hlt, dif_pos]
  exact congrArg some (Offset.ext h.symm)

/-- An offset that does not begin with a letter is no `UTC`. -/
theorem offset?_eq_sign? {c : Char} (h : c.toUpper ≠ 'U') (rest : List Char) :
    offset? (c :: rest) = offset?.sign? (c :: rest) := by
  rw [offset?.eq_def]
  split
  · next heq =>
    cases heq
    simp [h]
  · rfl

/-- An offset is read from every text of it. -/
private theorem Names.offset?_eq {o : Offset} {zone : List Char} (h : Names o zone) :
    offset? (skipBlanks zone) = some (o, []) := by
  cases h with
  | none h =>
    have ho : o = .utc := Offset.ext h
    rw [ho]
    rfl
  | ahead hhours hminutes h =>
    have hclock := clock?_text false hhours hminutes
    rw [ofClock?_eq h, Option.map_some] at hclock
    rw [List.cons_append, skipBlanks_cons (by decide), offset?_eq_sign? (by decide)]
    exact hclock
  | behind hhours hminutes h =>
    have hclock := clock?_text true hhours hminutes
    rw [ofClock?_eq h, Option.map_some] at hclock
    rw [List.cons_append, skipBlanks_cons (by decide), offset?_eq_sign? (by decide)]
    exact hclock

private theorem Names.endsDigits {o : Offset} {zone : List Char} (h : Names o zone) : EndsDigits zone := by
  cases h <;> simp [EndsDigits]

private theorem Names.ne_point {o : Offset} {zone : List Char} (h : Names o zone) (tail : List Char) :
    zone ≠ '.' :: tail := by
  cases h <;> simp

/-- The stamp of an instant and an offset is made again from what its clock shows. -/
theorem ofLocal?_local (s : Stamp) :
    ofLocal? (s.instant.seconds + 60 * s.offset.minutes) s.instant.nanos s.offset = some s := by
  have hinstant : Instant.ofParts? (s.instant.seconds + 60 * s.offset.minutes - 60 * s.offset.minutes)
      s.instant.nanos = some s.instant := Instant.ofParts?_eq_some_iff.2 ⟨by omega, rfl⟩
  rw [ofLocal?, hinstant]
  exact dif_pos s.local_inRange

/-- What a clock shows down to the second. -/
def secondText (seconds : Int) (nanos : Nat) : List Char :=
  faceText seconds (nanos / Instant.nanosPerSecond * Instant.nanosPerSecond)

private theorem secondText_append (seconds : Int) (nanos : Nat) (fraction : List Char) :
    let date := Date.ofDays (seconds / 86400)
    let time := (seconds % 86400).toNat
    secondText seconds nanos ++ fraction =
      yearText date.year ++ '-' :: Decimal.fixed 2 date.month ++ '-' :: Decimal.fixed 2 date.day ++
        'T' :: Decimal.fixed 2 (time / 3600) ++ ':' :: Decimal.fixed 2 (time / 60 % 60) ++
        ':' :: Decimal.fixed 2 (time % 60 + nanos / Instant.nanosPerSecond) ++ fraction := by
  have hwhole : nanos / Instant.nanosPerSecond * Instant.nanosPerSecond / Instant.nanosPerSecond =
      nanos / Instant.nanosPerSecond := Nat.mul_div_cancel _ (by decide)
  have hnone : fractionText
      (nanos / Instant.nanosPerSecond * Instant.nanosPerSecond % Instant.nanosPerSecond) = [] := by
    rw [Nat.mul_mod_left]
    rfl
  simp only [secondText, faceText, hwhole, hnone, List.append_nil]

/-- A text of the local time that a clock with an offset shows. The count of seconds is that of the local
time. -/
inductive Shows (seconds : Int) (nanos : Nat) (o : Offset) : List Char → Prop
  | intro {fraction zone : List Char} (hfraction : Fraction (nanos % Instant.nanosPerSecond) fraction)
    (hzone : Names o zone) : Shows seconds nanos o (secondText seconds nanos ++ fraction ++ zone)

private theorem shows_text (s : Stamp) :
    Shows (s.instant.seconds + 60 * s.offset.minutes) s.instant.nanos s.offset s.text := by
  have hface : faceText (s.instant.seconds + 60 * s.offset.minutes) s.instant.nanos =
      secondText (s.instant.seconds + 60 * s.offset.minutes) s.instant.nanos ++
        fractionText (s.instant.nanos % Instant.nanosPerSecond) := by
    rw [secondText_append]
    rfl
  rw [text, hface]
  exact .intro (fraction_text (Nat.mod_lt _ (by decide))) (names_text s.offset)

/-- What a clock shows is read, with its offset. -/
theorem read?_of_shows {seconds : Int} {nanos : Nat} {o : Offset} {text : List Char}
    (h : Shows seconds nanos o text) (hnanos : nanos < 2 * Instant.nanosPerSecond)
    (hleap : Instant.nanosPerSecond ≤ nanos → seconds % 60 = 59) :
    read? text = (ofLocal? seconds nanos o).map fun stamp => (stamp, []) := by
  obtain ⟨hfraction, hzone⟩ := h
  simp only [Instant.nanosPerSecond] at hnanos hleap hfraction
  obtain ⟨time, htime⟩ : ∃ time : Nat, (seconds % 86400).toNat = time := ⟨_, rfl⟩
  have hlt : time < 86400 := by omega
  have hhour : time / 3600 ≤ 23 := by omega
  have hminute : time / 60 % 60 ≤ 59 := by omega
  have hsecond : time % 60 + nanos / 1000000000 ≤ 60 := by omega
  have hread := time?_text hhour hminute hsecond hfraction hzone.endsDigits hzone.ne_point
  have hseconds : Date.toDays (Date.ofDays (seconds / 86400)) * 86400 + (time : Int) = seconds := by
    rw [Date.toDays_ofDays]
    omega
  have hdate := fun rest => date?_text (Date.ofDays (seconds / 86400)) ('T' :: rest)
    (by simp [EndsDigits])
  rw [secondText_append]
  simp only [htime, Instant.nanosPerSecond, List.append_assoc, List.cons_append, read?,
    hdate, hread, Option.bind_eq_bind, Option.bind_some]
  by_cases hlate : time % 60 + nanos / 1000000000 = 60
  · have hparts : 3600 * (time / 3600) + 60 * (time / 60 % 60) + 59 = time := by omega
    have hnanos : 1000000000 + nanos % 1000000000 = nanos := by omega
    simp only [hlate, if_true, Option.bind_some, hparts, hnanos, hzone.offset?_eq, hseconds]
    cases ofLocal? seconds nanos o <;> rfl
  · have hparts : 3600 * (time / 3600) + 60 * (time / 60 % 60) + (time % 60 + nanos / 1000000000) =
        time := by omega
    have hnanos : nanos % 1000000000 = nanos := by omega
    simp only [hlate, if_false, Option.bind_some, hparts, hnanos, hzone.offset?_eq, hseconds]
    cases ofLocal? seconds nanos o <;> rfl

/-- Every time that a local clock shows is read, whatever its year, its fraction and its offset, and also
inside a leap second. -/
theorem ofText?_of_shows {seconds : Int} {nanos : Nat} {o : Offset} {text : List Char}
    (h : Shows seconds nanos o text) (hnanos : nanos < 2 * Instant.nanosPerSecond)
    (hleap : Instant.nanosPerSecond ≤ nanos → seconds % 60 = 59) :
    ofText? text = ofLocal? seconds nanos o := by
  rw [ofText?, read?_of_shows h hnanos hleap]
  cases ofLocal? seconds nanos o <;> rfl

/-- An instant is read from what it is on any clock. -/
theorem ofText?_of_shows_instant {t : Instant} {o : Offset} {text : List Char}
    (h : Shows (t.seconds + 60 * o.minutes) t.nanos o text) (hrange : Instant.InRange (t.seconds + 60 * o.minutes)) :
    ofText? text = some ⟨t, o, hrange⟩ := by
  have hleap : Instant.nanosPerSecond ≤ t.nanos → (t.seconds + 60 * o.minutes) % 60 = 59 := by
    intro h
    have := t.last_of_leap h
    omega
  rw [ofText?_of_shows h t.nanos_lt hleap]
  exact ofLocal?_local ⟨t, o, hrange⟩

/-- A stamp is read back from its text. -/
theorem ofText?_text (s : Stamp) : ofText? s.text = some s :=
  ofText?_of_shows_instant s.shows_text s.local_inRange

end Time.Stamp
end SessionTickets
