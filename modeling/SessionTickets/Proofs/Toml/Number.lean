import SessionTickets.Proofs.Time.Stamp
import SessionTickets.Toml.Number

namespace SessionTickets

open Text

namespace Text.Decimal

private theorem length_pos (n : Nat) : 0 < length n := by
  rw [length]
  split <;> omega

private theorem isDigit_of_mem_digits {n : Nat} {c : Char} (h : c ∈ digits n) : c.isDigit :=
  isDigit_of_mem_fixed (length n) n h

private theorem value_digits (n : Nat) : value (digits n) = n := by
  rw [digits, value_fixed, Nat.mod_eq_of_lt (lt_ten_pow_length n)]

/-- The digits of a number begin with one. -/
theorem exists_digits_eq (n : Nat) : ∃ d ds, digits n = d :: ds ∧ d.isDigit :=
  Time.Stamp.fixed_eq_cons (length n) n (length_pos n)

private theorem digits_zero : digits 0 = ['0'] := by
  rw [digits, length, if_pos (by decide)]
  rfl

private theorem digit_ne_zero {d : Nat} (h : d % 10 ≠ 0) : digit d ≠ '0' := by
  intro heq
  have hcode := toNat_digit d
  rw [heq] at hcode
  change 48 = 48 + d % 10 at hcode
  omega

/-- A number other than zero has no leading zeros. -/
theorem digits_eq_cons {n : Nat} (h : 0 < n) : ∃ d ds, digits n = d :: ds ∧ d ≠ '0' := by
  by_cases hsmall : n < 10
  · refine ⟨digit n, [], ?_, digit_ne_zero (by omega)⟩
    rw [digits, length, if_pos hsmall]
    rfl
  · obtain ⟨d, ds, hds, hd⟩ := digits_eq_cons (n := n / 10) (by omega)
    refine ⟨d, ds ++ [digit n], ?_, hd⟩
    rw [digits, length, if_neg hsmall, fixed, ← digits, hds, List.cons_append]

end Text.Decimal

namespace Toml.Number

private theorem value_eq {ds : List Char} (h : ∀ c ∈ ds, c.isDigit) : value 10 ds = Decimal.value ds := by
  have hfold : ∀ n, ds.foldl (fun n d => 10 * n + digitValue d) n =
      ds.foldl (fun n d => 10 * n + (d.toNat - 48)) n := by
    induction ds with
    | nil => exact fun _ => rfl
    | cons d ds ih =>
      intro n
      obtain ⟨hd, hds⟩ := List.forall_mem_cons.1 h
      have hvalue : digitValue d = d.toNat - 48 := if_pos hd
      rw [List.foldl_cons, List.foldl_cons, hvalue, ih hds]
  exact hfold 0

private theorem sign_of_isDigit {d : Char} (h : d.isDigit) (rest : List Char) :
    sign (d :: rest) = (false, d :: rest) := by
  unfold sign
  split
  · next heq => exact absurd ((List.cons.inj heq).1 ▸ h) (by decide)
  · next heq => exact absurd ((List.cons.inj heq).1 ▸ h) (by decide)
  · rfl

/-- Digits at the end of a line are read up to there. -/
theorem moreDigits_append {ds : List Char} (h : ∀ c ∈ ds, c.isDigit) (rest : List Char) :
    moreDigits Char.isDigit (ds ++ '\n' :: rest) = (ds, '\n' :: rest) := by
  induction ds with
  | nil => rfl
  | cons d ds ih =>
    obtain ⟨hd, hds⟩ := List.forall_mem_cons.1 h
    rw [List.cons_append, moreDigits, if_pos hd, ih hds]
    rintro c more rfl
    cases hd

private theorem whole?_digits (n : Nat) (rest : List Char) :
    whole? (Decimal.digits n ++ '\n' :: rest) = some (Decimal.digits n, '\n' :: rest) := by
  by_cases hzero : n = 0
  · rw [hzero, Decimal.digits_zero]
    rfl
  · obtain ⟨d, ds, hds, hd⟩ := Decimal.digits_eq_cons (Nat.pos_of_ne_zero hzero)
    have hall : ∀ c ∈ d :: ds, c.isDigit := fun c hc => Decimal.isDigit_of_mem_digits (hds ▸ hc)
    obtain ⟨hfirst, hmore⟩ := List.forall_mem_cons.1 hall
    rw [hds, List.cons_append, whole?, digits?, if_pos hfirst, moreDigits_append hmore]
    exact fun more heq => hd (List.cons.inj heq).1

/-- Digits up to the end of a line. -/
inductive DigitLine (rest : List Char) : List Char → Prop
  | done : DigitLine rest ('\n' :: rest)
  | digit {d : Char} {text : List Char} (hd : d.isDigit) (h : DigitLine rest text) : DigitLine rest (d :: text)

namespace DigitLine

variable {rest text : List Char}

private theorem append {ds : List Char} (h : ∀ c ∈ ds, c.isDigit) (rest : List Char) :
    DigitLine rest (ds ++ '\n' :: rest) := by
  induction ds with
  | nil => exact .done
  | cons d ds ih =>
    obtain ⟨hd, hds⟩ := List.forall_mem_cons.1 h
    exact .digit hd (ih hds)

private theorem tail {d : Char} (h : DigitLine rest (d :: text)) (hd : d.isDigit) : DigitLine rest text := by
  cases h with
  | done => exact absurd hd (by decide)
  | digit _ h => exact h

/-- Neither points nor any other marks stand between digits or behind them. -/
theorem mark?_eq_none (h : DigitLine rest text) {c : Char} (hc : c.isDigit = false) (hline : c ≠ '\n') :
    mark? c text = none := by
  cases h with
  | done => exact if_neg hline.symm
  | digit hd _ => exact if_neg fun heq => by rw [heq, hc] at hd; cases hd

private theorem pair? {least most n : Nat} {more : List Char} (h : DigitLine rest text)
    (hpair : Number.pair? least most text = some (n, more)) : DigitLine rest more := by
  unfold Number.pair? at hpair
  split at hpair
  · simp only at hpair
    split at hpair
    · next hdigits =>
      cases hpair
      exact (h.tail hdigits.1).tail hdigits.2.1
    · cases hpair
  · cases hpair

private theorem date?_eq_none (h : DigitLine rest text) : date? text = none := by
  unfold date?
  split
  · next a b c d more =>
    split
    · next hdigits =>
      simp only [List.all_cons, List.all_nil, Bool.and_true, Bool.and_eq_true] at hdigits
      obtain ⟨ha, hb, hc, hd⟩ := hdigits
      have hmore := (((h.tail ha).tail hb).tail hc).tail hd
      rw [hmore.mark?_eq_none (by decide) (by decide)]
      rfl
    · rfl
  · rfl

private theorem time?_eq_none (h : DigitLine rest text) : time? text = none := by
  unfold time?
  cases hpair : Number.pair? 0 23 text with
  | none => rfl
  | some pair =>
    have hmark := (h.pair? hpair).mark?_eq_none (c := ':') (by decide) (by decide)
    simp [hmark]

private theorem moment?_eq_none (h : DigitLine rest text) : moment? text = none := by
  rw [moment?, h.date?_eq_none]
  exact h.time?_eq_none

/-- No mark of another base stands behind a zero. -/
theorem isDigit_of_zero {c : Char} {more : List Char} (h : DigitLine rest ('0' :: c :: more)) :
    c.isDigit ∨ c = '\n' := by
  cases h.tail (by decide) with
  | done => exact .inr rfl
  | digit hc _ => exact .inl hc

end DigitLine

section

variable (n : Nat) (rest : List Char)

private theorem digitLine_digits : DigitLine rest (Decimal.digits n ++ '\n' :: rest) :=
  .append (fun _ => Decimal.isDigit_of_mem_digits) rest

private theorem sign_digits :
    sign (Decimal.digits n ++ '\n' :: rest) = (false, Decimal.digits n ++ '\n' :: rest) := by
  obtain ⟨d, ds, hds, hd⟩ := Decimal.exists_digits_eq n
  rw [hds, List.cons_append, sign_of_isDigit hd]

/-- A number without a fraction and without an exponent is no float. -/
theorem decimal?_digits : decimal? (Decimal.digits n ++ '\n' :: rest) = none := by
  simp [decimal?, sign_digits, whole?_digits, fraction?, exponent?]

private theorem special?_digits : special? (Decimal.digits n ++ '\n' :: rest) = none := by
  obtain ⟨d, ds, hds, hd⟩ := Decimal.exists_digits_eq n
  rw [special?, sign_digits, hds]
  split
  · next heq => exact absurd ((List.cons.inj heq).1 ▸ hd) (by decide)
  · next heq => exact absurd ((List.cons.inj heq).1 ▸ hd) (by decide)
  · rfl

end

/-- The digits of a number are read as an integer, if it is not too large. -/
private theorem integer?_digits {n : Nat} (h : n ≤ largest) (rest : List Char) :
    integer? (Decimal.digits n ++ '\n' :: rest) = some (.integer n, '\n' :: rest) := by
  have hvalue : value 10 (Decimal.digits n) = n := by
    rw [value_eq fun _ => Decimal.isDigit_of_mem_digits, Decimal.value_digits]
  have hline := digitLine_digits n rest
  unfold integer?
  split
  · next heq => exact absurd (heq ▸ hline).isDigit_of_zero (by decide)
  · next heq => exact absurd (heq ▸ hline).isDigit_of_zero (by decide)
  · next heq => exact absurd (heq ▸ hline).isDigit_of_zero (by decide)
  · simp [sign_digits, whole?_digits, hvalue, signed?, h]

/-- The digits of a number are read as that number, if it is not too large. -/
theorem read?_digits {n : Nat} (h : n ≤ largest) (rest : List Char) :
    read? (Decimal.digits n ++ '\n' :: rest) = some (.integer n, '\n' :: rest) := by
  rw [read?, (digitLine_digits n rest).moment?_eq_none, decimal?_digits, special?_digits]
  exact integer?_digits h rest

end Toml.Number

end SessionTickets
