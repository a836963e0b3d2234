namespace SessionTickets.Text.Decimal

def digit (d : Nat) : Char :=
  Char.ofNat (48 + d % 10)

/-- The last `width` digits of a number, most significant first. -/
def fixed : Nat → Nat → List Char
  | 0, _ => []
  | width + 1, n => fixed width (n / 10) ++ [digit n]

/-- How many digits a number has; zero has one. -/
def length (n : Nat) : Nat :=
  if n < 10 then 1 else length (n / 10) + 1

/-- The digits of a number, without leading zeros. -/
def digits (n : Nat) : List Char :=
  fixed (length n) n

/-- The digits of a number, with leading zeros up to a width. -/
def padded (width n : Nat) : List Char :=
  fixed (max width (length n)) n

def value (ds : List Char) : Nat :=
  ds.foldl (fun n d => 10 * n + (d.toNat - 48)) 0

/-- A number in a width has that many digits. -/
@[simp] theorem length_fixed (width n : Nat) : (fixed width n).length = width := by
  induction width generalizing n with
  | zero => rfl
  | succ width ih => simp [fixed, ih]

/-- Digits follow each other from zero on. -/
theorem toNat_digit (d : Nat) : (digit d).toNat = 48 + d % 10 := by
  have h : (48 + d % 10).isValidChar := .inl (by omega)
  have hofNat : Char.ofNat (48 + d % 10) = Char.ofNatAux _ h := dif_pos h
  rw [digit, hofNat]
  rfl

private theorem value_append_digit (ds : List Char) (d : Nat) :
    value (ds ++ [digit d]) = 10 * value ds + d % 10 := by
  simp [value, toNat_digit]

/-- Reading the last `width` digits gives the number modulo the power of ten. -/
theorem value_fixed (width n : Nat) : value (fixed width n) = n % Nat.pow 10 width := by
  induction width generalizing n with
  | zero => simp [fixed, value, Nat.mod_one]
  | succ width ih =>
    have hpow : Nat.pow 10 (width + 1) = 10 * Nat.pow 10 width := Nat.mul_comm _ _
    rw [fixed, value_append_digit, ih, hpow, Nat.mod_mul]
    exact Nat.add_comm _ _

end SessionTickets.Text.Decimal
