import SessionTickets.Json.Quoted
import SessionTickets.Proofs.Json.Document

namespace SessionTickets.Json.Quoted

private theorem named?_shortEscape? {b : UInt8} {c : Char} (h : shortEscape? b = some c) :
    byte c ≠ byte 'u' ∧ named? (byte c) = some b := by
  have hall : ∀ b : UInt8, (shortEscape? b).all
      fun c => byte c ≠ byte 'u' ∧ named? (byte c) = some b := forall_byte (by decide +kernel)
  simpa [h] using hall b

/-- The part that an escaped byte is read as. -/
def pieceOf (b : UInt8) : Piece :=
  if shortEscape? b = none ∧ b < 0x20 then .unit b.toNat else .byte b

private theorem unit?_hexDigits (b : UInt8) :
    unit? (byte '0') (byte '0') (hexDigit (b / 16)) (hexDigit (b % 16)) = some b.toNat := by
  revert b
  exact forall_byte (by decide +kernel)

private theorem pieces?_plain {b : UInt8} (h : b ≠ byte '\\') (rest : List UInt8) :
    pieces? (b :: rest) = (pieces? rest).map (.byte b :: ·) := by
  rw [pieces?.eq_def]
  simp [h]

private theorem pieces?_named {e : UInt8} (h : e ≠ byte 'u') (rest : List UInt8) :
    pieces? (byte '\\' :: e :: rest) =
      (named? e).bind fun b => (pieces? rest).map (.byte b :: ·) := by
  rw [pieces?.eq_def]
  simp [h]

private theorem pieces?_escapeByte (b : UInt8) (rest : List UInt8) :
    pieces? (escapeByte b ++ rest) = (pieces? rest).map (pieceOf b :: ·) := by
  cases hshort : shortEscape? b with
  | some c =>
    obtain ⟨hu, hnamed⟩ := named?_shortEscape? hshort
    simp [escapeByte, pieceOf, hshort, pieces?_named hu, hnamed]
  | none =>
    by_cases hctrl : b < 0x20
    · have hunit := unit?_hexDigits b
      simp [escapeByte, pieceOf, hshort, hctrl, pieces?, bytes, hunit]
    · have hslash : b ≠ byte '\\' := by
        rintro rfl
        cases hshort
      simp [escapeByte, pieceOf, hshort, hctrl, pieces?_plain hslash]

private theorem pieces?_write_bytes (bs : List UInt8) :
    pieces? (bs.flatMap escapeByte) = some (bs.map pieceOf) := by
  induction bs with
  | nil => rfl
  | cons b bs ih => rw [List.flatMap_cons, pieces?_escapeByte, ih, List.map_cons, Option.map_some]

private theorem utf8EncodeChar_ofNat {b : UInt8} (h : b < 0x20) :
    String.utf8EncodeChar (Char.ofNat b.toNat) = [b] := by
  have hall : ∀ n : Fin 32, String.utf8EncodeChar (Char.ofNat n.val) = [UInt8.ofNat n.val] := by
    decide +kernel
  have hlt : b.toNat < 32 := by simpa [UInt8.lt_iff_toNat_lt] using h
  simpa using hall ⟨b.toNat, hlt⟩

/-- A code unit that is no half of a pair stands for a character. -/
private theorem joined?_unit {u : Nat} (hhigh : isHigh u = false) (hlow : isLow u = false)
    (rest : List Piece) :
    joined? (.unit u :: rest) =
      (joined? rest).map (String.utf8EncodeChar (Char.ofNat u) ++ ·) := by
  rw [joined?.eq_def]
  simp [hhigh, hlow]

/-- The parts of escaped bytes stand for these bytes. -/
private theorem joined?_pieceOf (bs : List UInt8) : joined? (bs.map pieceOf) = some bs := by
  induction bs with
  | nil => rw [List.map_nil, joined?]
  | cons b bs ih =>
    rw [List.map_cons, pieceOf]
    split
    · next h =>
      have hlt : b.toNat < 32 := by simpa [UInt8.lt_iff_toNat_lt] using h.2
      have hhigh : isHigh b.toNat = false := by simp [isHigh]; omega
      have hlow : isLow b.toNat = false := by simp [isLow]; omega
      rw [joined?_unit hhigh hlow, ih, utf8EncodeChar_ofNat h.2]
      rfl
    · rw [joined?, ih, Option.map_some]

/-- A string is made again of its bytes. -/
theorem ofUtf8?_utf8 (s : String) : ofUtf8? (utf8 s) = some s := by
  have hbytes : (⟨(utf8 s).toArray⟩ : ByteArray) = s.toByteArray := by
    rw [utf8, Array.toArray_toList]
    rfl
  rw [ofUtf8?, hbytes, String.fromUTF8?, dif_pos s.isValidUTF8]
  rfl

/-- The token of a string stands for that string. -/
theorem read?_write (s : String) : read? (write s) = some s := by
  rw [read?, write, pieces?_write_bytes, Option.bind_some, joined?_pieceOf, Option.bind_some,
    ofUtf8?_utf8]

private theorem run?_escapeByte (b : UInt8) : Escape.none.run? (escapeByte b) = some .none := by
  revert b
  exact forall_byte (by decide +kernel)

/-- No byte of an escaped string ends the text that it stands in. -/
theorem isToken_write (s : String) : IsToken (write s) := by
  rw [write, IsToken]
  generalize utf8 s = bs
  induction bs with
  | nil => rfl
  | cons b bs ih => rw [List.flatMap_cons, Escape.run?_append, run?_escapeByte, Option.bind_some, ih]

end SessionTickets.Json.Quoted
