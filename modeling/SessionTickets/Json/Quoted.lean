import SessionTickets.Json.Basic

namespace SessionTickets.Json.Quoted

/-- The character that follows the backslash for a byte with a short escape. -/
def shortEscape? (b : UInt8) : Option Char :=
  if b = byte '"' then some '"'
  else if b = byte '\\' then some '\\'
  else if b = 0x08 then some 'b'
  else if b = 0x09 then some 't'
  else if b = 0x0A then some 'n'
  else if b = 0x0C then some 'f'
  else if b = 0x0D then some 'r'
  else none

def hexDigit (n : UInt8) : UInt8 :=
  if n < 10 then byte '0' + n else byte 'a' + (n - 10)

/-- A byte as it stands in a token: quote, backslash and control characters are escaped. -/
def escapeByte (b : UInt8) : List UInt8 :=
  match shortEscape? b with
  | some c => [byte '\\', byte c]
  | none =>
    if b < 0x20 then bytes ['\\', 'u', '0', '0'] ++ [hexDigit (b / 16), hexDigit (b % 16)] else [b]

/-- The bytes of a string in UTF-8. -/
def utf8 (s : String) : List UInt8 :=
  s.toUTF8.data.toList

/-- The one token that a string is written as; `read?` undoes it. -/
def write (s : String) : List UInt8 :=
  (utf8 s).flatMap escapeByte

/-- A part of a token: a byte that stands for itself or is named by a short escape, or a UTF-16 code
unit in four hexadecimal digits. -/
inductive Piece where
  | byte (b : UInt8)
  | unit (u : Nat)

def hexValue? (b : UInt8) : Option Nat :=
  if byte '0' ≤ b ∧ b ≤ byte '9' then some (b - byte '0').toNat
  else if byte 'a' ≤ b ∧ b ≤ byte 'f' then some (b - byte 'a' + 10).toNat
  else if byte 'A' ≤ b ∧ b ≤ byte 'F' then some (b - byte 'A' + 10).toNat
  else none

def unit? (a b c d : UInt8) : Option Nat := do
  let a ← hexValue? a
  let b ← hexValue? b
  let c ← hexValue? c
  let d ← hexValue? d
  some (4096 * a + 256 * b + 16 * c + d)

def named? (b : UInt8) : Option UInt8 :=
  if b = byte '"' then some (byte '"')
  else if b = byte '\\' then some (byte '\\')
  else if b = byte '/' then some (byte '/')
  else if b = byte 'b' then some 0x08
  else if b = byte 't' then some 0x09
  else if b = byte 'n' then some 0x0A
  else if b = byte 'f' then some 0x0C
  else if b = byte 'r' then some 0x0D
  else none

/-- The parts of a token. A backslash has to begin an escape. -/
def pieces? : List UInt8 → Option (List Piece)
  | [] => some []
  | b :: rest =>
    if b = byte '\\' then
      match rest with
      | [] => none
      | e :: rest =>
        if e = byte 'u' then
          match rest with
          | h₃ :: h₂ :: h₁ :: h₀ :: rest =>
            (unit? h₃ h₂ h₁ h₀).bind fun u => (pieces? rest).map (.unit u :: ·)
          | _ => none
        else
          (named? e).bind fun b => (pieces? rest).map (.byte b :: ·)
    else
      (pieces? rest).map (.byte b :: ·)

/-- Whether a code unit is the first half of a surrogate pair. -/
def isHigh (u : Nat) : Bool := 0xD800 ≤ u && u < 0xDC00

/-- Whether a code unit is the second half of a surrogate pair. -/
def isLow (u : Nat) : Bool := 0xDC00 ≤ u && u < 0xE000

/-- The code point of a surrogate pair. -/
def paired (high low : Nat) : Nat :=
  0x10000 + 0x400 * (high - 0xD800) + (low - 0xDC00)

/-- The bytes that parts stand for, unless a half of a surrogate pair is alone. -/
def joined? : List Piece → Option (List UInt8)
  | [] => some []
  | .byte b :: rest => (joined? rest).map (b :: ·)
  | .unit u :: rest =>
    if isHigh u then
      match rest with
      | .unit v :: rest =>
        if isLow v then (joined? rest).map (String.utf8EncodeChar (Char.ofNat (paired u v)) ++ ·)
        else none
      | _ => none
    else if isLow u then none
    else (joined? rest).map (String.utf8EncodeChar (Char.ofNat u) ++ ·)

/-- The string with the given bytes in UTF-8. -/
def ofUtf8? (bs : List UInt8) : Option String :=
  String.fromUTF8? ⟨bs.toArray⟩

/-- What the bytes between two quotes stand for. Every escape is accepted; half of a surrogate pair without
the other half, and bytes that are no UTF-8, stand for nothing. -/
def read? (token : List UInt8) : Option String :=
  ((pieces? token).bind joined?).bind ofUtf8?

end SessionTickets.Json.Quoted
