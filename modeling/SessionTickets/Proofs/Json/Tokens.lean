import SessionTickets.Json.Reader

namespace SessionTickets.Json

/-- What is checked for the numbers below 256 holds for all bytes. -/
theorem forall_byte {p : UInt8 → Prop} (h : ∀ n < 256, p (UInt8.ofNat n)) (b : UInt8) : p b := by
  have hb := h b.toNat b.toNat_lt
  rwa [UInt8.ofNat_toNat] at hb

namespace Escape

/-- The state of a quoted text after some bytes, none of which ends it. -/
def run? : Escape → List UInt8 → Option Escape
  | e, [] => some e
  | e, b :: rest =>
    if e = .none ∧ b = byte '"' then Option.none else (e.next? b).bind fun e => e.run? rest

/-- Bytes may be read in two parts. -/
theorem run?_append (e : Escape) (s t : List UInt8) :
    e.run? (s ++ t) = (e.run? s).bind fun e => e.run? t := by
  induction s generalizing e with
  | nil => rfl
  | cons b s ih =>
    simp only [List.cons_append, run?]
    split
    · rfl
    · cases e.next? b with
      | none => rfl
      | some next => exact ih next

end Escape

/-- Bytes that may stand between two quotes. -/
def IsToken (token : List UInt8) : Prop :=
  Escape.none.run? token = some .none

/-- The part of a number that has been read last after some more bytes. -/
def Numeral.run? : Numeral → List UInt8 → Option Numeral
  | n, [] => some n
  | n, b :: rest => (n.next? b).bind fun n => n.run? rest

/-- Bytes that write a whole number. -/
def IsNumeral : List UInt8 → Prop
  | [] => False
  | b :: rest => ∃ first last, Numeral.first? b = some first ∧ first.run? rest = some last ∧ last.complete

/-- Documents of the right form: so are the tokens and the numerals, which are kept as written. -/
inductive WellFormed : Json → Prop
  | null : WellFormed .null
  | bool (value : Bool) : WellFormed (.bool value)
  | number {numeral : List UInt8} (h : IsNumeral numeral) : WellFormed (.number numeral)
  | text {token : List UInt8} (h : IsToken token) : WellFormed (.text token)
  | array {items : List Json} (h : ∀ item ∈ items, WellFormed item) : WellFormed (.array items)
  | object {members : Members} (hkeys : ∀ m ∈ members, IsToken m.1)
    (hvalues : ∀ m ∈ members, WellFormed m.2) : WellFormed (.object members)

mutual

/-- The tokens of the text of a document, in order. -/
def tokens : Json → List (List UInt8)
  | .null => [write .null]
  | .bool value => [write (.bool value)]
  | .number numeral => [numeral]
  | .text token => [quote token]
  | .array items => [byte '['] :: itemTokens items ++ [[byte ']']]
  | .object members => [byte '{'] :: memberTokens members ++ [[byte '}']]

def itemTokens : List Json → List (List UInt8)
  | [] => []
  | [item] => tokens item
  | item :: next :: rest => tokens item ++ [byte ','] :: itemTokens (next :: rest)

def memberTokens : List (List UInt8 × Json) → List (List UInt8)
  | [] => []
  | [(key, value)] => quote key :: [byte ':'] :: tokens value
  | (key, value) :: next :: rest =>
    quote key :: [byte ':'] :: tokens value ++ [byte ','] :: memberTokens (next :: rest)

end

mutual

/-- The text of a document consists of its tokens. -/
theorem flatten_tokens (j : Json) : (tokens j).flatten = write j := by
  cases j with
  | null => rfl
  | bool value => exact List.append_nil _
  | number numeral => rw [tokens, write]; exact List.append_nil _
  | text token => rw [tokens, write]; exact List.append_nil _
  | array items =>
    rw [tokens, write, List.flatten_append, List.flatten_cons, flatten_itemTokens items]
    rfl
  | object members =>
    rw [tokens, write, List.flatten_append, List.flatten_cons, flatten_memberTokens members]
    rfl

private theorem flatten_itemTokens (items : List Json) : (itemTokens items).flatten = writeItems items := by
  cases items with
  | nil => rfl
  | cons item rest =>
    cases rest with
    | nil => rw [itemTokens, writeItems, flatten_tokens item]
    | cons next rest =>
      rw [itemTokens, writeItems, List.flatten_append, List.flatten_cons, flatten_tokens item,
        flatten_itemTokens (next :: rest)]
      rfl

private theorem flatten_memberTokens (members : List (List UInt8 × Json)) :
    (memberTokens members).flatten = writeMembers members := by
  cases members with
  | nil => rfl
  | cons member rest =>
    obtain ⟨key, value⟩ := member
    cases rest with
    | nil =>
      rw [memberTokens, writeMembers, List.flatten_cons, List.flatten_cons, flatten_tokens value]
      rfl
    | cons next rest =>
      rw [memberTokens, writeMembers, List.flatten_append, List.flatten_cons, List.flatten_cons,
        List.flatten_cons, flatten_tokens value, flatten_memberTokens (next :: rest)]
      simp

end

/-- Bytes consist of some tokens, and of blanks before, between and after them. -/
inductive Spaced : List (List UInt8) → List UInt8 → Prop
  | nil : Spaced [] []
  | blank {b : UInt8} {ts : List (List UInt8)} {bs : List UInt8} (hb : isBlank b) (h : Spaced ts bs) :
    Spaced ts (b :: bs)
  | token (t : List UInt8) {ts : List (List UInt8)} {bs : List UInt8} (h : Spaced ts bs) :
    Spaced (t :: ts) (t ++ bs)

/-- There may be no blanks at all. -/
theorem spaced_flatten (ts : List (List UInt8)) : Spaced ts ts.flatten := by
  induction ts with
  | nil => exact .nil
  | cons t ts ih => exact .token t ih

end SessionTickets.Json
