import SessionTickets.Proofs.Json.Delimited
import SessionTickets.Proofs.Portable.RoundTrip

namespace SessionTickets

open Json

/-- Fields are no part of a number. -/
theorem Json.ne_number_of_fields? {ρ : Type} {j : Json} {names : List String}
    {next : List (Option Json) → Option ρ} {r : ρ} (h : (j.fields? names).bind next = some r)
    (numeral : List UInt8) : j ≠ .number numeral := by
  rintro rfl
  cases h

namespace Portable

variable {α : Type} [Portable α] {bs p s : List UInt8}

/-- The bytes are not the document of a record. -/
def Unreadable (α : Type) [Portable α] (bs : List UInt8) : Prop :=
  ∃ detail, decode (α := α) bs = .error (.unreadable detail)

/-- Bytes are readable exactly if a record is in them. -/
theorem not_unreadable_iff : ¬ Unreadable α bs ↔ ∃ r, record? (α := α) bs = some r := by
  rw [Unreadable, decode]
  cases record? (α := α) bs with
  | none => simp
  | some r =>
    simp only
    cases ofRecord (α := α) r <;> simp

/-- Bytes tell by themselves where they end, up to blanks. Hence an encoding that is cut short or
continued cannot be read. -/
structure SelfDelimiting (α : Type) [Portable α] : Prop where
  readable_iff : ∀ p s, ¬ Unreadable α (p ++ s) → (¬ Unreadable α p ↔ ∀ b ∈ s, isBlank b)
  decode_eq : ∀ p s, ¬ Unreadable α (p ++ s) → ¬ Unreadable α p → decode (α := α) p = decode (p ++ s)
  cut_short : ∀ (v : α) p s, encode v = p ++ s → (∃ b ∈ s, ¬ isBlank b) → Unreadable α p
  continued : ∀ (v : α) s, (∃ b ∈ s, ¬ isBlank b) → Unreadable α (encode v ++ s)

private theorem decode_append_blanks (p : List UInt8) (hs : ∀ b ∈ s, isBlank b) :
    decode (α := α) (p ++ s) = decode p := by
  rw [decode, record?, ofBytes?_append_blanks p hs, ← record?, ← decode]

/-- It is enough that no record is read from a number. -/
theorem selfDelimiting [LawfulPortable α]
    (hformat : ∀ {j r}, recordOfJson? (α := α) j = some r → ∀ numeral, j ≠ .number numeral) :
    SelfDelimiting α := by
  have hencode : ∀ v : α, ¬ Unreadable α (encode v) :=
    fun v => not_unreadable_iff.2 ⟨_, record?_of_spells (spells_encode v)⟩
  have hblanks : ∀ p s, ¬ Unreadable α p → ¬ Unreadable α (p ++ s) → ∀ b ∈ s, isBlank b := by
    intro p s hp hps
    obtain ⟨r, hr⟩ := not_unreadable_iff.1 hp
    obtain ⟨_, hcontinued⟩ := not_unreadable_iff.1 hps
    obtain ⟨j, hj, hread⟩ := Option.bind_eq_some_iff.1 hr
    obtain ⟨_, hk, -⟩ := Option.bind_eq_some_iff.1 hcontinued
    exact blanks_of_ofBytes?_append hj (hformat hread) hk
  refine ⟨?_, ?_, ?_, ?_⟩
  · intro p s hps
    refine ⟨fun hp => hblanks p s hp hps, fun hs => ?_⟩
    rw [Unreadable, decode_append_blanks p hs] at hps
    exact hps
  · intro p s hps hp
    exact (decode_append_blanks p (hblanks p s hp hps)).symm
  · rintro v p s hcut ⟨b, hb, hmark⟩
    refine Classical.byContradiction fun hp => ?_
    exact hmark (hblanks p s hp (hcut ▸ hencode v) b hb)
  · rintro v s ⟨b, hb, hmark⟩
    refine Classical.byContradiction fun hps => ?_
    exact hmark (hblanks (encode v) s (hencode v) hps b hb)

/-- Every portable type is self-delimiting: records are read from objects and arrays, which have marks of
their own at the end. -/
theorem selfDelimiting_portable :
    SelfDelimiting Assertion ∧ SelfDelimiting ServiceTicket ∧ SelfDelimiting Properties ∧
      SelfDelimiting Identity ∧ SelfDelimiting IdentitySession ∧ SelfDelimiting SchemeSession :=
  ⟨selfDelimiting ne_number_of_fields?, selfDelimiting ne_number_of_fields?,
    selfDelimiting ne_number_of_fields?, selfDelimiting ne_number_of_fields?,
    selfDelimiting ne_number_of_fields?, selfDelimiting ne_number_of_fields?⟩

end Portable

end SessionTickets
