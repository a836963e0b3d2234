import SessionTickets.Portable.Codec
import SessionTickets.Proofs.Portable.Format

namespace SessionTickets

open Time

/-- The identity as it can be stored: its claims keep no properties. -/
def Identity.bare (i : Identity) : Identity :=
  { i with claims := i.claims.map Claim.bare }

/-- The session as it can be stored. -/
def SchemeSession.bare (s : SchemeSession) : SchemeSession :=
  { s with principal := ⟨s.principal.identities.map Identity.bare⟩ }

/-- The session as it can be stored. -/
def IdentitySession.bare (s : IdentitySession) : IdentitySession :=
  { s with identity := s.identity.bare }

@[simp] private theorem instantOf_stampOf (t : Option Instant) : instantOf (stampOf t) = t := by
  cases t <;> rfl

@[simp] private theorem Assertion.ofRecord_toRecord (a : Assertion) : ofRecord a.toRecord = .ok a := by
  simp only [ofRecord, toRecord, instantOf_stampOf]
  exact create_self a

@[simp] private theorem ServiceTicket.ofRecord_toRecord (t : ServiceTicket) :
    ofRecord t.toRecord = .ok t := by
  simp only [ofRecord, toRecord, instantOf_stampOf, Assertion.ofRecord_toRecord]
  exact create_self t

/-- An identity is made again of its record, without the properties of its claims. -/
@[simp] private theorem Identity.ofRecord_toRecord (i : Identity) : ofRecord i.toRecord = .ok i.bare := by
  obtain ⟨authenticationType, claims, nameClaimType, roleClaimType, assertion⟩ := i
  have hclaims : (claims.map Claim.entry).map ClaimEntry.toClaim = claims.map Claim.bare := by
    rw [List.map_map]
    rfl
  cases assertion with
  | none =>
    simp only [ofRecord, toRecord, bare, hclaims]
    rfl
  | some a =>
    simp only [ofRecord, toRecord, bare, hclaims, Option.map_some, Option.mapM_some,
      Assertion.ofRecord_toRecord]
    rfl

@[simp] private theorem Properties.ofRecord_toRecord (p : Properties) : ofRecord p.toRecord = p := by
  simp only [ofRecord, toRecord, instantOf_stampOf]

/-- A scheme session is made again of its record, unless it has no scheme. -/
private theorem SchemeSession.ofRecord_toRecord (s : SchemeSession) :
    ofRecord s.toRecord = if s.scheme = "" then .error .emptyAuthenticationType else .ok s.bare := by
  have hidentities : (s.principal.identities.map Identity.toRecord).mapM Identity.ofRecord =
      .ok (s.principal.identities.map Identity.bare) := by
    generalize s.principal.identities = identities
    induction identities with
    | nil => rfl
    | cons i rest ih =>
      rw [List.map_cons, List.mapM_cons, Identity.ofRecord_toRecord, ih]
      rfl
  simp only [ofRecord, toRecord, hidentities, Properties.ofRecord_toRecord]
  rfl

private theorem IdentitySession.ofRecord_toRecord (s : IdentitySession) :
    ofRecord s.toRecord = .ok s.bare := by
  simp only [ofRecord, toRecord, Identity.ofRecord_toRecord, Properties.ofRecord_toRecord]
  rfl

/-- A portable type whose records are read from all documents that stand for them. -/
class LawfulPortable (α : Type) [Portable α] where
  spelling : Json.Spelling (Portable.format (α := α)).write (Portable.format (α := α)).read?

instance : LawfulPortable Assertion := ⟨AssertionRecord.spelling⟩

instance : LawfulPortable ServiceTicket := ⟨TicketRecord.spelling⟩

instance : LawfulPortable Properties := ⟨PropertiesRecord.spelling⟩

instance : LawfulPortable Identity := ⟨IdentityRecord.spelling⟩

instance : LawfulPortable IdentitySession := ⟨SessionRecord.spelling⟩

instance : LawfulPortable SchemeSession := ⟨SchemeRecord.spelling⟩

namespace Portable

variable {α : Type} [Portable α] [LawfulPortable α]

/-- Bytes are the text of a document that stands for a value, with blanks between its tokens. -/
def Spells (v : α) (bs : List UInt8) : Prop :=
  ∃ j : Json, (LawfulPortable.spelling (α := α)).Allows (toRecord v) j ∧ Json.Spaced j.tokens bs

/-- An encoding spells its value. -/
theorem spells_encode (v : α) : Spells v (encode v) := by
  refine ⟨toJson v, LawfulPortable.spelling.allows_write (toRecord v), ?_⟩
  rw [encode, ← Json.flatten_tokens]
  exact Json.spaced_flatten _

/-- Whatever bytes spell a value, they hold its record. -/
theorem record?_of_spells {v : α} {bs : List UInt8} (h : Spells v bs) : record? bs = some (toRecord v) := by
  obtain ⟨j, hj, hspaced⟩ := h
  rw [record?, (LawfulPortable.spelling.wellFormed hj).ofBytes?_spaced hspaced, Option.bind_some]
  exact LawfulPortable.spelling.read?_eq hj

/-- Whatever bytes spell a value, they are decoded to what its record makes. -/
theorem decode_of_spells {v : α} {bs : List UInt8} (h : Spells v bs) :
    decode bs = (ofRecord (toRecord v)).mapError .invalid := by
  rw [decode, record?_of_spells h]
  simp only
  cases ofRecord (toRecord v) <;> rfl

/-- What is encoded is decoded to what its record makes. -/
theorem decode_encode_eq (v : α) : decode (encode v) = (ofRecord (toRecord v)).mapError .invalid :=
  decode_of_spells (spells_encode v)

end Portable

open Portable

/-- An assertion is decoded from its encoding. -/
theorem Assertion.decode_encode (a : Assertion) : decode (encode a) = .ok a := by
  rw [decode_encode_eq]
  exact congrArg (Except.mapError _) a.ofRecord_toRecord

/-- A ticket is decoded from its encoding. -/
theorem ServiceTicket.decode_encode (t : ServiceTicket) : decode (encode t) = .ok t := by
  rw [decode_encode_eq]
  exact congrArg (Except.mapError _) t.ofRecord_toRecord

/-- Properties are decoded from their encoding. -/
theorem Properties.decode_encode (p : Properties) : decode (encode p) = .ok p := by
  rw [decode_encode_eq]
  exact congrArg Except.ok p.ofRecord_toRecord

/-- An identity is decoded from its encoding, without the properties of its claims. -/
theorem Identity.decode_encode (i : Identity) : decode (encode i) = .ok i.bare := by
  rw [decode_encode_eq]
  exact congrArg (Except.mapError _) i.ofRecord_toRecord

/-- An identity session is decoded from its encoding, without the properties of its claims. -/
theorem IdentitySession.decode_encode (s : IdentitySession) : decode (encode s) = .ok s.bare := by
  rw [decode_encode_eq]
  exact congrArg (Except.mapError _) s.ofRecord_toRecord

/-- A scheme session is decoded from its encoding, unless it has no scheme. -/
theorem SchemeSession.decode_encode (s : SchemeSession) :
    decode (encode s) =
      if s.scheme = "" then .error (.invalid .emptyAuthenticationType) else .ok s.bare := by
  rw [decode_encode_eq]
  refine (congrArg (Except.mapError _) s.ofRecord_toRecord).trans ?_
  split <;> rfl

/-- Decoding undoes encoding for each portable type. Nothing is lost but what a host attached to the
claims of an identity, and nothing is refused but a scheme session without a scheme. -/
theorem Portable.codec_roundTrip :
    (∀ a : Assertion, decode (encode a) = .ok a) ∧
    (∀ t : ServiceTicket, decode (encode t) = .ok t) ∧
    (∀ p : Properties, decode (encode p) = .ok p) ∧
    (∀ i : Identity, decode (encode i) = .ok i.bare) ∧
    (∀ s : IdentitySession, decode (encode s) = .ok s.bare) ∧
    (∀ s : SchemeSession, decode (encode s) =
      if s.scheme = "" then .error (.invalid .emptyAuthenticationType) else .ok s.bare) :=
  ⟨Assertion.decode_encode, ServiceTicket.decode_encode, Properties.decode_encode,
    Identity.decode_encode, IdentitySession.decode_encode, SchemeSession.decode_encode⟩

end SessionTickets
