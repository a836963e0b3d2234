import SessionTickets.Proofs.Portable.RoundTrip

namespace SessionTickets

open Time

/-- The rules of an assertion: it names a principal, and its window does not end before it starts. -/
def Assertion.Valid (a : Assertion) : Prop :=
  a.principalName ≠ "" ∧ WindowOrdered a.validFrom a.validUntil

private theorem Assertion.valid (a : Assertion) : a.Valid :=
  ⟨a.principalName_ne, a.ordered⟩

/-- The rules of a service ticket and of its assertion. -/
def ServiceTicket.Valid (t : ServiceTicket) : Prop :=
  t.id ≠ "" ∧ t.authenticationType ≠ "" ∧ t.assertion.Valid

private theorem ServiceTicket.valid (t : ServiceTicket) : t.Valid :=
  ⟨t.id_ne, t.authenticationType_ne, t.assertion.valid⟩

/-- The assertion of an identity keeps its rules, and no claim has properties. -/
def Identity.Canonical (i : Identity) : Prop :=
  (∀ a ∈ i.assertion, a.Valid) ∧ ∀ c ∈ i.claims, c.properties = .empty

/-- The identity of a session is canonical. -/
def IdentitySession.Canonical (s : IdentitySession) : Prop :=
  s.identity.Canonical

/-- A scheme session names its scheme, and its identities are canonical. -/
def SchemeSession.Canonical (s : SchemeSession) : Prop :=
  s.scheme ≠ "" ∧ ∀ i ∈ s.principal.identities, i.Canonical

private theorem Claim.bare_eq {c : Claim} (h : c.properties = .empty) : c.bare = c := by
  rw [bare, ← h]

private theorem Identity.Canonical.bare_eq {i : Identity} (h : i.Canonical) : i.bare = i := by
  have hclaims : i.claims.map Claim.bare = i.claims :=
    (List.map_congr_left fun c hc => Claim.bare_eq (h.2 c hc)).trans (List.map_id _)
  rw [bare, hclaims]

private theorem IdentitySession.Canonical.bare_eq {s : IdentitySession} (h : s.Canonical) : s.bare = s := by
  rw [bare, Identity.Canonical.bare_eq h]

private theorem SchemeSession.Canonical.bare_eq {s : SchemeSession} (h : s.Canonical) : s.bare = s := by
  have hidentities : s.principal.identities.map Identity.bare = s.principal.identities :=
    (List.map_congr_left fun i hi => (h.2 i hi).bare_eq).trans (List.map_id _)
  rw [bare, hidentities]

/-- Claims of records have no properties, so an identity made of a record is canonical. -/
private theorem Identity.canonical_ofRecord {r : IdentityRecord} {i : Identity} (h : ofRecord r = .ok i) :
    i.Canonical := by
  unfold ofRecord at h
  cases hassertion : r.assertion.mapM Assertion.ofRecord with
  | error fault =>
    rw [hassertion] at h
    cases h
  | ok assertion =>
    rw [hassertion] at h
    cases h
    refine ⟨fun a _ => a.valid, ?_⟩
    intro c hc
    obtain ⟨entry, -, rfl⟩ := List.mem_map.1 hc
    rfl

private theorem Identity.canonical_mapM_ofRecord {records : List IdentityRecord} {identities : List Identity}
    (h : records.mapM ofRecord = .ok identities) : ∀ i ∈ identities, i.Canonical := by
  induction records generalizing identities with
  | nil =>
    rw [List.mapM_nil] at h
    cases h
    intro i hi
    cases hi
  | cons r rest ih =>
    rw [List.mapM_cons] at h
    cases hhead : ofRecord r with
    | error fault =>
      rw [hhead] at h
      cases h
    | ok i =>
      cases hrest : rest.mapM ofRecord with
      | error fault =>
        rw [hhead, hrest] at h
        cases h
      | ok others =>
        rw [hhead, hrest] at h
        cases h
        exact List.forall_mem_cons.2 ⟨canonical_ofRecord hhead, ih hrest⟩

private theorem IdentitySession.canonical_ofRecord {r : SessionRecord} {s : IdentitySession}
    (h : ofRecord r = .ok s) : s.Canonical := by
  unfold ofRecord at h
  cases hidentity : Identity.ofRecord r.identity with
  | error fault =>
    rw [hidentity] at h
    cases h
  | ok i =>
    rw [hidentity] at h
    cases h
    exact Identity.canonical_ofRecord hidentity

/-- A session made of a record is canonical: without a scheme none is made. -/
private theorem SchemeSession.canonical_ofRecord {r : SchemeRecord} {s : SchemeSession}
    (h : ofRecord r = .ok s) : s.Canonical := by
  unfold ofRecord at h
  split at h
  · cases h
  · next hscheme =>
    cases hidentities : r.identities.mapM Identity.ofRecord with
    | error fault =>
      rw [hidentities] at h
      cases h
    | ok identities =>
      rw [hidentities] at h
      cases h
      exact ⟨hscheme, Identity.canonical_mapM_ofRecord hidentities⟩

namespace Portable

variable {α : Type} [Portable α] {bs : List UInt8} {v : α}

private theorem decode_eq_ok (h : decode bs = .ok v) :
    ∃ r, record? (α := α) bs = some r ∧ ofRecord r = .ok v := by
  unfold decode at h
  cases hrecord : record? (α := α) bs with
  | none =>
    rw [hrecord] at h
    cases h
  | some r =>
    simp only [hrecord] at h
    cases hvalue : ofRecord (α := α) r with
    | error fault =>
      simp only [hvalue] at h
      cases h
    | ok a =>
      simp only [hvalue] at h
      cases h
      exact ⟨r, rfl, hvalue⟩

/-- The standard spelling of what bytes say. -/
def respell (α : Type) [Portable α] (bs : List UInt8) : Except CodecError (List UInt8) :=
  (decode (α := α) bs).map encode

/-- Decoding yields the canonical values, and every one of them is decoded from its own encoding. So to encode
what was decoded brings every spelling to one, and to do so again changes nothing. -/
structure LandsOn (Canonical : α → Prop) : Prop where
  decoded_iff : ∀ v : α, (∃ bs, decode bs = .ok v) ↔ Canonical v
  decode_encode : ∀ (bs : List UInt8) (v : α), decode bs = .ok v → decode (encode v) = .ok v
  respell_respell : ∀ bs, (respell α bs).bind (respell α) = respell α bs

/-- It is enough that the values of records are canonical, and that canonical values are decoded again. -/
theorem landsOn {Canonical : α → Prop} (hsound : ∀ {r} {v : α}, ofRecord r = .ok v → Canonical v)
    (hcomplete : ∀ {v : α}, Canonical v → decode (encode v) = .ok v) : LandsOn Canonical := by
  have hcanonical : ∀ {bs} {v : α}, decode bs = .ok v → Canonical v := by
    intro bs v h
    obtain ⟨r, -, hr⟩ := decode_eq_ok h
    exact hsound hr
  refine ⟨?_, fun bs v h => hcomplete (hcanonical h), ?_⟩
  · intro v
    exact ⟨fun ⟨bs, h⟩ => hcanonical h, fun h => ⟨encode v, hcomplete h⟩⟩
  · intro bs
    cases hdecode : decode (α := α) bs with
    | error e =>
      rw [respell, hdecode]
      rfl
    | ok v =>
      rw [respell, hdecode]
      change (decode (α := α) (encode v)).map encode = _
      rw [hcomplete (hcanonical hdecode)]

/-- Whatever bytes are decoded, the values are the canonical ones of each portable type. -/
theorem landsOn_canonical :
    LandsOn Assertion.Valid ∧ LandsOn ServiceTicket.Valid ∧ LandsOn (fun _ : Properties => True) ∧
      LandsOn Identity.Canonical ∧ LandsOn IdentitySession.Canonical ∧
      LandsOn SchemeSession.Canonical := by
  refine ⟨landsOn (fun _ => ?_) fun _ => ?_, landsOn (fun _ => ?_) fun _ => ?_,
    landsOn (fun _ => ?_) fun _ => ?_, landsOn ?_ fun h => ?_, landsOn ?_ fun h => ?_, landsOn ?_ fun h => ?_⟩
  · exact Assertion.valid _
  · exact Assertion.decode_encode _
  · exact ServiceTicket.valid _
  · exact ServiceTicket.decode_encode _
  · trivial
  · exact Properties.decode_encode _
  · exact Identity.canonical_ofRecord
  · rw [Identity.decode_encode, h.bare_eq]
  · exact IdentitySession.canonical_ofRecord
  · rw [IdentitySession.decode_encode, h.bare_eq]
  · exact SchemeSession.canonical_ofRecord
  · rw [SchemeSession.decode_encode, if_neg h.1, h.bare_eq]

end Portable

end SessionTickets
