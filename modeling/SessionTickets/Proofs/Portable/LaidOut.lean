import SessionTickets.Proofs.Portable.Delimited
import SessionTickets.Proofs.Portable.Layout

namespace SessionTickets

open Time Json Layout

def stampDatum (s : Stamp) : Datum :=
  .time s.instant

/-- What a field says that need not have a value. -/
def optionDatum {α : Type} (datum : α → Datum) (x : Option α) : Datum :=
  (x.map datum).getD .absent

def listDatum {α : Type} (datum : α → Datum) (xs : List α) : Datum :=
  .list (xs.map datum)

def mapDatum {α : Type} (datum : α → Datum) (m : SortedMap α) : Datum :=
  .map (m.entries.map fun e => (e.1, datum e.2))

namespace ClaimEntry

def layout : Layout :=
  .record [
    ("type", .required, .text),
    ("value", .required, .text),
    ("value_type", .required, .text),
    ("issuer", .required, .text),
    ("original_issuer", .required, .text)]

def datum (c : ClaimEntry) : Datum :=
  .record [.text c.type, .text c.value, .text c.valueType, .text c.issuer, .text c.firstIssuer]

private theorem layout_describes : Describes layout Format.read? datum := by
  refine .record fun given hlength => ?_
  match given, hlength with
  | [_, _, _, _, _], _ =>
    refine readFields?_cons_map (Describes.text.required _) fun type => ?_
    refine readFields?_cons_map (Describes.text.required _) fun value => ?_
    refine readFields?_cons_map (Describes.text.required _) fun valueType => ?_
    refine readFields?_cons_map (Describes.text.required _) fun issuer => ?_
    exact readFields?_cons_map (Describes.text.required _) fun firstIssuer => rfl

end ClaimEntry

namespace AssertionRecord

def layout : Layout :=
  .record [
    ("principal_name", .required, .text),
    ("attributes", .defaulted (.map []), .map (.list .text)),
    ("valid_from", .optional, .time),
    ("valid_until", .optional, .time)]

def datum (a : AssertionRecord) : Datum :=
  .record [.text a.principalName, mapDatum (listDatum .text) a.attributes, optionDatum stampDatum a.validFrom,
    optionDatum stampDatum a.validUntil]

private theorem layout_describes : Describes layout Format.read? datum := by
  refine .record fun given hlength => ?_
  match given, hlength with
  | [_, _, _, _], _ =>
    refine readFields?_cons_map (Describes.text.required _) fun principalName => ?_
    refine readFields?_cons_map (Describes.text.list.map.defaulted _ .empty) fun attributes => ?_
    refine readFields?_cons_map (Describes.time.optional _) fun validFrom => ?_
    exact readFields?_cons_map (Describes.time.optional _) fun validUntil => rfl

end AssertionRecord

namespace TicketRecord

def layout : Layout :=
  .record [
    ("ticket_id", .required, .text),
    ("authentication_type", .required, .text),
    ("assertion", .required, AssertionRecord.layout),
    ("claims", .defaulted (.list []), .list ClaimEntry.layout),
    ("issued_utc", .optional, .time),
    ("expires_utc", .optional, .time)]

def datum (t : TicketRecord) : Datum :=
  .record [.text t.id, .text t.authenticationType, t.assertion.datum, listDatum ClaimEntry.datum t.claims,
    optionDatum stampDatum t.issued, optionDatum stampDatum t.expires]

private theorem layout_describes : Describes layout Format.read? datum := by
  refine .record fun given hlength => ?_
  match given, hlength with
  | [_, _, _, _, _, _], _ =>
    refine readFields?_cons_map (Describes.text.required _) fun id => ?_
    refine readFields?_cons_map (Describes.text.required _) fun authenticationType => ?_
    refine readFields?_cons_map (AssertionRecord.layout_describes.required _) fun assertion => ?_
    refine readFields?_cons_map (ClaimEntry.layout_describes.list.defaulted _ []) fun claims => ?_
    refine readFields?_cons_map (Describes.time.optional _) fun issued => ?_
    exact readFields?_cons_map (Describes.time.optional _) fun expires => rfl

end TicketRecord

namespace IdentityRecord

def layout : Layout :=
  .record [
    ("authentication_type", .optional, .text),
    ("claims", .defaulted (.list []), .list ClaimEntry.layout),
    ("name_claim_type", .required, .text),
    ("role_claim_type", .required, .text),
    ("assertion", .optional, AssertionRecord.layout)]

def datum (i : IdentityRecord) : Datum :=
  .record [optionDatum .text i.authenticationType, listDatum ClaimEntry.datum i.claims, .text i.nameClaimType,
    .text i.roleClaimType, optionDatum AssertionRecord.datum i.assertion]

private theorem layout_describes : Describes layout Format.read? datum := by
  refine .record fun given hlength => ?_
  match given, hlength with
  | [_, _, _, _, _], _ =>
    refine readFields?_cons_map (Describes.text.optional _) fun authenticationType => ?_
    refine readFields?_cons_map (ClaimEntry.layout_describes.list.defaulted _ []) fun claims => ?_
    refine readFields?_cons_map (Describes.text.required _) fun nameClaimType => ?_
    refine readFields?_cons_map (Describes.text.required _) fun roleClaimType => ?_
    exact readFields?_cons_map (AssertionRecord.layout_describes.optional _) fun assertion => rfl

end IdentityRecord

namespace PropertiesRecord

def layout : Layout :=
  .record [
    ("items", .defaulted (.map []), .map .text),
    ("issued_utc", .optional, .time),
    ("expires_utc", .optional, .time)]

def datum (p : PropertiesRecord) : Datum :=
  .record [mapDatum .text p.items, optionDatum stampDatum p.issued, optionDatum stampDatum p.expires]

private theorem layout_describes : Describes layout Format.read? datum := by
  refine .record fun given hlength => ?_
  match given, hlength with
  | [_, _, _], _ =>
    refine readFields?_cons_map (Describes.text.map.defaulted _ .empty) fun items => ?_
    refine readFields?_cons_map (Describes.time.optional _) fun issued => ?_
    exact readFields?_cons_map (Describes.time.optional _) fun expires => rfl

end PropertiesRecord

namespace SchemeRecord

def layout : Layout :=
  .record [
    ("authentication_scheme", .required, .text),
    ("identities", .required, .list IdentityRecord.layout),
    ("properties", .defaulted (PropertiesRecord.datum .empty), PropertiesRecord.layout)]

def datum (s : SchemeRecord) : Datum :=
  .record [.text s.scheme, listDatum IdentityRecord.datum s.identities, s.properties.datum]

private theorem layout_describes : Describes layout Format.read? datum := by
  refine .record fun given hlength => ?_
  match given, hlength with
  | [_, _, _], _ =>
    refine readFields?_cons_map (Describes.text.required _) fun scheme => ?_
    refine readFields?_cons_map (IdentityRecord.layout_describes.list.required _) fun identities => ?_
    exact readFields?_cons_map (PropertiesRecord.layout_describes.defaulted _ .empty) fun properties => rfl

end SchemeRecord

namespace SessionRecord

def layout : Layout :=
  .record [
    ("identity", .required, IdentityRecord.layout),
    ("properties", .defaulted (PropertiesRecord.datum .empty), PropertiesRecord.layout)]

def datum (s : SessionRecord) : Datum :=
  .record [s.identity.datum, s.properties.datum]

private theorem layout_describes : Describes layout Format.read? datum := by
  refine .record fun given hlength => ?_
  match given, hlength with
  | [_, _], _ =>
    refine readFields?_cons_map (IdentityRecord.layout_describes.required _) fun identity => ?_
    exact readFields?_cons_map (PropertiesRecord.layout_describes.defaulted _ .empty) fun properties => rfl

end SessionRecord

/-- Fields that say the same have the same value, or none. -/
private theorem map_eq_of_optionDatum_eq {α : Type} {datum : α → Datum} {x x' : Option α}
    (h : optionDatum datum x = optionDatum datum x') (hne : ∀ x, datum x ≠ .absent) :
    x.map datum = x'.map datum := by
  cases x with
  | none =>
    cases x' with
    | none => rfl
    | some x' => exact absurd h.symm (hne x')
  | some x =>
    cases x' with
    | none => exact absurd h (hne x)
    | some x' => exact congrArg some h

private theorem instantOf_eq {s s' : Option Stamp} (h : optionDatum stampDatum s = optionDatum stampDatum s') :
    instantOf s = instantOf s' := by
  have htimes := map_eq_of_optionDatum_eq h fun _ => nofun
  have htime : Function.Injective Datum.time := fun _ _ => Datum.time.inj
  apply Option.map_injective htime
  rw [instantOf, instantOf, Option.map_map, Option.map_map]
  exact htimes

private theorem listDatum_injective {α : Type} {datum : α → Datum} (h : Function.Injective datum) :
    Function.Injective (listDatum datum) :=
  fun _ _ heq => List.map_injective_iff.2 h (Datum.list.inj heq)

private theorem mapDatum_injective {α : Type} {datum : α → Datum} (h : Function.Injective datum) :
    Function.Injective (mapDatum datum) := by
  intro m m' heq
  have hentry : Function.Injective fun e : String × α => (e.1, datum e.2) := by
    intro e e' hboth
    obtain ⟨hkey, hvalue⟩ := Prod.mk.inj hboth
    exact Prod.ext hkey (h hvalue)
  exact SortedMap.ext (List.map_injective_iff.2 hentry (Datum.map.inj heq))

private theorem text_injective : Function.Injective Datum.text :=
  fun _ _ => Datum.text.inj

private theorem ClaimEntry.datum_injective : Function.Injective datum := by
  intro c c' h
  simp only [datum, Datum.record.injEq, List.cons.injEq, Datum.text.injEq, and_true] at h
  obtain ⟨htype, hvalue, hvalueType, hissuer, hfirst⟩ := h
  exact ClaimEntry.ext htype hvalue hvalueType hissuer hfirst

private theorem Assertion.ofRecord_congr {r r' : AssertionRecord} (h : r.datum = r'.datum) :
    ofRecord r = ofRecord r' := by
  simp only [AssertionRecord.datum, Datum.record.injEq, List.cons.injEq, Datum.text.injEq, and_true] at h
  obtain ⟨hname, hattributes, hfrom, huntil⟩ := h
  rw [ofRecord, ofRecord, hname, mapDatum_injective (listDatum_injective text_injective) hattributes,
    instantOf_eq hfrom, instantOf_eq huntil]

private theorem ServiceTicket.ofRecord_congr {r r' : TicketRecord} (h : r.datum = r'.datum) :
    ofRecord r = ofRecord r' := by
  simp only [TicketRecord.datum, Datum.record.injEq, List.cons.injEq, Datum.text.injEq, and_true] at h
  obtain ⟨hid, htype, hassertion, hclaims, hissued, hexpires⟩ := h
  rw [ofRecord, ofRecord, Assertion.ofRecord_congr hassertion, hid, htype,
    listDatum_injective ClaimEntry.datum_injective hclaims, instantOf_eq hissued, instantOf_eq hexpires]

private theorem Properties.ofRecord_congr {r r' : PropertiesRecord} (h : r.datum = r'.datum) :
    ofRecord r = ofRecord r' := by
  simp only [PropertiesRecord.datum, Datum.record.injEq, List.cons.injEq, and_true] at h
  obtain ⟨hitems, hissued, hexpires⟩ := h
  rw [ofRecord, ofRecord, mapDatum_injective text_injective hitems, instantOf_eq hissued, instantOf_eq hexpires]

private theorem Identity.ofRecord_congr {r r' : IdentityRecord} (h : r.datum = r'.datum) :
    ofRecord r = ofRecord r' := by
  simp only [IdentityRecord.datum, Datum.record.injEq, List.cons.injEq, Datum.text.injEq, and_true] at h
  obtain ⟨htype, hclaims, hname, hrole, hassertion⟩ := h
  have htype : r.authenticationType = r'.authenticationType :=
    Option.map_injective text_injective (map_eq_of_optionDatum_eq htype fun _ => nofun)
  have hassertion : r.assertion.mapM Assertion.ofRecord = r'.assertion.mapM Assertion.ofRecord := by
    have hmap := map_eq_of_optionDatum_eq hassertion fun _ => nofun
    cases ha : r.assertion with
    | none =>
      rw [ha, Option.map_none] at hmap
      rw [Option.map_eq_none_iff.1 hmap.symm]
    | some a =>
      rw [ha, Option.map_some] at hmap
      obtain ⟨a', ha', hdatum⟩ := Option.map_eq_some_iff.1 hmap.symm
      rw [ha', Option.mapM_some, Option.mapM_some, Assertion.ofRecord_congr hdatum]
  rw [ofRecord, ofRecord, htype, listDatum_injective ClaimEntry.datum_injective hclaims, hname, hrole, hassertion]

/-- The same identities, or the same first fault, come of lists of records that say the same. -/
private theorem Identity.mapM_ofRecord_congr {rs rs' : List IdentityRecord}
    (h : rs.map IdentityRecord.datum = rs'.map IdentityRecord.datum) : rs.mapM ofRecord = rs'.mapM ofRecord := by
  induction rs generalizing rs' with
  | nil => rw [List.map_eq_nil_iff.1 h.symm]
  | cons r rs ih =>
    obtain ⟨r', rs', rfl, hr, hrs⟩ := List.map_eq_cons_iff.1 h.symm
    rw [List.mapM_cons, List.mapM_cons, ofRecord_congr hr.symm, ih hrs.symm]

private theorem SchemeSession.ofRecord_congr {r r' : SchemeRecord} (h : r.datum = r'.datum) :
    ofRecord r = ofRecord r' := by
  simp only [SchemeRecord.datum, Datum.record.injEq, List.cons.injEq, Datum.text.injEq, and_true] at h
  obtain ⟨hscheme, hidentities, hproperties⟩ := h
  rw [ofRecord, ofRecord, hscheme, Identity.mapM_ofRecord_congr (Datum.list.inj hidentities),
    Properties.ofRecord_congr hproperties]

private theorem IdentitySession.ofRecord_congr {r r' : SessionRecord} (h : r.datum = r'.datum) :
    ofRecord r = ofRecord r' := by
  simp only [SessionRecord.datum, Datum.record.injEq, List.cons.injEq, and_true] at h
  obtain ⟨hidentity, hproperties⟩ := h
  rw [ofRecord, ofRecord, Identity.ofRecord_congr hidentity, Properties.ofRecord_congr hproperties]

/-- A portable type with a layout, which reads all that a value is made from. -/
class LaidOut (α : Type) [Portable α] where
  layout : Layout
  datum : Portable.Record α → Datum
  describes : Describes layout (Portable.format (α := α)).read? datum
  ofRecord_congr : ∀ {r r' : Portable.Record α}, datum r = datum r' → Portable.ofRecord r = Portable.ofRecord r'

instance : LaidOut Assertion :=
  ⟨AssertionRecord.layout, AssertionRecord.datum, AssertionRecord.layout_describes, Assertion.ofRecord_congr⟩

instance : LaidOut ServiceTicket :=
  ⟨TicketRecord.layout, TicketRecord.datum, TicketRecord.layout_describes, ServiceTicket.ofRecord_congr⟩

instance : LaidOut Properties :=
  ⟨PropertiesRecord.layout, PropertiesRecord.datum, PropertiesRecord.layout_describes,
    fun h => congrArg Except.ok (Properties.ofRecord_congr h)⟩

instance : LaidOut Identity :=
  ⟨IdentityRecord.layout, IdentityRecord.datum, IdentityRecord.layout_describes, Identity.ofRecord_congr⟩

instance : LaidOut IdentitySession :=
  ⟨SessionRecord.layout, SessionRecord.datum, SessionRecord.layout_describes, IdentitySession.ofRecord_congr⟩

instance : LaidOut SchemeSession :=
  ⟨SchemeRecord.layout, SchemeRecord.datum, SchemeRecord.layout_describes, SchemeSession.ofRecord_congr⟩

namespace Portable

/-- An encoding is the text of the document that was written. -/
theorem ofBytes?_encode {α : Type} [Portable α] [LawfulPortable α] (v : α) :
    Json.ofBytes? (encode v) = some (toJson v) :=
  (LawfulPortable.spelling.wellFormed (LawfulPortable.spelling.allows_write (toRecord v))).ofBytes?_write

variable {α : Type} [Portable α] [LaidOut α] {bs bs' : List UInt8} {j j' : Json}

/-- A document can be read exactly if it says something. -/
theorem not_unreadable_iff_read? (hj : Json.ofBytes? bs = some j) :
    ¬ Unreadable α bs ↔ (LaidOut.layout α).read? j ≠ none := by
  rw [not_unreadable_iff, record?, hj, Option.bind_some, LaidOut.describes, ne_eq, Option.map_eq_none_iff,
    ← ne_eq, Option.ne_none_iff_exists']
  rfl

/-- A document that says nothing cannot be read. -/
theorem unreadable_of_read?_eq_none (hj : Json.ofBytes? bs = some j)
    (hread : (LaidOut.layout α).read? j = none) : Unreadable α bs := by
  have hrecord : record? (α := α) bs = none := by
    rw [LaidOut.describes, Option.map_eq_none_iff] at hread
    rw [record?, hj, Option.bind_some]
    exact hread
  refine ⟨"no document of the expected form", ?_⟩
  rw [decode, hrecord]

/-- Documents that say the same are decoded alike. -/
theorem decode_eq_of_read?_eq (hj : Json.ofBytes? bs = some j) (hj' : Json.ofBytes? bs' = some j')
    (hread : (LaidOut.layout α).read? j = (LaidOut.layout α).read? j') :
    decode (α := α) bs = decode bs' := by
  have hrecord : record? (α := α) bs = format.read? j := by rw [record?, hj]; rfl
  have hrecord' : record? (α := α) bs' = format.read? j' := by rw [record?, hj']; rfl
  rw [LaidOut.describes, LaidOut.describes] at hread
  rw [decode, decode, hrecord, hrecord']
  cases hr : (format (α := α)).read? j with
  | none =>
    rw [hr, Option.map_none] at hread
    rw [Option.map_eq_none_iff.1 hread.symm]
  | some r =>
    rw [hr, Option.map_some] at hread
    obtain ⟨r', hr', hdatum⟩ := Option.map_eq_some_iff.1 hread.symm
    rw [hr']
    simp only [LaidOut.ofRecord_congr hdatum]

end Portable

end SessionTickets
