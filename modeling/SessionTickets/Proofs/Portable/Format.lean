import SessionTickets.Portable.Record
import SessionTickets.Proofs.Json.Spelling
import SessionTickets.Proofs.Time.Stamp

namespace SessionTickets

open Time Json

namespace Json.Spelling

/-- A time is read back from its text. -/
theorem stamp?_ofStamp (s : Stamp) : stamp? (ofStamp s) = some s := by
  have hstring := string.read?_eq (string.allows_write (String.ofList s.text))
  rw [stamp?, ofStamp, hstring, Option.bind_some, String.toList_ofList, Stamp.ofText?_text]

/-- A time is read from every document that stands for it. -/
def stamp : Spelling ofStamp stamp? :=
  exact stamp?_ofStamp (fun _ => string.wellFormed rfl) (fun _ => nofun)

end Json.Spelling

open Json.Spelling

variable {j : Json} {given : List (Option Json)}

namespace ClaimEntry

def slots (c : ClaimEntry) : List Slot :=
  [string.required.of c.type, string.required.of c.value, string.required.of c.valueType,
    string.required.of c.issuer, string.required.of c.firstIssuer]

private theorem read?_of_given {c : ClaimEntry} (h : List.Forall₂ Slot.Allows c.slots given)
    (hfields : j.fields? fieldNames = some given) : Format.read? j = some c := by
  match given, h with
  | _, .cons htype (.cons hvalue (.cons hvalueType (.cons hissuer (.cons hfirst .nil)))) =>
    change (j.fields? _).bind _ = _
    rw [hfields]
    simp [string.required.read?_eq htype, string.required.read?_eq hvalue,
      string.required.read?_eq hvalueType, string.required.read?_eq hissuer, string.required.read?_eq hfirst]

/-- A claim is read from every document that stands for it. -/
def spelling : Spelling (Format.write : ClaimEntry → Json) Format.read? :=
  record fieldNames slots (by decide) (fun _ => rfl) (fun _ => rfl) read?_of_given

end ClaimEntry

namespace AssertionRecord

def slots (a : AssertionRecord) : List Slot :=
  [string.required.of a.principalName, (string.list.map.defaulted .empty).of a.attributes,
    stamp.optional.of a.validFrom, stamp.optional.of a.validUntil]

private theorem read?_of_given {a : AssertionRecord} (h : List.Forall₂ Slot.Allows a.slots given)
    (hfields : j.fields? fieldNames = some given) : Format.read? j = some a := by
  match given, h with
  | _, .cons hname (.cons hattributes (.cons hfrom (.cons huntil .nil))) =>
    change (j.fields? _).bind _ = _
    rw [hfields]
    simp [string.required.read?_eq hname, (string.list.map.defaulted .empty).read?_eq hattributes,
      stamp.optional.read?_eq hfrom, stamp.optional.read?_eq huntil]

/-- An assertion is read from every document that stands for it. -/
def spelling : Spelling (Format.write : AssertionRecord → Json) Format.read? :=
  record fieldNames slots (by decide) (fun _ => rfl) (fun _ => rfl) read?_of_given

end AssertionRecord

namespace TicketRecord

def slots (t : TicketRecord) : List Slot :=
  [string.required.of t.id, string.required.of t.authenticationType,
    AssertionRecord.spelling.required.of t.assertion, (ClaimEntry.spelling.list.defaulted []).of t.claims,
    stamp.optional.of t.issued, stamp.optional.of t.expires]

private theorem read?_of_given {t : TicketRecord} (h : List.Forall₂ Slot.Allows t.slots given)
    (hfields : j.fields? fieldNames = some given) : Format.read? j = some t := by
  match given, h with
  | _, .cons hid (.cons htype (.cons hassertion (.cons hclaims (.cons hissued (.cons hexpires .nil))))) =>
    change (j.fields? _).bind _ = _
    rw [hfields]
    simp [string.required.read?_eq hid, string.required.read?_eq htype,
      AssertionRecord.spelling.required.read?_eq hassertion,
      (ClaimEntry.spelling.list.defaulted []).read?_eq hclaims, stamp.optional.read?_eq hissued,
      stamp.optional.read?_eq hexpires]

/-- A ticket is read from every document that stands for it. -/
def spelling : Spelling (Format.write : TicketRecord → Json) Format.read? :=
  record fieldNames slots (by decide) (fun _ => rfl) (fun _ => rfl) read?_of_given

end TicketRecord

namespace IdentityRecord

def slots (i : IdentityRecord) : List Slot :=
  [string.optional.of i.authenticationType, (ClaimEntry.spelling.list.defaulted []).of i.claims,
    string.required.of i.nameClaimType, string.required.of i.roleClaimType,
    AssertionRecord.spelling.optional.of i.assertion]

private theorem read?_of_given {i : IdentityRecord} (h : List.Forall₂ Slot.Allows i.slots given)
    (hfields : j.fields? fieldNames = some given) : Format.read? j = some i := by
  match given, h with
  | _, .cons htype (.cons hclaims (.cons hname (.cons hrole (.cons hassertion .nil)))) =>
    change (j.fields? _).bind _ = _
    rw [hfields]
    simp [string.optional.read?_eq htype, (ClaimEntry.spelling.list.defaulted []).read?_eq hclaims,
      string.required.read?_eq hname, string.required.read?_eq hrole,
      AssertionRecord.spelling.optional.read?_eq hassertion]

/-- An identity is read from every document that stands for it. -/
def spelling : Spelling (Format.write : IdentityRecord → Json) Format.read? :=
  record fieldNames slots (by decide) (fun _ => rfl) (fun _ => rfl) read?_of_given

end IdentityRecord

namespace PropertiesRecord

def slots (p : PropertiesRecord) : List Slot :=
  [(string.map.defaulted .empty).of p.items, stamp.optional.of p.issued, stamp.optional.of p.expires]

private theorem read?_of_given {p : PropertiesRecord} (h : List.Forall₂ Slot.Allows p.slots given)
    (hfields : j.fields? fieldNames = some given) : Format.read? j = some p := by
  match given, h with
  | _, .cons hitems (.cons hissued (.cons hexpires .nil)) =>
    change (j.fields? _).bind _ = _
    rw [hfields]
    simp [(string.map.defaulted .empty).read?_eq hitems, stamp.optional.read?_eq hissued,
      stamp.optional.read?_eq hexpires]

/-- Session properties are read from every document that stands for them. -/
def spelling : Spelling (Format.write : PropertiesRecord → Json) Format.read? :=
  record fieldNames slots (by decide) (fun _ => rfl) (fun _ => rfl) read?_of_given

end PropertiesRecord

namespace SchemeRecord

def slots (s : SchemeRecord) : List Slot :=
  [string.required.of s.scheme, IdentityRecord.spelling.list.required.of s.identities,
    (PropertiesRecord.spelling.defaulted .empty).of s.properties]

private theorem read?_of_given {s : SchemeRecord} (h : List.Forall₂ Slot.Allows s.slots given)
    (hfields : j.fields? fieldNames = some given) : Format.read? j = some s := by
  match given, h with
  | _, .cons hscheme (.cons hidentities (.cons hproperties .nil)) =>
    change (j.fields? _).bind _ = _
    rw [hfields]
    simp [string.required.read?_eq hscheme, IdentityRecord.spelling.list.required.read?_eq hidentities,
      (PropertiesRecord.spelling.defaulted .empty).read?_eq hproperties]

/-- A scheme session is read from every document that stands for it. -/
def spelling : Spelling (Format.write : SchemeRecord → Json) Format.read? :=
  record fieldNames slots (by decide) (fun _ => rfl) (fun _ => rfl) read?_of_given

end SchemeRecord

namespace SessionRecord

def slots (s : SessionRecord) : List Slot :=
  [IdentityRecord.spelling.required.of s.identity, (PropertiesRecord.spelling.defaulted .empty).of s.properties]

private theorem read?_of_given {s : SessionRecord} (h : List.Forall₂ Slot.Allows s.slots given)
    (hfields : j.fields? fieldNames = some given) : Format.read? j = some s := by
  match given, h with
  | _, .cons hidentity (.cons hproperties .nil) =>
    change (j.fields? _).bind _ = _
    rw [hfields]
    simp [IdentityRecord.spelling.required.read?_eq hidentity,
      (PropertiesRecord.spelling.defaulted .empty).read?_eq hproperties]

/-- An identity session is read from every document that stands for it. -/
def spelling : Spelling (Format.write : SessionRecord → Json) Format.read? :=
  record fieldNames slots (by decide) (fun _ => rfl) (fun _ => rfl) read?_of_given

end SessionRecord

end SessionTickets
