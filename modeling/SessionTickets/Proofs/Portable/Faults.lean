import SessionTickets.Proofs.Portable.LaidOut

namespace SessionTickets

open Json Layout

variable {fields : List FieldLayout} {members : Members}

/-- Why no record is read from an object. -/
inductive Faulty (fields : List FieldLayout) : Members → Prop
  /-- A field stands there again, be it with the same value. -/
  | repeated {name : String} {key : List UInt8} {value : Json} (before after : Members)
    (hfield : name ∈ fields.map (·.1)) (hkey : Quoted.read? key = some name)
    (hagain : ∃ m ∈ after, Quoted.read? m.1 = some name) : Faulty fields (before ++ (key, value) :: after)
  /-- A field without a default is not there. -/
  | missing {name : String} {layout : Layout} {members : Members} (hfield : (name, .required, layout) ∈ fields)
    (hmissing : ∀ m ∈ members, Quoted.read? m.1 ≠ some name) : Faulty fields members
  /-- A field that is not optional is null. -/
  | null {name : String} {presence : Presence} {layout : Layout} {key : List UInt8} {members : Members}
    (hfield : (name, presence, layout) ∈ fields) (hpresence : presence ≠ .optional)
    (hkey : Quoted.read? key = some name) (hmember : (key, .null) ∈ members) : Faulty fields members

private theorem exists_key_of_mem_named {named : List (String × Json)} (hnamed : namedMembers? members = some named)
    {m : String × Json} (hm : m ∈ named) : ∃ m' ∈ members, Quoted.read? m'.1 = some m.1 := by
  induction members generalizing named with
  | nil =>
    cases hnamed
    cases hm
  | cons m' members ih =>
    rw [namedMembers?_cons, Option.bind_eq_some_iff] at hnamed
    obtain ⟨name, hname, hnamed⟩ := hnamed
    obtain ⟨rest, hrest, rfl⟩ := Option.map_eq_some_iff.1 hnamed
    obtain rfl | hm := List.mem_cons.1 hm
    · exact ⟨m', .head _, hname⟩
    · obtain ⟨m'', hm'', hname'⟩ := ih hrest hm
      exact ⟨m'', .tail _ hm'', hname'⟩

private theorem mem_named_of_mem {name : String} {named : List (String × Json)}
    (hnamed : namedMembers? members = some named) {m : List UInt8 × Json} (hm : m ∈ members)
    (hname : Quoted.read? m.1 = some name) : (name, m.2) ∈ named := by
  obtain ⟨before, after, rfl⟩ := List.append_of_mem hm
  obtain ⟨b, a, -, rfl⟩ := named_of_append_cons hname hnamed
  simp

private theorem Presence.read?_null {presence : Presence} (hpresence : presence ≠ .optional) (layout : Layout) :
    presence.read? layout.read? (some .null) = none := by
  cases presence with
  | required => exact layout.read?_null
  | defaulted => exact layout.read?_null
  | optional => exact absurd rfl hpresence

/-- No record is read from a faulty object. -/
theorem Faulty.read?_eq_none (h : Faulty fields members) : (Layout.record fields).read? (.object members) = none := by
  cases h with
  | @repeated name key value before after hfield hkey hagain =>
    obtain ⟨field, hmem, rfl⟩ := List.mem_map.1 hfield
    obtain ⟨m, hm, hname⟩ := hagain
    refine read?_object_eq_none hmem fun named hnamed => ?_
    obtain ⟨b, a, ha, rfl⟩ := named_of_append_cons hkey hnamed
    have hagain : (field.1, m.2) ∈ (b ++ a).filter (·.1 = field.1) :=
      List.mem_filter.2 ⟨List.mem_append_right _ (mem_named_of_mem ha hm hname), decide_eq_true rfl⟩
    rw [member?_append_cons, if_neg (List.ne_nil_of_mem hagain), Option.bind_none]
  | @missing name layout _ hfield hmissing =>
    refine read?_object_eq_none hfield fun named hnamed => ?_
    have hnone : named.filter (·.1 = name) = [] := by
      refine List.filter_eq_nil_iff.2 fun m hm hname => ?_
      obtain ⟨m', hm', hkey⟩ := exists_key_of_mem_named hnamed hm
      exact hmissing m' hm' (of_decide_eq_true hname ▸ hkey)
    rw [member?, hnone]
    rfl
  | null hfield hpresence hkey hmember =>
    refine read?_object_eq_none hfield fun named hnamed => ?_
    obtain ⟨before, after, rfl⟩ := List.append_of_mem hmember
    obtain ⟨b, a, -, rfl⟩ := named_of_append_cons hkey hnamed
    rw [member?_append_cons]
    split
    · exact Presence.read?_null hpresence _
    · rfl

/-- The members of a map are replaced by what is written for the map that has the last value of each key. -/
inductive Collected : Layout → Json → Json → Prop
  | texts {entries : List (String × String)} {members : Members} {m : SortedMap String}
    (hmembers : List.Forall₂ (fun e m => Quoted.read? m.1 = some e.1 ∧ string? m.2 = some e.2)
      entries members)
    (hlast : ∀ key, m.find? key = entries.reverse.lookup key) :
    Collected (.map .text) (.object members) (ofMap ofString m)
  | lists {entries : List (String × List String)} {members : Members} {m : SortedMap (List String)}
    (hmembers : List.Forall₂ (fun e m => Quoted.read? m.1 = some e.1 ∧ list? string? m.2 = some e.2)
      entries members)
    (hlast : ∀ key, m.find? key = entries.reverse.lookup key) :
    Collected (.map (.list .text)) (.object members) (ofMap (ofList ofString) m)

private theorem ofMap_ne_null {α : Type} (write : α → Json) (m : SortedMap α) : ofMap write m ≠ .null := by
  simp [ofMap]

/-- Of a map a layout reads what it reads of what is written for the last values of its keys. -/
private theorem read?_map_eq {α : Type} {value : Layout} {write : α → Json} {read : Json → Option α}
    {datum : α → Datum} (hvalue : Describes value read datum) (s : Spelling write read)
    {entries : List (String × α)} {members : Members} {m : SortedMap α}
    (hmembers : List.Forall₂ (fun e m => Quoted.read? m.1 = some e.1 ∧ read m.2 = some e.2)
      entries members)
    (hlast : ∀ key, m.find? key = entries.reverse.lookup key) :
    (Layout.map value).read? (.object members) = (Layout.map value).read? (ofMap write m) := by
  have hm : SortedMap.ofList entries = m := by
    apply SortedMap.ext_find?
    intro key
    rw [SortedMap.find?_ofList, hlast]
  rw [hvalue.map, hvalue.map, Spelling.map?_of_forall₂ hmembers, hm, s.map.read?_eq (s.map.allows_write m)]

/-- Of the entries with one key the last one counts. -/
theorem Collected.read?_eq {l : Layout} {p p' : Json} (h : Collected l p p') :
    p ≠ .null ∧ p' ≠ .null ∧ l.read? p = l.read? p' := by
  cases h with
  | texts hmembers hlast =>
    exact ⟨by simp, ofMap_ne_null _ _, read?_map_eq Describes.text .string hmembers hlast⟩
  | lists hmembers hlast =>
    exact ⟨by simp, ofMap_ne_null _ _, read?_map_eq Describes.text.list Spelling.string.list hmembers hlast⟩

namespace Portable

/-- Faults of objects are not passed over, and repeated keys of maps are no faults. What a value is decoded to
again is given. -/
structure RefusesFaults (α : Type) [Portable α] [LaidOut α] (decoded : α → Except CodecError α) : Prop where
  /-- A faulty object makes a document unreadable wherever it stands for a record. -/
  unreadable : ∀ bs around fields members, Json.ofBytes? bs = some (around (.object members)) →
    Place (LaidOut.layout α) around (.record fields) → Faulty fields members → Unreadable α bs
  /-- Where maps have several entries with one key, a document is decoded as if each had its last one only. -/
  last_counts : ∀ bs bs' j j', Json.ofBytes? bs = some j → Json.ofBytes? bs' = some j' →
    Rewrites Collected (LaidOut.layout α) j j' → decode (α := α) bs = decode bs'
  accepted : ∀ bs j (v : α), Json.ofBytes? bs = some j → Rewrites Collected (LaidOut.layout α) j (toJson v) →
    decode bs = decoded v

/-- Faults are refused by every portable type, since its layout says nothing where an object is faulty. -/
private theorem refusesFaults {α : Type} [Portable α] [LawfulPortable α] [LaidOut α]
    {decoded : α → Except CodecError α} (hdecoded : ∀ v : α, decode (encode v) = decoded v) :
    RefusesFaults α decoded := by
  have hlast : ∀ bs bs' j j', Json.ofBytes? bs = some j → Json.ofBytes? bs' = some j' →
      Rewrites Collected (LaidOut.layout α) j j' → decode (α := α) bs = decode bs' := by
    intro bs bs' j j' hj hj' h
    exact decode_eq_of_read?_eq hj hj' (h.read?_eq Collected.read?_eq)
  refine ⟨?_, hlast, ?_⟩
  · intro bs around fields members hj hplace hfaulty
    have hobject : Json.object members ≠ .null := by simp
    exact unreadable_of_read?_eq_none hj (hplace.read?_eq_none hobject hfaulty.read?_eq_none)
  · intro bs j v hj h
    exact (hlast bs (encode v) j (toJson v) hj (ofBytes?_encode v) h).trans (hdecoded v)

end Portable

open Portable

/-- No portable type is decoded from a document with a faulty object in it, and of repeated keys in maps the
last one counts. -/
theorem Portable.faults_unreadable :
    RefusesFaults Assertion .ok ∧ RefusesFaults ServiceTicket .ok ∧ RefusesFaults Properties .ok ∧
    RefusesFaults Identity (fun i => .ok i.bare) ∧ RefusesFaults IdentitySession (fun s => .ok s.bare) ∧
    RefusesFaults SchemeSession fun s =>
      if s.scheme = "" then .error (.invalid .emptyAuthenticationType) else .ok s.bare :=
  ⟨refusesFaults Assertion.decode_encode, refusesFaults ServiceTicket.decode_encode,
    refusesFaults Properties.decode_encode, refusesFaults Identity.decode_encode,
    refusesFaults IdentitySession.decode_encode, refusesFaults SchemeSession.decode_encode⟩

/-- A claim of the second identity has its issuer twice, with the same value. The session names no scheme, but
is unreadable before that is looked at. Two items of properties have one key, of which the later one counts. -/
theorem Portable.faults_unreadable_nested :
    let field (name : String) (j : Json) : List UInt8 × Json := (Quoted.write name, j)
    let identity (claims : List Json) : Json := .object [
      field "name_claim_type" (ofString ""), field "claims" (.array claims), field "role_claim_type" (ofString "")]
    let session (claims : List Json) : Json := .object [
      field "authentication_scheme" (ofString ""), field "" .null,
      field "identities" (.array [identity [], identity claims])]
    let claim : ClaimEntry := ⟨"", "", "", "", ""⟩
    let faulty : Members := [
      field "type" (ofString ""), field "issuer" (ofString ""), field "value" (ofString ""),
      field "value_type" (ofString ""), field "original_issuer" (ofString ""), field "issuer" (ofString "")]
    let properties (items : Members) : Json := .object [field "items" (.object items)]
    let both := [field "k" (ofString "1"), field "k" (ofString "2")]
    let last : Properties := ⟨.ofList [("k", "2")], none, none⟩
    decode (α := SchemeSession) (session [Format.write claim]).write = .error (.invalid .emptyAuthenticationType) ∧
    Unreadable SchemeSession (session [Format.write claim, .object faulty]).write ∧
    decode (properties both).write = .ok last := by
  intro field identity session claim faulty properties both last
  obtain ⟨-, -, hproperties, -, -, hsession⟩ := faults_unreadable
  have hname : ∀ name, Quoted.read? (Quoted.write name) = some name := Quoted.read?_write
  have hissuer : ∃ m ∈ faulty.drop 2, Quoted.read? m.1 = some "issuer" :=
    ⟨field "issuer" (ofString ""), by simp [faulty], hname "issuer"⟩
  have hclaims : Place IdentityRecord.layout (fun j => identity [Format.write claim, j]) ClaimEntry.layout :=
    .field [field "name_claim_type" (ofString "")] [field "role_claim_type" (ofString "")] rfl
      (hname "claims") (.item [Format.write claim] [] (.here _))
  have hplace : Place SchemeRecord.layout (fun j => session [Format.write claim, j]) ClaimEntry.layout :=
    .field [field "authentication_scheme" (ofString ""), field "" .null] [] rfl (hname "identities")
      (.item [identity []] [] hclaims)
  have hcollected : Rewrites Collected PropertiesRecord.layout (properties both) (toJson last) := by
    refine .step (.field [] [] rfl (hname "items") (.here _)) ?_ (.refl _)
    refine @Collected.texts [("k", "1"), ("k", "2")] both last.items ?_ fun key => ?_
    · exact .cons ⟨hname "k", rfl⟩ (.cons ⟨hname "k", rfl⟩ .nil)
    · rw [SortedMap.find?_ofList]
      by_cases hkey : key = "k" <;> simp [SortedMap.lookup_cons_if, hkey]
  have hscheme : decode (α := SchemeSession) (session [Format.write claim]).write =
      .error (.invalid .emptyAuthenticationType) := by rfl
  have hj : Json.ofBytes? (session [Format.write claim, .object faulty]).write =
      some (session [Format.write claim, .object faulty]) := by rfl
  refine ⟨hscheme, hsession.unreadable _ _ _ faulty hj hplace ?_, ?_⟩
  · exact .repeated [field "type" (ofString "")] (faulty.drop 2) (by decide) (hname "issuer") hissuer
  · exact hproperties.accepted _ (properties both) last (by rfl) hcollected

end SessionTickets
