import SessionTickets.Proofs.Portable.LaidOut
import SessionTickets.Proofs.Portable.Rules

namespace SessionTickets

open Json Layout

/-- What a field may hold where it has to hold something, to say the same as if it were left out. -/
inductive IsDefault : FieldLayout → Json → Prop
  | null {name : String} {l : Layout} : IsDefault (name, .optional, l) .null
  | value {name : String} {default : Datum} {l : Layout} {j : Json} (hread : l.read? j = some default)
    (hform : j.WellFormed) : IsDefault (name, .defaulted default, l) j

/-- The fields of each record have names of their own, and those that may be left out can hold their defaults. -/
inductive Layout.Sound : Layout → Prop
  | text : Sound .text
  | time : Sound .time
  | list {item : Layout} (hitem : Sound item) : Sound (.list item)
  | map (value : Layout) : Sound (.map value)
  | record {fields : List FieldLayout} (hnodup : (fields.map (·.1)).Nodup)
    (hdefaults : ∀ field ∈ fields, field.2.1 ≠ .required → ∃ j, IsDefault field j)
    (hfields : ∀ field ∈ fields, Sound field.2.2) : Sound (.record fields)

/-- A record that stands as an object stands as an array: its fields in order, and null for one without a
value. Members that are no fields have no place in the array. -/
inductive Arranged : Layout → Json → Json → Prop
  | intro {fields : List FieldLayout} {given : List (Option Json)} {p : Json}
    (hgiven : List.Forall₂ (fun field value => value = none → field.2.1 = .optional) fields given)
    (hobject : ObjectOf ((fields.map (·.1)).zip given) p) :
    Arranged (.record fields) p (.array (given.map (·.getD .null)))

variable {fields : List FieldLayout} {items : List Json} {l l' : Layout} {around : Json → Json} {p p' j j' : Json}

private theorem Layout.Place.sound (h : Place l around l') (hl : l.Sound) : l'.Sound := by
  induction h with
  | here => exact hl
  | item _ _ _ ih =>
    cases hl with
    | list hitem => exact ih hitem
  | field _ _ honly _ _ ih =>
    cases hl with
    | record _ _ hfields =>
      exact ih (hfields _ (List.mem_of_mem_filter (honly ▸ List.mem_singleton_self _)))
  | position _ _ _ _ ih =>
    cases hl with
    | record _ _ hfields => exact ih (hfields _ (List.mem_append_right _ (.head _)))

private theorem Json.wellFormed_array_iff : (Json.array items).WellFormed ↔ ∀ item ∈ items, item.WellFormed := by
  refine ⟨fun h => ?_, .array⟩
  cases h with
  | array hitems => exact hitems

private theorem Json.WellFormed.array_append_cons {before after : List Json}
    (h : (Json.array (before ++ j :: after)).WellFormed) :
    j.WellFormed ∧ ∀ j' : Json, j'.WellFormed → (Json.array (before ++ j' :: after)).WellFormed := by
  obtain ⟨hbefore, hrest⟩ := List.forall_mem_append.1 (wellFormed_array_iff.1 h)
  obtain ⟨hitem, hafter⟩ := List.forall_mem_cons.1 hrest
  refine ⟨hitem, fun j' hj' => .array ?_⟩
  exact List.forall_mem_append.2 ⟨hbefore, List.forall_mem_cons.2 ⟨hj', hafter⟩⟩

/-- Parts of parts are parts. -/
theorem Layout.Place.trans {l'' : Layout} {around' : Json → Json} (h : Place l around l')
    (h' : Place l' around' l'') : Place l (fun j => around (around' j)) l'' := by
  induction h with
  | here => exact h'
  | item before after _ ih => exact .item before after (ih h')
  | field before after honly hkey _ ih => exact .field before after honly hkey (ih h')
  | position before after hlength _ ih => exact .position before after hlength (ih h')

private theorem Layout.Rewrites.trans {Change : Layout → Json → Json → Prop} {j'' : Json}
    (h : Rewrites Change l j j')
    (h' : Rewrites Change l j' j'') : Rewrites Change l j j'' := by
  induction h with
  | refl => exact h'
  | step hplace hpart _ ih => exact .step hplace hpart (ih h')

/-- What changes in a part changes in the document. -/
theorem Layout.Rewrites.inside {Change : Layout → Json → Json → Prop} (h : Rewrites Change l' p p')
    (hplace : Place l around l') : Rewrites Change l (around p) (around p') := by
  induction h with
  | refl => exact .refl _
  | @step _ around' _ _ _ hinner hpart _ ih =>
    exact @Rewrites.step _ _ _ (fun j => around (around' j)) _ _ _ (hplace.trans hinner) hpart ih

/-- A document of the right form has parts of the right form, and may have others of the right form. -/
theorem Layout.Place.wellFormed (h : Place l around l') (hp : (around p).WellFormed) :
    p.WellFormed ∧ ∀ p' : Json, p'.WellFormed → (around p').WellFormed := by
  induction h with
  | here => exact ⟨hp, fun _ hp' => hp'⟩
  | item before after _ ih =>
    obtain ⟨hitem, hitems⟩ := hp.array_append_cons
    obtain ⟨hpart, hparts⟩ := ih hitem
    exact ⟨hpart, fun p' hp' => hitems _ (hparts p' hp')⟩
  | field before after _ _ _ ih =>
    cases hp with
    | object hkeys hvalues =>
      obtain ⟨hkeysBefore, hkeysRest⟩ := List.forall_mem_append.1 hkeys
      obtain ⟨hkey, hkeysAfter⟩ := List.forall_mem_cons.1 hkeysRest
      obtain ⟨hbefore, hrest⟩ := List.forall_mem_append.1 hvalues
      obtain ⟨hvalue, hafter⟩ := List.forall_mem_cons.1 hrest
      obtain ⟨hpart, hparts⟩ := ih hvalue
      refine ⟨hpart, fun p' hp' => .object ?_ ?_⟩
      · exact List.forall_mem_append.2 ⟨hkeysBefore, List.forall_mem_cons.2 ⟨hkey, hkeysAfter⟩⟩
      · exact List.forall_mem_append.2 ⟨hbefore, List.forall_mem_cons.2 ⟨hparts p' hp', hafter⟩⟩
  | position before after _ _ ih =>
    obtain ⟨hitem, hitems⟩ := hp.array_append_cons
    obtain ⟨hpart, hparts⟩ := ih hitem
    exact ⟨hpart, fun p' hp' => hitems _ (hparts p' hp')⟩

namespace Layout

/-- There are no more values than fields. -/
theorem read?_array_of_lt (h : fields.length < items.length) : (record fields).read? (.array items) = none := by
  rw [read?, fields?, List.length_map, if_neg (Nat.not_le.2 h)]
  rfl

/-- Fields at the end of an array may be missing. -/
private theorem read?_array_of_le (h : items.length ≤ fields.length) :
    (record fields).read? (.array items) =
      (readFields? fields (items.map some ++ List.replicate (fields.length - items.length) none)).map .record := by
  rw [read?, fields?, List.length_map, if_pos h, Option.bind_some]

private theorem read?_array_of_length_eq (h : items.length = fields.length) :
    (record fields).read? (.array items) = (readFields? fields (items.map some)).map .record := by
  rw [read?_array_of_le (Nat.le_of_eq h), h, Nat.sub_self, List.replicate_zero, List.append_nil]

/-- The first fields are read alike, whatever is given for the others. -/
theorem read?_array_take_append (hlength : items.length = fields.length) (n : Nat) (rest : List Json)
    (hrest : rest.length ≤ (fields.drop n).length) :
    (record fields).read? (.array (items.take n ++ rest)) =
      ((readFields? (fields.take n) ((items.take n).map some)).bind fun ds =>
        (readFields? (fields.drop n)
          (rest.map some ++ List.replicate ((fields.drop n).length - rest.length) none)).map (ds ++ ·)).map
        .record := by
  have hfirst : (fields.take n).length = ((items.take n).map some).length := by simp [hlength]
  have hsplit : fields.length = (items.take n).length + (fields.drop n).length := by
    rw [List.length_take, List.length_drop]
    omega
  have hmissing : fields.length - (items.take n ++ rest).length = (fields.drop n).length - rest.length := by
    rw [List.length_append]
    omega
  rw [read?_array_of_le (by rw [List.length_append]; omega), hmissing, List.map_append, List.append_assoc,
    ← readFields?_append hfirst, List.take_append_drop]

/-- Fields without values are null in an array. -/
theorem readFields?_map_getD {given : List (Option Json)}
    (h : List.Forall₂ (fun field value => value = none → field.2.1 = .optional) fields given) :
    readFields? fields ((given.map (·.getD .null)).map some) = readFields? fields given := by
  induction h with
  | nil => rfl
  | @cons field value fields given hfield _ ih =>
    rw [List.map_cons, List.map_cons, readFields?_cons, readFields?_cons, ih]
    cases value with
    | some value => rfl
    | none =>
      obtain ⟨name, presence, layout⟩ := field
      obtain rfl : presence = .optional := hfield rfl
      rfl

/-- Fields that hold their defaults say the same as if they were left out. -/
private theorem readFields?_map_default {defaults : List Json} (h : List.Forall₂ IsDefault fields defaults) :
    readFields? fields (defaults.map some) = readFields? fields (List.replicate fields.length none) := by
  induction h with
  | nil => rfl
  | cons hfield _ ih =>
    rw [List.map_cons, List.length_cons, List.replicate_succ, readFields?_cons, readFields?_cons, ih]
    cases hfield with
    | null => rfl
    | value hread _ => rw [readField?, Presence.read?, defaulted?, hread]; rfl

/-- Fields may be left out exactly if none of them has to be there. -/
theorem readFields?_replicate_ne_none :
    readFields? fields (List.replicate fields.length none) ≠ none ↔
      ∀ field ∈ fields, field.2.1 ≠ .required := by
  induction fields with
  | nil => simp [readFields?]
  | cons field fields ih =>
    rw [List.length_cons, List.replicate_succ, readFields?_cons, List.forall_mem_cons, ← ih]
    obtain ⟨name, presence, layout⟩ := field
    cases presence with
    | required => simp [readField?, Presence.read?, required?]
    | optional => simp [readField?, Presence.read?, Json.optional?]
    | defaulted => simp [readField?, Presence.read?, defaulted?]

/-- An array that is read may be cut where the fields behind have defaults, and nowhere else. -/
theorem read?_take_ne_none (hlength : items.length = fields.length)
    (hread : (record fields).read? (.array items) ≠ none) (n : Nat) :
    (record fields).read? (.array (items.take n)) ≠ none ↔
      ∀ field ∈ fields.drop n, field.2.1 ≠ .required := by
  have hcut := read?_array_take_append hlength n [] (Nat.zero_le _)
  have hwhole := read?_array_take_append hlength n (items.drop n) (by simp [hlength])
  rw [List.append_nil, List.map_nil, List.nil_append, List.length_nil, Nat.sub_zero] at hcut
  rw [List.take_append_drop] at hwhole
  rw [hwhole] at hread
  rw [hcut, ← readFields?_replicate_ne_none]
  cases hfirst : readFields? (fields.take n) ((items.take n).map some) with
  | none =>
    rw [hfirst] at hread
    exact absurd rfl hread
  | some ds => simp

/-- An array that is cut is read as if it went on with defaults. -/
theorem read?_take_append_default {n : Nat} {defaults : List Json} (hlength : items.length = fields.length)
    (hdefaults : List.Forall₂ IsDefault (fields.drop n) defaults) :
    (record fields).read? (.array (items.take n)) = (record fields).read? (.array (items.take n ++ defaults)) := by
  have hcut := read?_array_take_append hlength n [] (Nat.zero_le _)
  have hwhole := read?_array_take_append hlength n defaults (Nat.le_of_eq hdefaults.length_eq.symm)
  rw [List.append_nil, List.map_nil, List.nil_append, List.length_nil, Nat.sub_zero] at hcut
  rw [hcut, hwhole, hdefaults.length_eq, Nat.sub_self, List.replicate_zero, List.append_nil,
    readFields?_map_default hdefaults, hdefaults.length_eq]

end Layout

namespace Arranged

private theorem ne_null (h : Arranged l p p') : p ≠ .null ∧ p' ≠ .null := by
  cases h with
  | intro _ hobject => exact ⟨hobject.ne_null, nofun⟩

/-- An object and its array say the same. -/
private theorem read?_eq (h : Arranged l p p') (hl : l.Sound) : l.read? p = l.read? p' := by
  cases h with
  | @intro fields given p hgiven hobject =>
    cases hl with
    | record hnodup _ _ =>
      have hlength := hgiven.length_eq
      have hnames : ((fields.map (·.1)).zip given).map (·.1) = fields.map (·.1) := List.map_fst_zip (by simp; omega)
      have hvalues : ((fields.map (·.1)).zip given).map (·.2) = given := List.map_snd_zip (by simp; omega)
      have hfields := hobject.fields?_eq (hnames.symm ▸ hnodup)
      rw [hnames, hvalues] at hfields
      rw [read?_array_of_length_eq (by simp [hlength]), readFields?_map_getD hgiven, read?, hfields,
        Option.bind_some]

private theorem wellFormed (h : Arranged l p p') (hp : p.WellFormed) : p'.WellFormed := by
  cases h with
  | @intro fields given p hgiven hobject =>
    cases hobject with
    | @intro members foreign hmembers hforeign =>
      cases hp with
      | object _ hvalues =>
        refine .array fun item hitem => ?_
        obtain ⟨value, hvalue, rfl⟩ := List.mem_map.1 hitem
        cases value with
        | none => exact .null
        | some j =>
          have hlength : given.length ≤ (fields.map (·.1)).length := by
            rw [List.length_map]
            exact Nat.le_of_eq hgiven.length_eq.symm
          rw [← List.map_snd_zip hlength] at hvalue
          obtain ⟨⟨name, _⟩, hname, rfl⟩ := List.mem_map.1 hvalue
          have hmember : (Quoted.write name, j) ∈ members := by
            refine hmembers.symm.subset (List.mem_append_left _ (List.mem_map.2 ⟨(name, j), ?_, rfl⟩))
            exact List.mem_filterMap.2 ⟨(name, some j), hname, rfl⟩
          exact hvalues _ hmember

end Arranged

/-- A document says the same with arrays for some of its objects. -/
private theorem Layout.Rewrites.arranged_read?_eq (h : Rewrites Arranged l j j') (hl : l.Sound) :
    l.read? j = l.read? j' := by
  induction h with
  | refl => rfl
  | step hplace hpart _ ih =>
    obtain ⟨hp, hp'⟩ := hpart.ne_null
    exact (hplace.read?_congr hp hp' (hpart.read?_eq (hplace.sound hl))).trans ih

private theorem Layout.Rewrites.arranged_wellFormed (h : Rewrites Arranged l j j') (hj : j.WellFormed) :
    j'.WellFormed := by
  induction h with
  | refl => exact hj
  | step hplace hpart _ ih =>
    obtain ⟨hp, hothers⟩ := hplace.wellFormed hj
    exact ih (hothers _ (hpart.wellFormed hp))

/-- Each field that may be left out can hold its default. -/
theorem Layout.Sound.exists_default (hl : (Layout.record fields).Sound) {n : Nat}
    (hrest : ∀ field ∈ fields.drop n, field.2.1 ≠ .required) :
    ∃ defaults, List.Forall₂ IsDefault (fields.drop n) defaults := by
  cases hl with
  | record _ hdefaults _ =>
    have hall : ∀ field ∈ fields.drop n, ∃ j, IsDefault field j :=
      fun field hfield => hdefaults field (List.mem_of_mem_drop hfield) (hrest field hfield)
    generalize fields.drop n = fs at hall
    induction fs with
    | nil => exact ⟨[], .nil⟩
    | cons field fs ih =>
      obtain ⟨⟨j, hj⟩, hall⟩ := List.forall_mem_cons.1 hall
      obtain ⟨defaults, hdefaults⟩ := ih hall
      exact ⟨j :: defaults, .cons hj hdefaults⟩

namespace IsDefault

variable {name : String}

private theorem exists_optional : ∃ j, IsDefault (name, .optional, l) j :=
  ⟨.null, .null⟩

private theorem exists_list : ∃ j, IsDefault (name, .defaulted (.list []), .list l) j :=
  ⟨.array [], .value rfl (.array nofun)⟩

private theorem exists_map : ∃ j, IsDefault (name, .defaulted (.map []), .map l) j :=
  ⟨.object [], .value rfl (.object nofun nofun)⟩

private theorem exists_properties :
    ∃ j, IsDefault (name, .defaulted (PropertiesRecord.datum .empty), PropertiesRecord.layout) j :=
  ⟨.object [], .value rfl (.object nofun nofun)⟩

private theorem wellFormed {field : FieldLayout} (h : IsDefault field j) : j.WellFormed := by
  cases h with
  | null => exact .null
  | value _ hform => exact hform

end IsDefault

open IsDefault

private theorem ClaimEntry.layout_sound : layout.Sound := by
  refine .record (by decide) ?_ ?_
  · simp
  · simp [Sound.text]

private theorem AssertionRecord.layout_sound : layout.Sound := by
  refine .record (by decide) ?_ ?_
  · simp [exists_optional, exists_map]
  · simp [Sound.text, Sound.time, Sound.map]

private theorem TicketRecord.layout_sound : layout.Sound := by
  refine .record (by decide) ?_ ?_
  · simp [exists_optional, exists_list]
  · simp [Sound.text, Sound.time, AssertionRecord.layout_sound, Sound.list ClaimEntry.layout_sound]

private theorem IdentityRecord.layout_sound : layout.Sound := by
  refine .record (by decide) ?_ ?_
  · simp [exists_optional, exists_list]
  · simp [Sound.text, AssertionRecord.layout_sound, Sound.list ClaimEntry.layout_sound]

private theorem PropertiesRecord.layout_sound : layout.Sound := by
  refine .record (by decide) ?_ ?_
  · simp [exists_optional, exists_map]
  · simp [Sound.time, Sound.map]

private theorem SchemeRecord.layout_sound : layout.Sound := by
  refine .record (by decide) ?_ ?_
  · simp [exists_properties]
  · simp [Sound.text, Sound.list IdentityRecord.layout_sound, PropertiesRecord.layout_sound]

private theorem SessionRecord.layout_sound : layout.Sound := by
  refine .record (by decide) ?_ ?_
  · simp [exists_properties]
  · simp [IdentityRecord.layout_sound, PropertiesRecord.layout_sound]

namespace Portable

variable {α : Type} [Portable α] [LawfulPortable α] [LaidOut α]

/-- A document holds a record, of which every part that is a record stands as an object or as an array. -/
def HoldsRecord (r : Record α) (j : Json) : Prop :=
  ∃ objects, (LawfulPortable.spelling (α := α)).Allows r objects ∧ Rewrites Arranged (LaidOut.layout α) objects j

/-- Arrays are decoded as objects are. -/
structure ReadsArrays (α : Type) [Portable α] [LawfulPortable α] [LaidOut α] : Prop where
  ofBytes?_write : ∀ (r : Record α) j, HoldsRecord r j → Json.ofBytes? j.write = some j
  /-- Whichever records stand as arrays, a document is decoded as the one that is written for its record. -/
  decode_eq : ∀ (r : Record α) j bs, HoldsRecord r j → Json.ofBytes? bs = some j →
    decode (α := α) bs = decode (written r) ∧ decode (written r) = (ofRecord r).mapError .invalid
  /-- An array may be cut exactly where no field behind has to be there. -/
  cut_iff : ∀ (r : Record α) around fields items n bs, HoldsRecord r (around (.array items)) →
    Place (LaidOut.layout α) around (.record fields) → items.length = fields.length →
    Json.ofBytes? bs = some (around (.array (items.take n))) →
    (¬ Unreadable α bs ↔ ∀ field ∈ fields.drop n, field.2.1 ≠ .required)
  /-- The fields that are left out then have their defaults, which can be written. -/
  decode_cut : ∀ (r : Record α) around fields items n bs, HoldsRecord r (around (.array items)) →
    Place (LaidOut.layout α) around (.record fields) → items.length = fields.length →
    Json.ofBytes? bs = some (around (.array (items.take n))) →
    (∀ field ∈ fields.drop n, field.2.1 ≠ .required) →
    (∃ defaults, List.Forall₂ IsDefault (fields.drop n) defaults) ∧
    ∀ defaults, List.Forall₂ IsDefault (fields.drop n) defaults →
      let whole := around (.array (items.take n ++ defaults))
      Json.ofBytes? whole.write = some whole ∧ decode (α := α) bs = decode whole.write
  /-- An array with more values than the record has fields makes a document unreadable. -/
  unreadable : ∀ around fields items bs, Place (LaidOut.layout α) around (.record fields) →
    fields.length < items.length → Json.ofBytes? bs = some (around (.array items)) → Unreadable α bs

/-- It is enough that the layout is sound. -/
theorem readsArrays (hsound : (LaidOut.layout α).Sound) : ReadsArrays α := by
  have hform : ∀ {r : Record α} {j}, HoldsRecord r j → j.WellFormed := by
    rintro r j ⟨objects, hobjects, hrewrites⟩
    exact hrewrites.arranged_wellFormed (LawfulPortable.spelling.wellFormed hobjects)
  have hread : ∀ {r : Record α} {j}, HoldsRecord r j →
      (LaidOut.layout α).read? j = (LaidOut.layout α).read? (format.write r) ∧
        (LaidOut.layout α).read? j ≠ none := by
    rintro r j ⟨objects, hobjects, hrewrites⟩
    rw [← hrewrites.arranged_read?_eq hsound, LaidOut.describes, LaidOut.describes,
      LawfulPortable.spelling.read?_eq hobjects,
      LawfulPortable.spelling.read?_eq (LawfulPortable.spelling.allows_write r)]
    exact ⟨rfl, Option.some_ne_none _⟩
  have harray : ∀ items, Json.array items ≠ .null := by
    intro items h
    cases h
  refine ⟨fun r j hj => (hform hj).ofBytes?_write, ?_, ?_, ?_, ?_⟩
  · intro r j bs hj hbs
    have hwritten := (LawfulPortable.spelling.wellFormed (LawfulPortable.spelling.allows_write r)).ofBytes?_write
    exact ⟨decode_eq_of_read?_eq hbs hwritten (hread hj).1, decode_of_spellsRecord (spellsRecord_written r)⟩
  · intro r around fields items n bs hholds hplace hlength hbs
    have hwhole := (hread hholds).2
    have hitems := (hplace.read?_ne_none (harray items) (harray items) hwhole).1 hwhole
    rw [not_unreadable_iff_read? hbs, hplace.read?_ne_none (harray items) (harray _) hwhole,
      read?_take_ne_none hlength hitems]
  · intro r around fields items n bs hholds hplace hlength hbs hrest
    refine ⟨(hplace.sound hsound).exists_default hrest, fun defaults hdefaults => ?_⟩
    obtain ⟨hitems, hothers⟩ := hplace.wellFormed (hform hholds)
    have hwhole : (around (.array (items.take n ++ defaults))).WellFormed := by
      refine hothers _ (.array (List.forall_mem_append.2 ⟨fun item hitem => ?_, fun item hitem => ?_⟩))
      · exact wellFormed_array_iff.1 hitems item (List.mem_of_mem_take hitem)
      · obtain ⟨field, -, hfield⟩ := exists_of_forall₂ hdefaults item hitem
        exact hfield.wellFormed
    refine ⟨hwhole.ofBytes?_write, decode_eq_of_read?_eq hbs hwhole.ofBytes?_write ?_⟩
    exact hplace.read?_congr (harray _) (harray _) (read?_take_append_default hlength hdefaults)
  · intro around fields items bs hplace hlt hbs
    exact unreadable_of_read?_eq_none hbs (hplace.read?_eq_none (harray items) (read?_array_of_lt hlt))

end Portable

open Portable

/-- Every portable type is decoded from arrays as from objects. -/
theorem Portable.arrays_decoded :
    ReadsArrays Assertion ∧ ReadsArrays ServiceTicket ∧ ReadsArrays Properties ∧ ReadsArrays Identity ∧
      ReadsArrays IdentitySession ∧ ReadsArrays SchemeSession :=
  ⟨readsArrays AssertionRecord.layout_sound, readsArrays TicketRecord.layout_sound,
    readsArrays PropertiesRecord.layout_sound, readsArrays IdentityRecord.layout_sound,
    readsArrays SessionRecord.layout_sound, readsArrays SchemeRecord.layout_sound⟩

/-- The second identity of a session is an array, and so are its claim and its assertion and the session itself.
The properties of the session may be left out, but not the role claim type of the identity, and the claim may
not have a sixth value. -/
theorem Portable.arrays_decoded_nested :
    let claim : ClaimEntry := ⟨"name", "user", "string", "CAS", "CAS"⟩
    let assertion : AssertionRecord := ⟨"user", .empty, none, none⟩
    let identity : IdentityRecord := ⟨none, [claim], "name", "role", some assertion⟩
    let session : SchemeRecord := ⟨"CAS", [identity, identity], .empty⟩
    let claimItems := [ofString "name", ofString "user", ofString "string", ofString "CAS", ofString "CAS"]
    let assertionItems := [ofString "user", .object [], .null, .null]
    let identityItems (claim : List Json) :=
      [.null, .array [.array claim], ofString "name", ofString "role", .array assertionItems]
    let sessionItems (second : List Json) :=
      [ofString "CAS", .array [Format.write identity, .array second], Format.write PropertiesRecord.empty]
    let whole : Json := .array (sessionItems (identityItems claimItems))
    let cut : Json := .array ((sessionItems (identityItems claimItems)).take 2)
    let cutInside : Json := .array (sessionItems ((identityItems claimItems).take 3))
    let more : Json := .array (sessionItems (identityItems (claimItems ++ [.null])))
    HoldsRecord (α := SchemeSession) session whole ∧
      decode (α := SchemeSession) whole.write = decode (written (α := SchemeSession) session) ∧
      decode (α := SchemeSession) cut.write = decode (written (α := SchemeSession) session) ∧
      Unreadable SchemeSession cutInside.write ∧ Unreadable SchemeSession more.write := by
  intro claim assertion identity session claimItems assertionItems identityItems sessionItems whole cut cutInside
    more
  obtain ⟨-, -, -, -, -, hsession⟩ := arrays_decoded
  have hname : ∀ name, Quoted.read? (Quoted.write name) = some name := Quoted.read?_write
  have htext : ∀ s, (ofString s).WellFormed := fun s => .text (Quoted.isToken_write s)
  let member (name : String) (j : Json) : List UInt8 × Json := (Quoted.write name, j)
  have hclaim : Arranged ClaimEntry.layout (Format.write claim) (.array claimItems) :=
    @Arranged.intro _ (claimItems.map some) _ (by simp [claimItems]) (.ofFields _)
  have hassertion : Arranged AssertionRecord.layout (Format.write assertion) (.array assertionItems) :=
    @Arranged.intro _ [some (ofString "user"), some (.object []), none, none] _ (by simp) (.ofFields _)
  have hidentity : Rewrites Arranged IdentityRecord.layout (Format.write identity)
      (.array (identityItems claimItems)) := by
    have hclaims : Place IdentityRecord.layout (fun j => .object [member "claims" (.array [j]),
        member "name_claim_type" (ofString "name"), member "role_claim_type" (ofString "role"),
        member "assertion" (Format.write assertion)]) ClaimEntry.layout :=
      .field [] _ rfl (hname "claims") (.item [] [] (.here _))
    have hinner : Place IdentityRecord.layout (fun j => .object [member "claims" (.array [.array claimItems]),
        member "name_claim_type" (ofString "name"), member "role_claim_type" (ofString "role"),
        member "assertion" j]) AssertionRecord.layout :=
      .field [_, _, _] [] rfl (hname "assertion") (.here _)
    refine .step hclaims hclaim (.step hinner hassertion (.step (.here _) ?_ (.refl _)))
    exact @Arranged.intro _ [none, some (.array [.array claimItems]), some (ofString "name"),
      some (ofString "role"), some (.array assertionItems)] _ (by simp) (.ofFields _)
  have hsecond : Place SchemeRecord.layout (fun j => .object [
      member "authentication_scheme" (ofString "CAS"),
      member "identities" (.array [Format.write identity, j]),
      member "properties" (Format.write PropertiesRecord.empty)]) IdentityRecord.layout :=
    .field [_] [_] rfl (hname "identities") (.item [_] [] (.here _))
  have hholds : HoldsRecord (α := SchemeSession) session whole := by
    refine ⟨_, SchemeRecord.spelling.allows_write session, (hidentity.inside hsecond).trans ?_⟩
    refine .step (.here _) ?_ (.refl _)
    exact @Arranged.intro _ ((sessionItems (identityItems claimItems)).map some) _ (by simp [sessionItems])
      (.ofFields _)
  have hwhole : Json.ofBytes? whole.write = some whole := hsession.ofBytes?_write session whole hholds
  have hsessionForm : ∀ second : List Json, (∀ item ∈ second, item.WellFormed) →
      ∀ item ∈ sessionItems second, item.WellFormed := by
    have hfirst := IdentityRecord.spelling.wellFormed (IdentityRecord.spelling.allows_write identity)
    have hproperties := PropertiesRecord.spelling.wellFormed (PropertiesRecord.spelling.allows_write .empty)
    simp [sessionItems, wellFormed_array_iff, htext, hfirst, hproperties]
  have hidentityForm : ∀ claim : List Json, (∀ item ∈ claim, item.WellFormed) →
      ∀ item ∈ identityItems claim, item.WellFormed := by
    have hempty : (Json.object []).WellFormed := .object nofun nofun
    simp [identityItems, assertionItems, wellFormed_array_iff, htext, hempty, Json.WellFormed.null]
  have hclaimForm : ∀ item ∈ claimItems, item.WellFormed := by simp [claimItems, htext]
  have hcut : Json.ofBytes? cut.write = some cut :=
    (Json.WellFormed.array fun item hitem => hsessionForm _ (hidentityForm _ hclaimForm) item
      (List.mem_of_mem_take hitem)).ofBytes?_write
  have hcutInside : Json.ofBytes? cutInside.write = some cutInside :=
    (Json.WellFormed.array (hsessionForm _ fun item hitem => hidentityForm _ hclaimForm item
      (List.mem_of_mem_take hitem))).ofBytes?_write
  have hmore : Json.ofBytes? more.write = some more := by
    have hitems : ∀ item ∈ claimItems ++ [.null], item.WellFormed :=
      List.forall_mem_append.2 ⟨hclaimForm, List.forall_mem_singleton.2 .null⟩
    exact (Json.WellFormed.array (hsessionForm _ (hidentityForm _ hitems))).ofBytes?_write
  have hidentityPlace : Place SchemeRecord.layout
      (fun j => .array [ofString "CAS", .array [Format.write identity, j], Format.write PropertiesRecord.empty])
      IdentityRecord.layout :=
    @Place.position [(_, _, _)] [_] _ _ _ _ _ [_] [_] rfl (.item [_] [] (.here _))
  have hclaimPlace : Place IdentityRecord.layout
      (fun j => .array [.null, .array [j], ofString "name", ofString "role", .array assertionItems])
      ClaimEntry.layout :=
    @Place.position [(_, _, _)] [_, _, _] _ _ _ _ _ [_] [_, _, _] rfl (.item [] [] (.here _))
  have hempty : IsDefault ("properties", .defaulted (PropertiesRecord.datum .empty), PropertiesRecord.layout)
      (Format.write PropertiesRecord.empty) :=
    .value rfl (PropertiesRecord.spelling.wellFormed (PropertiesRecord.spelling.allows_write .empty))
  obtain ⟨hdecode, -⟩ := hsession.decode_eq session whole _ hholds hwhole
  obtain ⟨-, hdefaults⟩ := hsession.decode_cut session (fun j => j) _ _ 2 _ hholds (.here _) rfl hcut (by simp)
  refine ⟨hholds, hdecode, ?_, ?_, hsession.unreadable _ _ _ _ (hidentityPlace.trans hclaimPlace) ?_ hmore⟩
  · obtain ⟨hfull, hsame⟩ := hdefaults [Format.write PropertiesRecord.empty] (.cons hempty .nil)
    exact hsame.trans hdecode
  · have hcut := hsession.cut_iff session _ _ _ 3 _ hholds hidentityPlace rfl hcutInside
    exact Classical.byContradiction fun hreadable => hcut.1 hreadable _ (.head _) rfl
  · exact Nat.lt_succ_self 5

end SessionTickets
