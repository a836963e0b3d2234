import SessionTickets.Portable.Record
import SessionTickets.Proofs.Json.Spelling

namespace SessionTickets

open Time Json

/-- What a document says. Of a time it says the instant, but not the offset. -/
inductive Datum where
  | absent
  | text (s : String)
  | time (t : Instant)
  | list (items : List Datum)
  | map (entries : List (String × Datum))
  | record (fields : List Datum)

/-- Whether a field has to be there. -/
inductive Presence where
  | required
  /-- The field may be left out or be null. -/
  | optional
  /-- The field may be left out. -/
  | defaulted (default : Datum)

/-- The form of a document, down to its texts and times. What a document says depends on each part only
through what that says, and a part that says nothing leaves the document without a meaning. -/
inductive Layout where
  | text
  | time
  | list (item : Layout)
  | map (value : Layout)
  | record (fields : List (String × Presence × Layout))

/-- The name of a field, whether it has to be there, and the form of its value. -/
abbrev FieldLayout := String × Presence × Layout

/-- What a field says that has to be there or not. -/
def Presence.read? (read : Json → Option Datum) : Presence → Option Json → Option Datum
  | .required, value => required? read value
  | .optional, value => (Json.optional? read value).map (·.getD .absent)
  | .defaulted default, value => defaulted? default read value

/-- Whatever a field may be without, a value that is not null is read as it is. -/
private theorem Presence.read?_some (presence : Presence) (read : Json → Option Datum) {j : Json} (hj : j ≠ .null) :
    presence.read? read (some j) = read j := by
  cases presence with
  | required => rfl
  | defaulted => rfl
  | optional =>
    rw [Presence.read?, Json.optional?, Option.map_map]
    · exact Option.map_id'
    · exact hj

namespace Layout

mutual

/-- What a document of a layout says. -/
def read? : Layout → Json → Option Datum
  | .text, j => (string? j).map .text
  | .time, j => (stamp? j).map fun s => .time s.instant
  | .list item, j => (list? item.read? j).map .list
  | .map value, j => (map? value.read? j).map fun m => .map m.entries
  | .record fields, j => ((j.fields? (fields.map (·.1))).bind (readFields? fields)).map .record

def readFields? : List FieldLayout → List (Option Json) → Option (List Datum)
  | [], [] => some []
  | (_, presence, layout) :: fields, value :: values =>
    (presence.read? layout.read? value).bind fun d => (readFields? fields values).map (d :: ·)
  | _, _ => none

end

def readField? (field : FieldLayout) (value : Option Json) : Option Datum :=
  field.2.1.read? field.2.2.read? value

variable {fields : List FieldLayout}

/-- Null says nothing. -/
@[simp] theorem read?_null (l : Layout) : l.read? .null = none := by
  cases l <;> rfl

/-- The first field is read first. -/
theorem readFields?_cons (field : FieldLayout) (value : Option Json) (values : List (Option Json)) :
    readFields? (field :: fields) (value :: values) =
      (readField? field value).bind fun d => (readFields? fields values).map (d :: ·) :=
  rfl

/-- Fields can be read in two parts. -/
theorem readFields?_append {before : List FieldLayout} {given values : List (Option Json)}
    (h : before.length = given.length) :
    readFields? (before ++ fields) (given ++ values) =
      (readFields? before given).bind fun ds => (readFields? fields values).map (ds ++ ·) := by
  induction before generalizing given with
  | nil =>
    cases given with
    | nil => simp [readFields?]
    | cons => cases h
  | cons field before ih =>
    cases given with
    | nil => cases h
    | cons value given =>
      rw [List.cons_append, List.cons_append, readFields?_cons, readFields?_cons, ih (Nat.succ.inj h)]
      cases readField? field value with
      | none => rfl
      | some d =>
        cases readFields? before given with
        | none => rfl
        | some ds => cases readFields? fields values <;> rfl

/-- Fields that are looked up one by one may as well be read one by one. -/
theorem bind_readFields? (find : String → Option (Option Json)) :
    ((fields.map (·.1)).mapM find).bind (readFields? fields) =
      fields.mapM fun field => (find field.1).bind (readField? field) := by
  induction fields with
  | nil => rfl
  | cons field fields ih =>
    rw [List.map_cons, List.mapM_cons, List.mapM_cons, ← ih]
    cases find field.1 with
    | none => rfl
    | some value =>
      cases hvalues : (fields.map (·.1)).mapM find with
      | none => cases hfield : readField? field value <;> simp [hfield]
      | some values =>
        change readFields? (field :: fields) (value :: values) = _
        rw [readFields?_cons]
        cases hfield : readField? field value <;> simp [hfield]
        cases readFields? fields values <;> rfl

/-- An object says what its members say for each field. -/
private theorem read?_object (members : Members) :
    (record fields).read? (.object members) = (namedMembers? members).bind fun named =>
      (fields.mapM fun field => (member? named field.1).bind (readField? field)).map .record := by
  rw [read?, fields?]
  cases namedMembers? members with
  | none => rfl
  | some named => exact congrArg _ (bind_readFields? (member? named))

/-- A record without names is read one field after the other. -/
theorem read?_array {earlier later : List FieldLayout} {field : FieldLayout}
    {before after : List Json} (hlength : earlier.length = before.length) (j : Json) :
    (record (earlier ++ field :: later)).read? (.array (before ++ j :: after)) =
      if after.length ≤ later.length then
        ((readFields? earlier (before.map some)).bind fun ds => (readField? field (some j)).bind fun d =>
          (readFields? later (after.map some ++ List.replicate (later.length - after.length) none)).map
            fun ds' => ds ++ d :: ds').map .record
      else
        none := by
  rw [read?, fields?]
  simp only [List.length_map, List.length_append, List.length_cons, hlength, Nat.add_le_add_iff_left,
    Nat.add_le_add_iff_right]
  split
  · have hrest : before.length + (later.length + 1) - (before.length + (after.length + 1)) =
        later.length - after.length := by omega
    rw [hrest, Option.bind_some, List.map_append, List.map_cons, List.append_assoc, List.cons_append,
      readFields?_append (by rw [hlength, List.length_map]), readFields?_cons]
    simp only [Option.map_bind, Function.comp_def, Option.map_map]
  · rfl

/-- Where documents of a layout have a part of another layout: a function that puts the part there. Maps are
read as a whole, since neither times nor records stand in them. -/
inductive Place : Layout → (Json → Json) → Layout → Prop
  | here (l : Layout) : Place l (fun j => j) l
  | item {item l : Layout} {around : Json → Json} (before after : List Json) (h : Place item around l) :
    Place (.list item) (fun j => .array (before ++ around j :: after)) l
  /-- The value of the only field with its name. -/
  | field {fields : List FieldLayout} {name : String} {presence : Presence} {value l : Layout}
    {around : Json → Json} {key : List UInt8} (before after : Members)
    (honly : fields.filter (·.1 = name) = [(name, presence, value)]) (hkey : Quoted.read? key = some name)
    (h : Place value around l) :
    Place (.record fields) (fun j => .object (before ++ (key, around j) :: after)) l
  /-- The value of a field in a record without names. -/
  | position {earlier later : List FieldLayout} {name : String} {presence : Presence}
    {value l : Layout} {around : Json → Json} (before after : List Json) (hlength : earlier.length = before.length)
    (h : Place value around l) :
    Place (.record (earlier ++ (name, presence, value) :: later))
      (fun j => .array (before ++ around j :: after)) l

private theorem Place.ne_null {l l' : Layout} {around : Json → Json} (h : Place l around l')
    {p : Json} (hp : p ≠ .null) : around p ≠ .null := by
  cases h with
  | here => exact hp
  | item => nofun
  | field => nofun
  | position => nofun

private theorem namedMembers?_append_cons {key : List UInt8} {name : String} (hkey : Quoted.read? key = some name)
    (before after : Members) (j : Json) :
    namedMembers? (before ++ (key, j) :: after) =
      (namedMembers? before).bind fun b => (namedMembers? after).map fun a => b ++ (name, j) :: a := by
  rw [namedMembers?_eq, List.mapM_append, ← namedMembers?_eq, ← namedMembers?_eq, namedMembers?_cons, hkey]
  cases namedMembers? before with
  | none => rfl
  | some b => cases namedMembers? after <;> rfl

/-- A member stands among the named ones under its name. -/
theorem named_of_append_cons {key : List UInt8} {name : String} {before after : Members} {j : Json}
    {named : List (String × Json)} (hkey : Quoted.read? key = some name)
    (h : namedMembers? (before ++ (key, j) :: after) = some named) :
    ∃ b a, namedMembers? after = some a ∧ named = b ++ (name, j) :: a := by
  rw [namedMembers?_append_cons hkey] at h
  obtain ⟨b, -, h⟩ := Option.bind_eq_some_iff.1 h
  obtain ⟨a, ha, rfl⟩ := Option.map_eq_some_iff.1 h
  exact ⟨b, a, ha, rfl⟩

/-- A member is found if no other one has its name. -/
theorem member?_append_cons (before after : List (String × Json)) (name : String) (j : Json) :
    member? (before ++ (name, j) :: after) name =
      if (before ++ after).filter (·.1 = name) = [] then some (some j) else none := by
  have hsplit : (before ++ (name, j) :: after).filter (·.1 = name) =
      before.filter (·.1 = name) ++ (name, j) :: after.filter (·.1 = name) := by
    rw [List.filter_append, List.filter_cons_of_pos (by simp)]
  rw [member?, hsplit, List.filter_append]
  cases before.filter (·.1 = name) with
  | cons m ms => cases ms <;> rfl
  | nil => cases after.filter (·.1 = name) <;> rfl

private theorem member?_of_ne {name name' : String} (hne : name ≠ name')
    (before after : List (String × Json)) (j : Json) :
    member? (before ++ (name, j) :: after) name' = member? (before ++ after) name' := by
  rw [member?, member?, List.filter_append, List.filter_cons_of_neg (by simpa using hne), ← List.filter_append]

private theorem mapM_eq_none {α β : Type} {f : α → Option β} {xs : List α} {x : α} (hx : x ∈ xs)
    (h : f x = none) :
    xs.mapM f = none := by
  obtain ⟨before, after, rfl⟩ := List.append_of_mem hx
  rw [List.mapM_append, List.mapM_cons, h]
  cases before.mapM f <;> rfl

private theorem mapM_congr {α β : Type} {f g : α → Option β} {xs : List α} (h : ∀ x ∈ xs, f x = g x) :
    xs.mapM f = xs.mapM g := by
  induction xs with
  | nil => rfl
  | cons x xs ih =>
    obtain ⟨hx, hxs⟩ := List.forall_mem_cons.1 h
    rw [List.mapM_cons, List.mapM_cons, hx, ih hxs]

private theorem readField?_some (field : FieldLayout) {j : Json} (hj : j ≠ .null) :
    readField? field (some j) = field.2.2.read? j :=
  field.2.1.read?_some _ hj

/-- A field that says nothing, where it has to say something, leaves an object without a meaning. -/
theorem read?_object_eq_none {members : Members} {field : FieldLayout} (hfield : field ∈ fields)
    (h : ∀ named, namedMembers? members = some named → (member? named field.1).bind (readField? field) = none) :
    (record fields).read? (.object members) = none := by
  rw [read?_object]
  cases hnamed : namedMembers? members with
  | none => rfl
  | some named => rw [Option.bind_some, mapM_eq_none hfield (h named hnamed), Option.map_none]

/-- What is said for a field by the members of an object. -/
def findField? (named : List (String × Json)) (field : FieldLayout) : Option Datum :=
  (member? named field.1).bind (readField? field)

/-- An object is read by the fields. Only the field with its name looks at a member. -/
theorem read?_object_member {earlier later : List FieldLayout} {name : String} {presence : Presence}
    {value : Layout} {key : List UInt8} {before after : Members} (hkey : Quoted.read? key = some name)
    (hother : ∀ f ∈ earlier ++ later, f.1 ≠ name) (j : Json) :
    (record (earlier ++ (name, presence, value) :: later)).read? (.object (before ++ (key, j) :: after)) =
      (namedMembers? before).bind fun b => (namedMembers? after).bind fun a =>
        if (b ++ a).filter (·.1 = name) = [] then
          ((earlier.mapM (findField? (b ++ a))).bind fun ds =>
            (readField? (name, presence, value) (some j)).bind fun d =>
              (later.mapM (findField? (b ++ a))).map fun ds' => ds ++ d :: ds').map .record
        else
          none := by
  rw [read?_object, namedMembers?_append_cons hkey]
  cases namedMembers? before with
  | none => rfl
  | some b =>
    cases namedMembers? after with
    | none => rfl
    | some a =>
      have hfound : ∀ fs : List FieldLayout, (∀ f ∈ fs, f.1 ≠ name) →
          (fs.mapM fun f => (member? (b ++ (name, j) :: a) f.1).bind (readField? f)) =
            fs.mapM (findField? (b ++ a)) := by
        intro fs hfs
        exact mapM_congr fun f hf => by rw [member?_of_ne (hfs f hf).symm, findField?]
      simp only [Option.bind_some, Option.map_some, List.mapM_append, List.mapM_cons, member?_append_cons]
      rw [hfound earlier fun f hf => hother f (List.mem_append_left _ hf),
        hfound later fun f hf => hother f (List.mem_append_right _ hf)]
      split
      · cases earlier.mapM (findField? (b ++ a)) with
        | none => rfl
        | some ds =>
          rw [Option.bind_some]
          cases readField? (name, presence, value) (some j) <;> cases later.mapM (findField? (b ++ a)) <;> rfl
      · cases earlier.mapM (findField? (b ++ a)) <;> rfl

/-- What a document says is made of what its part says, unless the rest of it says nothing. -/
theorem Place.read?_eq {l l' : Layout} {around : Json → Json} (h : Place l around l') :
    ∃ whole : Option (Datum → Datum), ∀ p, p ≠ .null →
      l.read? (around p) = whole.bind fun f => (l'.read? p).map f := by
  induction h with
  | here => exact ⟨some id, fun _ _ => Option.map_id'.symm⟩
  | @item item l around before after _ ih =>
    obtain ⟨part, hpart⟩ := ih
    refine ⟨(before.mapM item.read?).bind fun b => part.bind fun f => (after.mapM item.read?).map fun a =>
      fun d => .list (b ++ f d :: a), fun p hp => ?_⟩
    rw [read?, list?, List.mapM_append, List.mapM_cons, hpart p hp]
    cases before.mapM item.read? with
    | none => rfl
    | some b => cases part <;> cases l.read? p <;> cases after.mapM item.read? <;> rfl
  | @field fields name presence value l around key before after honly hkey hvalue ih =>
    obtain ⟨part, hpart⟩ := ih
    obtain ⟨earlier, later, rfl, hearlier, -, hlater⟩ := List.filter_eq_cons_iff.1 honly
    have hother : ∀ f ∈ earlier ++ later, f.1 ≠ name := by
      intro f hf hname
      obtain hf | hf := List.mem_append.1 hf
      · exact hearlier f hf (decide_eq_true hname)
      · exact List.filter_eq_nil_iff.1 hlater f hf (decide_eq_true hname)
    refine ⟨(namedMembers? before).bind fun b => (namedMembers? after).bind fun a =>
      if (b ++ a).filter (·.1 = name) = [] then
        (earlier.mapM (findField? (b ++ a))).bind fun ds => part.bind fun f =>
          (later.mapM (findField? (b ++ a))).map fun ds' => fun d => .record (ds ++ f d :: ds')
      else
        none, fun p hp => ?_⟩
    rw [read?_object_member hkey hother, readField?_some _ (hvalue.ne_null hp), hpart p hp]
    cases namedMembers? before with
    | none => rfl
    | some b =>
      cases namedMembers? after with
      | none => rfl
      | some a =>
        simp only [Option.bind_some]
        split
        · cases earlier.mapM (findField? (b ++ a)) with
          | none => rfl
          | some ds => cases part <;> cases l.read? p <;> cases later.mapM (findField? (b ++ a)) <;> rfl
        · rfl
  | @position earlier later name presence value l around before after hlength hvalue ih =>
    obtain ⟨part, hpart⟩ := ih
    by_cases hle : after.length ≤ later.length
    · refine ⟨(readFields? earlier (before.map some)).bind fun ds => part.bind fun f =>
        (readFields? later (after.map some ++ List.replicate (later.length - after.length) none)).map fun ds' =>
          fun d => .record (ds ++ f d :: ds'), fun p hp => ?_⟩
      rw [read?_array hlength, if_pos hle, readField?_some _ (hvalue.ne_null hp), hpart p hp]
      cases readFields? earlier (before.map some) with
      | none => rfl
      | some ds => cases part <;> cases l.read? p <;> cases readFields? later _ <;> rfl
    · refine ⟨none, fun p _ => ?_⟩
      rw [read?_array hlength, if_neg hle]
      rfl

/-- A document says nothing if one of its parts does not. -/
theorem Place.read?_eq_none {l l' : Layout} {around : Json → Json} (h : Place l around l') {p : Json}
    (hp : p ≠ .null) (hread : l'.read? p = none) : l.read? (around p) = none := by
  obtain ⟨whole, hwhole⟩ := h.read?_eq
  rw [hwhole p hp, hread]
  cases whole <;> rfl

/-- A document says the same with another part that says the same. -/
theorem Place.read?_congr {l l' : Layout} {around : Json → Json} (h : Place l around l') {p p' : Json}
    (hp : p ≠ .null) (hp' : p' ≠ .null) (hread : l'.read? p = l'.read? p') :
    l.read? (around p) = l.read? (around p') := by
  obtain ⟨whole, hwhole⟩ := h.read?_eq
  rw [hwhole p hp, hwhole p' hp', hread]

/-- A document that says something does so with every part that says something. -/
theorem Place.read?_ne_none {l l' : Layout} {around : Json → Json} (h : Place l around l') {p p' : Json}
    (hp : p ≠ .null) (hp' : p' ≠ .null) (hread : l.read? (around p) ≠ none) :
    l.read? (around p') ≠ none ↔ l'.read? p' ≠ none := by
  obtain ⟨whole, hwhole⟩ := h.read?_eq
  rw [hwhole p hp] at hread
  rw [hwhole p' hp']
  cases whole with
  | none => exact absurd rfl hread
  | some f => simp

/-- Documents that differ in parts that a relation allows to change, one after the other. -/
inductive Rewrites (Change : Layout → Json → Json → Prop) (l : Layout) : Json → Json → Prop
  | refl (j : Json) : Rewrites Change l j j
  | step {l' : Layout} {around : Json → Json} {p p' j : Json} (hplace : Place l around l') (hpart : Change l' p p')
    (h : Rewrites Change l (around p') j) : Rewrites Change l (around p) j

/-- A document says the same after changes that leave alone what each part says. -/
theorem Rewrites.read?_eq {Change : Layout → Json → Json → Prop} {l : Layout} {j j' : Json}
    (h : Rewrites Change l j j')
    (hchange : ∀ {l p p'}, Change l p p' → p ≠ .null ∧ p' ≠ .null ∧ l.read? p = l.read? p') :
    l.read? j = l.read? j' := by
  induction h with
  | refl => rfl
  | step hplace hpart _ ih =>
    obtain ⟨hp, hp', hread⟩ := hchange hpart
    exact (hplace.read?_congr hp hp' hread).trans ih

/-- What is read by a layout is what a value says that is read in another way. -/
def Describes {α : Type} (l : Layout) (read : Json → Option α) (datum : α → Datum) : Prop :=
  ∀ j, l.read? j = (read j).map datum

/-- What is read for a field is what a value says that is read in another way. -/
def DescribesField {α : Type} (field : FieldLayout) (read : Option Json → Option α)
    (datum : α → Datum) : Prop :=
  ∀ value, readField? field value = (read value).map datum

private theorem length_of_mapM {α β : Type} {f : α → Option β} {xs : List α} {ys : List β}
    (h : xs.mapM f = some ys) :
    ys.length = xs.length := by
  induction xs generalizing ys with
  | nil =>
    cases h
    rfl
  | cons x xs ih =>
    rw [List.mapM_cons] at h
    obtain ⟨y, -, h⟩ := Option.bind_eq_some_iff.1 h
    obtain ⟨rest, hrest, h⟩ := Option.bind_eq_some_iff.1 h
    cases h
    exact congrArg Nat.succ (ih hrest)

private theorem mapM_eq_map {α β γ : Type} {f : α → Option β} {f' : α → Option γ} {g : β → γ}
    (h : ∀ x, f' x = (f x).map g) (xs : List α) : xs.mapM f' = (xs.mapM f).map (List.map g) := by
  induction xs with
  | nil => rfl
  | cons x xs ih =>
    rw [List.mapM_cons, List.mapM_cons, h, ih]
    cases f x with
    | none => rfl
    | some y => cases xs.mapM f <;> rfl

namespace Describes

variable {α : Type} {l : Layout} {read : Json → Option α} {datum : α → Datum}

/-- A text says what it stands for. -/
theorem text : Describes .text string? .text :=
  fun _ => rfl

/-- A time says its instant. -/
theorem time : Describes .time stamp? fun s => .time s.instant :=
  fun _ => rfl

/-- A list says what its items say. -/
theorem list (h : Describes l read datum) : Describes (.list l) (list? read) fun xs => .list (xs.map datum) := by
  intro j
  cases j with
  | array items =>
    rw [read?, list?, list?, mapM_eq_map h, Option.map_map]
    rfl
  | _ => rfl

/-- A map says what its values say. -/
theorem map (h : Describes l read datum) :
    Describes (.map l) (map? read) fun m => .map (m.entries.map fun e => (e.1, datum e.2)) := by
  intro j
  cases j with
  | object members =>
    cases hnamed : namedMembers? members with
    | none => simp [read?, map?, hnamed]
    | some named =>
      have hentries : (named.mapM fun m => (l.read? m.2).map (m.1, ·)) =
          (named.mapM fun m => (read m.2).map (m.1, ·)).map (List.map fun e => (e.1, datum e.2)) := by
        refine mapM_eq_map (fun m => ?_) named
        rw [h, Option.map_map, Option.map_map]
        rfl
      simp only [read?, map?, hnamed, hentries, Option.bind_eq_bind, Option.bind_some]
      cases named.mapM fun m => (read m.2).map (m.1, ·) with
      | none => rfl
      | some entries => exact congrArg (fun es => some (Datum.map es)) (SortedMap.entries_ofList_map datum entries)
  | _ => rfl

private theorem length_of_fields? {names : List String} {j : Json} {given : List (Option Json)}
    (h : j.fields? names = some given) : given.length = names.length := by
  cases j with
  | array items =>
    rw [fields?] at h
    split at h
    · cases h
      simp only [List.length_append, List.length_map, List.length_replicate]
      omega
    · cases h
  | object members =>
    obtain ⟨named, -, hgiven⟩ := Option.bind_eq_some_iff.1 h
    exact length_of_mapM hgiven
  | _ => cases h

/-- It is enough to look at as many values as there are fields. -/
theorem record {next : List (Option Json) → Option α}
    (h : ∀ given, given.length = fields.length → (readFields? fields given).map .record = (next given).map datum) :
    Describes (.record fields) (fun j => (j.fields? (fields.map (·.1))).bind next) datum := by
  intro j
  simp only [read?]
  cases hgiven : j.fields? (fields.map (·.1)) with
  | none => rfl
  | some given => exact h given ((length_of_fields? hgiven).trans (List.length_map _))

/-- A field that has to be there says what its value says. -/
theorem required (h : Describes l read datum) (name : String) :
    DescribesField (name, .required, l) (required? read) datum
  | some j => h j
  | none => rfl

/-- A field without a value says so. -/
theorem optional (h : Describes l read datum) (name : String) :
    DescribesField (name, .optional, l) (optional? read) fun x => (x.map datum).getD .absent := by
  intro value
  match value with
  | none => rfl
  | some j =>
    by_cases hnull : j = .null
    · rw [hnull]
      rfl
    · rw [readField?_some _ hnull, h, Json.optional?, Option.map_map]
      · rfl
      · exact hnull

/-- A field that is left out says what its default says. -/
theorem defaulted (h : Describes l read datum) (name : String) (x : α) :
    DescribesField (name, .defaulted (datum x), l) (defaulted? x read) datum
  | some j => h j
  | none => rfl

end Describes

/-- Fields are read one after the other, and together they say what the value says. -/
theorem readFields?_cons_map {α ρ : Type} {field : FieldLayout} {read : Option Json → Option α}
    {datum : α → Datum} {next : α → Option ρ} {datum' : ρ → Datum} {join : List Datum → Datum}
    {value : Option Json} {values : List (Option Json)} (h : DescribesField field read datum)
    (hnext : ∀ x, (readFields? fields values).map (fun ds => join (datum x :: ds)) = (next x).map datum') :
    (readFields? (field :: fields) (value :: values)).map join = ((read value).bind next).map datum' := by
  rw [readFields?_cons, h]
  cases read value with
  | none => rfl
  | some x =>
    rw [Option.map_some, Option.bind_some, Option.bind_some, Option.map_map]
    exact hnext x

end Layout
end SessionTickets
