import Mathlib.Data.List.Forall2
import SessionTickets.Json.Fields
import SessionTickets.Proofs.Json.Quoted
import SessionTickets.Proofs.SortedMap

namespace SessionTickets

namespace Json

/-- Each member is named by its key. -/
theorem namedMembers?_eq (members : Members) :
    namedMembers? members = members.mapM fun m => (Quoted.read? m.1).map (·, m.2) :=
  rfl

/-- The first member is named first. -/
theorem namedMembers?_cons (m : List UInt8 × Json) (members : Members) :
    namedMembers? (m :: members) =
      (Quoted.read? m.1).bind fun name => (namedMembers? members).map ((name, m.2) :: ·) := by
  rw [namedMembers?_eq, List.mapM_cons, ← namedMembers?_eq]
  cases Quoted.read? m.1 with
  | none => rfl
  | some name => cases namedMembers? members <;> rfl

private theorem mapM_of_forall₂ {α β : Type} {f : β → Option α} {xs : List α} {ys : List β}
    (h : List.Forall₂ (fun x y => f y = some x) xs ys) : ys.mapM f = some xs := by
  induction h with
  | nil => rfl
  | cons hxy h ih => rw [List.mapM_cons, hxy, ih]; rfl

/-- Each item of a list goes with one of the other. -/
theorem exists_of_forall₂ {α β : Type} {R : α → β → Prop} {xs : List α} {ys : List β}
    (h : List.Forall₂ R xs ys) : ∀ y ∈ ys, ∃ x ∈ xs, R x y := by
  induction h with
  | nil => nofun
  | cons hxy h ih =>
    intro y hy
    obtain rfl | hy := List.mem_cons.1 hy
    · exact ⟨_, .head _, hxy⟩
    · obtain ⟨x, hx, hR⟩ := ih y hy
      exact ⟨x, .tail _ hx, hR⟩

/-- The documents that stand for a value of some type. What is written for a value is one of them. -/
structure Spelling {α : Type} (write : α → Json) (read? : Json → Option α) where
  Allows : α → Json → Prop
  allows_write : ∀ x, Allows x (write x)
  read?_eq : ∀ {x j}, Allows x j → read? j = some x
  wellFormed : ∀ {x j}, Allows x j → j.WellFormed
  ne_null : ∀ {x j}, Allows x j → j ≠ .null

/-- What may stand for a field. -/
structure FieldSpelling {α : Type} (write : α → Option Json) (read? : Option Json → Option α) where
  Allows : α → Option Json → Prop
  allows_write : ∀ x, Allows x (write x)
  read?_eq : ∀ {x value}, Allows x value → read? value = some x
  wellFormed : ∀ {x value}, Allows x value → ∀ j ∈ value, j.WellFormed

namespace Spelling

variable {α : Type} {write : α → Json} {read? : Json → Option α}

/-- A field with a value has to be there. -/
def required (s : Spelling write read?) : FieldSpelling (some ∘ write) (required? read?) where
  Allows x value := ∃ j, value = some j ∧ s.Allows x j
  allows_write x := ⟨write x, rfl, s.allows_write x⟩
  read?_eq := by
    rintro x _ ⟨j, rfl, hj⟩
    exact s.read?_eq hj
  wellFormed := by
    rintro x _ ⟨j, rfl, hj⟩ _ ⟨⟩
    exact s.wellFormed hj

/-- A field without a value may be left out or be null. -/
def optional (s : Spelling write read?) : FieldSpelling (Option.map write) (optional? read?) where
  Allows
    | none, value => value = none ∨ value = some .null
    | some x, value => ∃ j, value = some j ∧ s.Allows x j
  allows_write
    | none => .inl rfl
    | some x => ⟨write x, rfl, s.allows_write x⟩
  read?_eq := by
    rintro (_ | x) value h
    · obtain rfl | rfl := h <;> rfl
    · obtain ⟨j, rfl, hj⟩ := h
      rw [optional?, s.read?_eq hj, Option.map_some]
      exact s.ne_null hj
  wellFormed := by
    rintro (_ | x) value h j hj
    · obtain rfl | rfl := h <;> cases hj
      exact .null
    · obtain ⟨j, rfl, h⟩ := h
      cases hj
      exact s.wellFormed h

/-- A field may be left out if it has its value by default. -/
def defaulted (s : Spelling write read?) (default : α) :
    FieldSpelling (some ∘ write) (defaulted? default read?) where
  Allows x value := (x = default ∧ value = none) ∨ ∃ j, value = some j ∧ s.Allows x j
  allows_write x := .inr ⟨write x, rfl, s.allows_write x⟩
  read?_eq := by
    rintro x _ (⟨rfl, rfl⟩ | ⟨j, rfl, hj⟩)
    · rfl
    · exact s.read?_eq hj
  wellFormed := by
    rintro x _ (⟨rfl, rfl⟩ | ⟨j, rfl, hj⟩) _ ⟨⟩
    exact s.wellFormed hj

/-- A value that is written in one way only. -/
def exact (hread : ∀ x, read? (write x) = some x) (hform : ∀ x, (write x).WellFormed)
    (hnull : ∀ x, write x ≠ .null) : Spelling write read? where
  Allows x j := j = write x
  allows_write _ := rfl
  read?_eq := by
    rintro x _ rfl
    exact hread x
  wellFormed := by
    rintro x _ rfl
    exact hform x
  ne_null := by
    rintro x _ rfl
    exact hnull x

/-- A string may stand as any token for it. -/
def string : Spelling ofString string? :=
  exact Quoted.read?_write (fun s => .text (Quoted.isToken_write s)) (fun _ => nofun)

/-- The items of a list stand in their order, each as it may stand. -/
def list (s : Spelling write read?) : Spelling (ofList write) (list? read?) where
  Allows xs j := ∃ items, List.Forall₂ s.Allows xs items ∧ j = .array items
  allows_write xs :=
    ⟨xs.map write, List.forall₂_map_right_iff.2 (List.forall₂_same.2 fun x _ => s.allows_write x), rfl⟩
  read?_eq := by
    rintro xs _ ⟨items, hitems, rfl⟩
    exact mapM_of_forall₂ (hitems.imp fun _ _ => s.read?_eq)
  wellFormed := by
    rintro xs _ ⟨items, hitems, rfl⟩
    refine .array fun item hitem => ?_
    obtain ⟨x, -, hx⟩ := exists_of_forall₂ hitems item hitem
    exact s.wellFormed hx
  ne_null := by
    rintro xs _ ⟨items, -, rfl⟩
    nofun

/-- A map is read from any members that stand for its entries. -/
theorem map?_of_forall₂ {entries : List (String × α)} {members : Members}
    (h : List.Forall₂ (fun e m => Quoted.read? m.1 = some e.1 ∧ read? m.2 = some e.2) entries members) :
    map? read? (.object members) = some (.ofList entries) := by
  have hnamed : ∃ named, namedMembers? members = some named ∧
      named.mapM (fun m => (read? m.2).map (m.1, ·)) = some entries := by
    induction h with
    | nil => exact ⟨[], rfl, rfl⟩
    | @cons e m _ _ hm h ih =>
      obtain ⟨named, hnamed, hentries⟩ := ih
      refine ⟨(e.1, m.2) :: named, ?_, ?_⟩
      · rw [namedMembers?_cons, hm.1, hnamed]
        rfl
      · rw [List.mapM_cons, hm.2, hentries]
        rfl
  obtain ⟨named, hnamed, hentries⟩ := hnamed
  simp [map?, hnamed, hentries]

/-- The members of a map may stand in any order. -/
def map (s : Spelling write read?) : Spelling (ofMap write) (map? read?) where
  Allows m j := ∃ (entries : List (String × α)) (members : Members), entries.Perm m.entries ∧
    List.Forall₂ (fun e m => m.1 = Quoted.write e.1 ∧ s.Allows e.2 m.2) entries members ∧ j = .object members
  allows_write m :=
    ⟨m.entries, m.entries.map fun e => (Quoted.write e.1, write e.2), .refl _,
      List.forall₂_map_right_iff.2 (List.forall₂_same.2 fun e _ => ⟨rfl, s.allows_write e.2⟩), rfl⟩
  read?_eq := by
    rintro m _ ⟨entries, members, hperm, hmembers, rfl⟩
    rw [map?_of_forall₂ (hmembers.imp fun e m h => ?_), SortedMap.ofList_of_perm hperm]
    rw [h.1, Quoted.read?_write, s.read?_eq h.2]
    exact ⟨rfl, rfl⟩
  wellFormed := by
    rintro m _ ⟨entries, members, -, hmembers, rfl⟩
    have hforall := exists_of_forall₂ hmembers
    refine .object (fun member hmember => ?_) fun member hmember => ?_
    · obtain ⟨e, -, hkey, -⟩ := hforall member hmember
      rw [hkey]
      exact Quoted.isToken_write e.1
    · obtain ⟨e, -, -, hvalue⟩ := hforall member hmember
      exact s.wellFormed hvalue
  ne_null := by
    rintro m _ ⟨entries, members, -, -, rfl⟩
    nofun

end Spelling

/-- The members of an object that come from the fields with values. -/
def present (fields : List (String × Option Json)) : List (String × Json) :=
  fields.filterMap fun f => f.2.map (f.1, ·)

private theorem name_mem_of_mem_present {fields : List (String × Option Json)} {m : String × Json}
    (h : m ∈ present fields) : m.1 ∈ fields.map (·.1) := by
  obtain ⟨f, hf, hm⟩ := List.mem_filterMap.1 h
  obtain ⟨value, _, rfl⟩ := Option.map_eq_some_iff.1 hm
  exact List.mem_map_of_mem hf

/-- Of the fields with values, no two have one name. -/
private theorem filter_present {fields : List (String × Option Json)} (h : (fields.map (·.1)).Nodup)
    {name : String} {value : Option Json} (hmem : (name, value) ∈ fields) :
    (present fields).filter (·.1 = name) = (value.map (name, ·)).toList := by
  induction fields with
  | nil => cases hmem
  | cons f rest ih =>
    obtain ⟨hnew, hrest⟩ := List.nodup_cons.1 h
    have hsplit : present (f :: rest) = (f.2.map (f.1, ·)).toList ++ present rest := by
      rw [present, List.filterMap_cons, present]
      cases f.2 <;> rfl
    rw [hsplit, List.filter_append]
    rcases List.mem_cons.1 hmem with rfl | hmem
    · have hnone : (present rest).filter (·.1 = name) = [] := by
        rw [List.filter_eq_nil_iff]
        intro m hm hname
        exact hnew (of_decide_eq_true hname ▸ name_mem_of_mem_present hm)
      rw [hnone, List.append_nil]
      cases value <;> simp
    · have hne : f.1 ≠ name := by
        rintro rfl
        exact hnew (List.mem_map.2 ⟨_, hmem, rfl⟩)
      rw [ih hrest hmem]
      cases f.2 <;> simp [hne]

/-- A field is found by its name among members in any order, whether it has a value or not. -/
theorem member?_of_perm {fields : List (String × Option Json)} {members foreign : List (String × Json)}
    (hmembers : members.Perm (present fields ++ foreign)) (hnodup : (fields.map (·.1)).Nodup)
    (hforeign : ∀ m ∈ foreign, m.1 ∉ fields.map (·.1)) {name : String} {value : Option Json}
    (hmem : (name, value) ∈ fields) : member? members name = some value := by
  have hnone : foreign.filter (·.1 = name) = [] := by
    rw [List.filter_eq_nil_iff]
    intro m hm hname
    exact hforeign m hm (of_decide_eq_true hname ▸ List.mem_map_of_mem hmem)
  have hfilter := hmembers.filter (·.1 = name)
  rw [List.filter_append, filter_present hnodup hmem, hnone, List.append_nil] at hfilter
  rw [member?]
  cases value with
  | none => rw [hfilter.eq_nil]
  | some value => rw [List.perm_singleton.1 hfilter]

/-- A member that is no field of a record. Its key is a string, and its value is any document. -/
structure Foreign (names : List String) (member : List UInt8 × Json) : Prop where
  isToken : IsToken member.1
  named : ∃ name, Quoted.read? member.1 = some name ∧ name ∉ names
  wellFormed : member.2.WellFormed

/-- An object that holds some fields, those with values, and members that are no fields. -/
inductive ObjectOf (fields : List (String × Option Json)) : Json → Prop
  | intro {members foreign : Members}
    (hmembers : members.Perm ((present fields).map (fun m => (Quoted.write m.1, m.2)) ++ foreign))
    (hforeign : ∀ m ∈ foreign, Foreign (fields.map (·.1)) m) : ObjectOf fields (.object members)

/-- The string that the key of a member stands for. -/
def nameOf (member : List UInt8 × Json) : String :=
  (Quoted.read? member.1).getD ""

namespace ObjectOf

variable {fields : List (String × Option Json)} {j : Json}

/-- The document of a record holds its fields. -/
theorem ofFields (fields : List (String × Option Json)) : ObjectOf fields (Json.ofFields fields) := by
  have hmembers : (fields.filterMap fun f => f.2.map (Quoted.write f.1, ·)) =
      (present fields).map fun m => (Quoted.write m.1, m.2) := by
    rw [present, List.map_filterMap]
    congr 1
    funext f
    cases f.2 <;> rfl
  refine @ObjectOf.intro fields _ [] ?_ nofun
  rw [hmembers, List.append_nil]

/-- An object is not null. -/
theorem ne_null (h : ObjectOf fields j) : j ≠ .null := by
  cases h
  nofun

private theorem wellFormed (h : ObjectOf fields j) (hvalues : ∀ f ∈ fields, ∀ value ∈ f.2, value.WellFormed) :
    j.WellFormed := by
  cases h with
  | @intro members foreign hmembers hforeign =>
    have hall : ∀ m ∈ members, IsToken m.1 ∧ m.2.WellFormed := by
      intro m hm
      obtain hfield | hm := List.mem_append.1 (hmembers.subset hm)
      · obtain ⟨named, hnamed, rfl⟩ := List.mem_map.1 hfield
        obtain ⟨f, hf, hsome⟩ := List.mem_filterMap.1 hnamed
        obtain ⟨value, hvalue, rfl⟩ := Option.map_eq_some_iff.1 hsome
        exact ⟨Quoted.isToken_write _, hvalues f hf value hvalue⟩
      · exact ⟨(hforeign m hm).isToken, (hforeign m hm).wellFormed⟩
    exact .object (fun m hm => (hall m hm).1) fun m hm => (hall m hm).2

/-- Each field is found, whether it has a value or not, and nothing else is looked at. -/
theorem fields?_eq (h : ObjectOf fields j) (hnodup : (fields.map (·.1)).Nodup) :
    j.fields? (fields.map (·.1)) = some (fields.map (·.2)) := by
  cases h with
  | @intro members foreign hmembers hforeign =>
    -- Keys that are no fields are read too: they have to be strings.
    have hnames : ∀ m ∈ members, Quoted.read? m.1 = some (nameOf m) := by
      intro m hm
      obtain hfield | hm := List.mem_append.1 (hmembers.subset hm)
      · obtain ⟨named, -, rfl⟩ := List.mem_map.1 hfield
        rw [nameOf, Quoted.read?_write, Option.getD_some]
      · obtain ⟨name, hname, -⟩ := (hforeign m hm).named
        rw [nameOf, hname, Option.getD_some]
    have hnamed : namedMembers? members = some (members.map fun m => (nameOf m, m.2)) := by
      rw [namedMembers?_eq]
      apply mapM_of_forall₂
      rw [List.forall₂_map_left_iff, List.forall₂_same]
      intro m hm
      rw [hnames m hm, Option.map_some]
    have hperm : (members.map fun m => (nameOf m, m.2)).Perm
        (present fields ++ foreign.map fun m => (nameOf m, m.2)) := by
      have hfields : (present fields).map (fun m => (nameOf (Quoted.write m.1, m.2), m.2)) = present fields := by
        simp [nameOf, Quoted.read?_write]
      have hmap := hmembers.map fun m => (nameOf m, m.2)
      rw [List.map_append, List.map_map] at hmap
      exact hfields ▸ hmap
    have hnone : ∀ m ∈ foreign.map (fun m => (nameOf m, m.2)), m.1 ∉ fields.map (·.1) := by
      intro named hnamed
      obtain ⟨m, hm, rfl⟩ := List.mem_map.1 hnamed
      obtain ⟨name, hname, hnew⟩ := (hforeign m hm).named
      rw [nameOf, hname, Option.getD_some]
      exact hnew
    rw [fields?, hnamed, Option.bind_some, List.mapM_map]
    apply mapM_of_forall₂
    rw [List.forall₂_map_left_iff, List.forall₂_same]
    exact fun f hf => member?_of_perm hperm hnodup hnone hf

end ObjectOf

/-- A field of some record: what is written for its value, and what may stand there. -/
structure Slot where
  written : Option Json
  Allows : Option Json → Prop
  allows_written : Allows written
  wellFormed : ∀ {value}, Allows value → ∀ j ∈ value, j.WellFormed

/-- A field of a record with its value. -/
def FieldSpelling.of {α : Type} {write : α → Option Json} {read? : Option Json → Option α}
    (s : FieldSpelling write read?) (x : α) : Slot :=
  ⟨write x, s.Allows x, s.allows_write x, s.wellFormed⟩

/-- A record stands as an object with its fields, each as it may stand. The members may be in any order, and
there may be others besides the fields. -/
def Spelling.record {ρ : Type} {write : ρ → Json} {read? : Json → Option ρ} (names : List String)
    (slots : ρ → List Slot) (hnodup : names.Nodup) (hlength : ∀ r, (slots r).length = names.length)
    (hwrite : ∀ r, write r = ofFields (names.zip ((slots r).map (·.written))))
    (hread : ∀ {r given j}, List.Forall₂ Slot.Allows (slots r) given → j.fields? names = some given →
      read? j = some r) : Spelling write read? where
  Allows r j := ∃ given, List.Forall₂ Slot.Allows (slots r) given ∧ ObjectOf (names.zip given) j
  allows_write r := by
    refine ⟨(slots r).map (·.written), ?_, hwrite r ▸ .ofFields _⟩
    rw [List.forall₂_map_right_iff, List.forall₂_same]
    exact fun slot _ => slot.allows_written
  read?_eq := by
    rintro r j ⟨given, hgiven, hobject⟩
    have hgivenLength : given.length = names.length := hgiven.length_eq.symm.trans (hlength r)
    have hnames : (names.zip given).map (·.1) = names := List.map_fst_zip (by omega)
    have hvalues : (names.zip given).map (·.2) = given := List.map_snd_zip (by omega)
    have hfields := hobject.fields?_eq (hnames.symm ▸ hnodup)
    rw [hnames, hvalues] at hfields
    exact hread hgiven hfields
  wellFormed := by
    rintro r j ⟨given, hgiven, hobject⟩
    apply hobject.wellFormed
    intro f hf
    obtain ⟨slot, -, hslot⟩ := exists_of_forall₂ hgiven f.2 (List.of_mem_zip hf).2
    exact slot.wellFormed hslot
  ne_null := by
    rintro r j ⟨given, -, hobject⟩
    exact hobject.ne_null

end Json

end SessionTickets
