import SessionTickets.Proofs.Portable.RoundTrip

namespace SessionTickets.Portable

open Json

/-- Whatever bytes spell a value, they are decoded as its own encoding is. The members of objects may be
in any order, members that are no fields may be added, with strings for keys, and fields may be null or
left out where they have no value or that by default. -/
theorem decode_spelled :
    (∀ (a : Assertion) bs, Spells a bs → decode (α := Assertion) bs = decode (encode a)) ∧
    (∀ (t : ServiceTicket) bs, Spells t bs → decode (α := ServiceTicket) bs = decode (encode t)) ∧
    (∀ (p : Properties) bs, Spells p bs → decode (α := Properties) bs = decode (encode p)) ∧
    (∀ (i : Identity) bs, Spells i bs → decode (α := Identity) bs = decode (encode i)) ∧
    (∀ (s : IdentitySession) bs, Spells s bs → decode (α := IdentitySession) bs = decode (encode s)) ∧
    (∀ (s : SchemeSession) bs, Spells s bs → decode (α := SchemeSession) bs = decode (encode s)) := by
  have halike : ∀ {α : Type} [Portable α] [LawfulPortable α] (v : α) (bs : List UInt8), Spells v bs →
      decode (α := α) bs = decode (encode v) := by
    intro α _ _ v bs h
    rw [decode_of_spells h, decode_encode_eq]
  exact ⟨halike, halike, halike, halike, halike, halike⟩

/-- Two items are in the other order, a member with a list in it is added, one time is null and the other
one left out, and there are blanks at the start and after the first brace. -/
theorem decode_spelled_reordered :
    let p : Properties := ⟨.ofList [("a", "1"), ("b", "2")], none, none⟩
    let items : Json := .object [(Quoted.write "b", ofString "2"), (Quoted.write "a", ofString "1")]
    let note : List UInt8 × Json := (Quoted.write "note", .array [.array [], .null])
    let j : Json := .object [note, (Quoted.write "expires_utc", .null), (Quoted.write "items", items)]
    let bs := 0x20 :: ([byte '{'] ++ 0x0A :: j.tokens.tail.flatten)
    Spells p bs ∧ decode (α := Properties) bs = decode (encode p) ∧ bs ≠ encode p := by
  intro p items note j bs
  have hitems : (Spelling.string.map.defaulted .empty).Allows p.items (some items) :=
    .inr ⟨items, rfl, [("b", "2"), ("a", "1")], _, .swap _ _ _,
      .cons ⟨rfl, Spelling.string.allows_write _⟩ (.cons ⟨rfl, Spelling.string.allows_write _⟩ .nil), rfl⟩
  have hnote : Foreign PropertiesRecord.fieldNames note := by
    refine ⟨Quoted.isToken_write _, ⟨"note", Quoted.read?_write _, by decide⟩, ?_⟩
    exact .array (List.forall_mem_cons.2 ⟨.array nofun, List.forall_mem_singleton.2 .null⟩)
  have hobject : ObjectOf (PropertiesRecord.fieldNames.zip [some items, none, some .null]) j := by
    refine @ObjectOf.intro _ _ [note] ?_ (List.forall_mem_singleton.2 hnote)
    exact List.reverse_perm [(Quoted.write "items", items), (Quoted.write "expires_utc", .null), note]
  have hspells : Spells p bs :=
    ⟨j, ⟨_, .cons hitems (.cons (.inl rfl) (.cons (.inr rfl) .nil)), hobject⟩,
      .blank rfl (.token [byte '{'] (.blank rfl (spaced_flatten _)))⟩
  obtain ⟨-, -, halike, -⟩ := decode_spelled
  exact ⟨hspells, halike p bs hspells, by decide⟩

/-- Half of a surrogate pair is no string. A member with such a key cannot be added, although its text is
of the right form and names no field. -/
theorem unpaired_surrogate_key_unreadable :
    let key := bytes ['\\', 'u', 'd', '8', '0', '0']
    let p : Properties := ⟨.empty, none, none⟩
    let items : List UInt8 × Json := (Quoted.write "items", .object [])
    let added : Json := .object [(key, .null), items]
    (∀ name ∈ PropertiesRecord.fieldNames, Quoted.read? key ≠ some name) ∧ added.WellFormed ∧
      toJson p = .object [items] ∧
      decode (α := Properties) added.write = .error (.unreadable "no document of the expected form") ∧
      decode (encode p) = .ok p := by
  intro key p items added
  have hkey : IsToken key := rfl
  refine ⟨by decide, ?_, rfl, rfl, Properties.decode_encode p⟩
  have hitems : IsToken items.1 := Quoted.isToken_write _
  exact .object (List.forall_mem_cons.2 ⟨hkey, List.forall_mem_singleton.2 hitems⟩)
    (List.forall_mem_cons.2 ⟨.null, List.forall_mem_singleton.2 (.object nofun nofun)⟩)

end SessionTickets.Portable
