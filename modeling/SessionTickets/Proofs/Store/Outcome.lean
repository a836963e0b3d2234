import SessionTickets.Proofs.Store.Effects

namespace SessionTickets.RemoteStore

open Time

/-- A call fails and leaves the cache as it is, or does what it was made for: it writes a ticket,
removes what is under a key, or looks at a key, where a payload past its deadline is dropped. -/
inductive Outcome (limit : Option Span) (now : Instant) (c : PayloadCache) :
    StoreCall → StoreAnswer × PayloadCache → Prop where
  | failed {call : StoreCall} {answer : StoreAnswer} {e : StoreError} (herror : answer.error? = some e) :
    Outcome limit now c call (answer, c)
  | written {call : StoreCall} {answer : StoreAnswer} {key : String} {ticket : ServiceTicket}
    (hreaches : Reaches limit c) (heffect : call.effect? answer = some (key, .write ticket)) :
    Outcome limit now c call
      (answer, { c with entries := c.entries.insert key ⟨Portable.encode ticket, ticket.deadline⟩ })
  | removed {call : StoreCall} {answer : StoreAnswer} {key : String}
    (heffect : call.effect? answer = some (key, .removal)) :
    Outcome limit now c call (answer, { c with entries := c.entries.erase key })
  | dropped {key : String} {p : Payload} (hfind : c.entries.find? key = some p)
    (hexpired : c.isExpired now p) :
    Outcome limit now c (.retrieve key) (.ticket (.ok none), { c with entries := c.entries.erase key })
  | looked {key : String} {found : Option ServiceTicket} :
    Outcome limit now c (.retrieve key) (.ticket (.ok found), c)

variable {limit : Option Span} {now : Instant} {c : PayloadCache}

/-- A ticket is written, or its call fails and leaves the cache as it is. -/
private theorem write_cases (limit : Option Span) (key : String) (ticket : ServiceTicket) (c : PayloadCache) :
    (Reaches limit c ∧ write limit key ticket c = (.ok (), { c with
      entries := c.entries.insert key ⟨Portable.encode ticket, ticket.deadline⟩ })) ∨
    ∃ e, write limit key ticket c = (.error e, c) := by
  have hcases : write limit key ticket c = (.ok (), { c with
      entries := c.entries.insert key ⟨Portable.encode ticket, ticket.deadline⟩ }) ∨
      ∃ e, write limit key ticket c = (.error e, c) := bounded_call_cases limit _ c
  exact hcases.imp (fun hok => ⟨reaches_of_bounded (congrArg Prod.fst hok), hok⟩) id

private theorem remove_cases (limit : Option Span) (key : String) (c : PayloadCache) :
    bounded limit (PayloadCache.remove key) c = (.ok (), { c with entries := c.entries.erase key }) ∨
      ∃ e, bounded limit (PayloadCache.remove key) c = (.error e, c) :=
  bounded_call_cases limit _ c

/-- Looking at a key shows what is held there, or drops it, or fails. -/
theorem get_cases (limit : Option Span) (now : Instant) (key : String) (c : PayloadCache) :
    (∃ p, c.entries.find? key = some p ∧ c.isExpired now p ∧
      bounded limit (PayloadCache.get now key) c = (.ok none, { c with entries := c.entries.erase key })) ∨
    (∃ bytes?, bounded limit (PayloadCache.get now key) c = (.ok bytes?, c) ∧
      ∀ bytes ∈ bytes?, ∃ p, c.entries.find? key = some p ∧ p.bytes = bytes) ∨
    ∃ e, bounded limit (PayloadCache.get now key) c = (.error e, c) := by
  have hcases : bounded limit (PayloadCache.get now key) c = _ ∨
      ∃ e, bounded limit (PayloadCache.get now key) c = (.error e, c) := bounded_call_cases limit _ c
  obtain hok | herror := hcases
  · cases hfind : c.entries.find? key with
    | none =>
      simp only [hfind] at hok
      exact .inr (.inl ⟨none, hok, nofun⟩)
    | some p =>
      cases hexpired : c.isExpired now p with
      | true =>
        simp only [hfind, hexpired, if_true] at hok
        exact .inl ⟨p, rfl, hexpired, hok⟩
      | false =>
        simp only [hfind, hexpired, Bool.false_eq_true, if_false] at hok
        refine .inr (.inl ⟨some p.bytes, hok, ?_⟩)
        intro bytes hbytes
        cases hbytes
        exact ⟨p, rfl, rfl⟩
  · exact .inr (.inr herror)

/-- Every call to a ticket store over payloads comes to one of its outcomes. -/
theorem outcome (limit : Option Span) (now : Instant) (call : StoreCall) (c : PayloadCache) :
    Outcome limit now c call ((remoteStore limit).machine now call c) := by
  cases call with
  | store ticket =>
    obtain ⟨hreaches, hok⟩ | ⟨e, herror⟩ := write_cases limit ticket.id ticket c
    · simp only [TicketStore.machine, remoteStore, hok]
      exact .written hreaches rfl
    · simp only [TicketStore.machine, remoteStore, herror]
      exact .failed rfl
  | retrieve key =>
    by_cases hkey : key = ""
    · simp only [TicketStore.machine, remoteStore, withKey, if_pos hkey]
      exact .failed rfl
    · simp only [TicketStore.machine, remoteStore, withKey, if_neg hkey]
      obtain ⟨p, hfind, hexpired, hget⟩ | ⟨bytes?, hget, -⟩ | ⟨e, hget⟩ := get_cases limit now key c
      · rw [hget]
        exact .dropped hfind hexpired
      · rw [hget]
        cases bytes? with
        | none => exact .looked
        | some bytes =>
          simp only
          cases ticketOf now bytes with
          | error e => exact .failed rfl
          | ok found => exact .looked
      · rw [hget]
        exact .failed rfl
  | renew key ticket =>
    by_cases hkey : key = ""
    · simp only [TicketStore.machine, remoteStore, withKey, if_pos hkey]
      exact .failed rfl
    · simp only [TicketStore.machine, remoteStore, withKey, if_neg hkey]
      obtain ⟨hreaches, hok⟩ | ⟨e, herror⟩ := write_cases limit key ticket c
      · rw [hok]
        exact .written hreaches rfl
      · rw [herror]
        exact .failed rfl
  | remove key =>
    by_cases hkey : key = ""
    · simp only [TicketStore.machine, remoteStore, withKey, if_pos hkey]
      exact .failed rfl
    · simp only [TicketStore.machine, remoteStore, withKey, if_neg hkey]
      obtain hok | ⟨e, herror⟩ := remove_cases limit key c
      · rw [hok]
        exact .removed rfl
      · rw [herror]
        exact .failed rfl

/-- A call that fails leaves the cache as it is. -/
theorem machine_of_error {call : StoreCall} {e : StoreError}
    (h : ((remoteStore limit).machine now call c).1.error? = some e) :
    ((remoteStore limit).machine now call c).2 = c := by
  have houtcome := outcome limit now call c
  generalize (remoteStore limit).machine now call c = result at h houtcome
  cases houtcome with
  | failed => rfl
  | written hreaches heffect => cases (StoreCall.effect?_of_error? h).symm.trans heffect
  | removed heffect => cases (StoreCall.effect?_of_error? h).symm.trans heffect
  | dropped hfind hexpired => cases h
  | looked => rfl

/-- A payload stays until it expires, or a call writes or removes its key. -/
theorem find?_machine {call : StoreCall} {key : String} {p : Payload}
    (hfind : c.entries.find? key = some p) (hlive : c.isExpired now p = false)
    (hcall : ∀ effect, call.effect? ((remoteStore limit).machine now call c).1 ≠ some (key, effect)) :
    ((remoteStore limit).machine now call c).2.entries.find? key = some p := by
  have houtcome := outcome limit now call c
  generalize (remoteStore limit).machine now call c = result at hcall houtcome
  cases houtcome with
  | failed => exact hfind
  | @written call answer k ticket hreaches heffect =>
    have hne : key ≠ k := fun hk => hcall _ (hk ▸ heffect)
    rw [SortedMap.find?_insert, if_neg hne, hfind]
  | @removed call answer k heffect =>
    have hne : key ≠ k := fun hk => hcall _ (hk ▸ heffect)
    rw [SortedMap.find?_erase, if_neg hne, hfind]
  | @dropped k q hdropped hexpired =>
    -- What was dropped had expired, and the payload has not.
    have hne : key ≠ k := by
      rintro rfl
      cases hfind.symm.trans hdropped
      cases hlive.symm.trans hexpired
    rw [SortedMap.find?_erase, if_neg hne, hfind]
  | looked => exact hfind

end SessionTickets.RemoteStore
