import SessionTickets.Proofs.Store.Frame

namespace SessionTickets

open Time

/-- A call to a ticket store puts a ticket under a key. -/
def StoreCall.Writes (key : String) (ticket : ServiceTicket) : StoreCall → Prop
  | .store t => t = ticket ∧ t.id = key
  | .renew k t => t = ticket ∧ k = key
  | .retrieve _ | .remove _ => False

private theorem StoreCall.writes_of_effect? {call : StoreCall} {answer : StoreAnswer} {key : String}
    {ticket : ServiceTicket} (h : call.effect? answer = some (key, .write ticket)) :
    call.Writes key ticket := by
  unfold effect? at h
  split at h
  · cases h
    exact ⟨rfl, rfl⟩
  · cases h
    exact ⟨rfl, rfl⟩
  · cases h
  · cases h

namespace LocalStore

variable {keyPrefix key : String} {c : SharedCache} {ticket : ServiceTicket}

/-- The ticket that is held under a key, whether it has expired or not. -/
def ticket? (keyPrefix : String) (c : SharedCache) (key : String) : Option ServiceTicket :=
  (c.held? (keyPrefix ++ key)).bind fun held =>
    match held.value with
    | .ticket ticket => some ticket
    | .text _ => none

/-- A ticket is held under a key with its own deadline. -/
def Holds (keyPrefix : String) (c : SharedCache) (key : String) (ticket : ServiceTicket) : Prop :=
  ∃ held, c.held? (keyPrefix ++ key) = some held ∧ held.value = .ticket ticket ∧
    held.deadline = ticket.deadline

/-- A ticket that was put into the cache is held with its own deadline. -/
theorem holds_put (keyPrefix key : String) (ticket : ServiceTicket) (now : Instant) (c : SharedCache) :
    Holds keyPrefix (put keyPrefix key ticket now c) key ticket :=
  ⟨_, BoundedCache.held?_set_self c now _ _ _, rfl, rfl⟩

/-- A ticket held with its own deadline is the one that is held. -/
theorem Holds.ticket? (h : Holds keyPrefix c key ticket) : ticket? keyPrefix c key = some ticket := by
  obtain ⟨held, hheld, hvalue, -⟩ := h
  rw [LocalStore.ticket?, hheld, Option.bind_some, hvalue]

/-- A ticket that is held as the store writes it is served until its deadline. -/
theorem Holds.retrieve (h : Holds keyPrefix c key ticket) (hconsistent : c.Consistent)
    (hkey : key ≠ "") (later : Instant) :
    ((localStore keyPrefix).retrieve key later c).1 =
      .ok (if ticket.isExpiredAt later then none else some ticket) := by
  obtain ⟨held, hheld, hvalue, hdeadline⟩ := h
  have hlive : held.isLive later = !ticket.isExpiredAt later := by
    rw [Held.isLive_eq_not_any, hdeadline, ServiceTicket.isExpiredAt]
  rw [retrieve_eq hconsistent hkey, hheld, Option.filter_some, hlive]
  cases ticket.isExpiredAt later with
  | true => rfl
  | false => exact congrArg (fun value => ticketOf key (some value)) hvalue

/-- A ticket that is served is held. -/
theorem ticket?_of_retrieve (h : c.Consistent) {now : Instant}
    (hserved : ((localStore keyPrefix).retrieve key now c).1 = .ok (some ticket)) :
    ticket? keyPrefix c key = some ticket := by
  by_cases hkey : key = ""
  · simp only [localStore, withKey, if_pos hkey] at hserved
    cases hserved
  · rw [retrieve_eq h hkey] at hserved
    cases hlive : (c.held? (keyPrefix ++ key)).filter (·.isLive now) with
    | none =>
      rw [hlive] at hserved
      cases hserved
    | some held =>
      rw [hlive, Option.map_some] at hserved
      rw [ticket?, (Option.filter_eq_some_iff.1 hlive).1, Option.bind_some]
      cases hvalue : held.value with
      | ticket t =>
        rw [hvalue] at hserved
        cases hserved
        rfl
      | text text =>
        rw [hvalue] at hserved
        cases hserved

/-- A value that a store puts into the cache is a ticket with its own deadline. -/
theorem writes_of_cacheCall? {value : SharedValue} {deadline : Option Instant} {call : StoreCall}
    (h : call.cacheCall? keyPrefix = some (.set (keyPrefix ++ key) value deadline)) :
    ∃ ticket, call.Writes key ticket ∧ value = .ticket ticket ∧ deadline = ticket.deadline := by
  cases call with
  | store t =>
    rw [StoreCall.cacheCall?, Option.some.injEq, CacheCall.set.injEq] at h
    exact ⟨t, ⟨rfl, (String.append_right_inj keyPrefix).1 h.1⟩, h.2.1.symm, h.2.2.symm⟩
  | retrieve k =>
    rw [StoreCall.cacheCall?] at h
    split at h <;> cases h
  | renew k t =>
    rw [StoreCall.cacheCall?] at h
    split at h
    · cases h
    · rw [Option.some.injEq, CacheCall.set.injEq] at h
      exact ⟨t, ⟨rfl, (String.append_right_inj keyPrefix).1 h.1⟩, h.2.1.symm, h.2.2.symm⟩
  | remove k =>
    rw [StoreCall.cacheCall?] at h
    split at h <;> cases h

/-- A ticket that is under a key after a call was there before or is written by the call. -/
theorem ticket?_machine {now : Instant} {call : StoreCall} (h : c.Consistent)
    (hticket : ticket? keyPrefix ((localStore keyPrefix).machine now call c).2 key = some ticket) :
    ((localStore keyPrefix).machine now call c).2.held? (keyPrefix ++ key) =
        c.held? (keyPrefix ++ key) ∨
      call.Writes key ticket ∧
        Holds keyPrefix ((localStore keyPrefix).machine now call c).2 key ticket := by
  obtain ⟨held, hheld, hvalue⟩ := Option.bind_eq_some_iff.1 hticket
  have hcases : c.held? (keyPrefix ++ key) = some held ∨
      call.cacheCall? keyPrefix = some (.set (keyPrefix ++ key) held.value held.deadline) := by
    rw [machine_eq_cacheCall] at hheld
    cases hcall : call.cacheCall? keyPrefix with
    | none =>
      rw [hcall] at hheld
      exact .inl hheld
    | some cacheCall =>
      rw [hcall] at hheld
      exact (h.held?_machine_eq_some hheld).imp id (congrArg some)
  rcases hcases with hbefore | hset
  · exact .inl (hheld.trans hbefore.symm)
  · obtain ⟨t, hwrites, ht, hdeadline⟩ := writes_of_cacheCall? hset
    rw [ht] at hvalue
    cases hvalue
    exact .inr ⟨hwrites, held, hheld, ht, hdeadline⟩

end LocalStore

namespace RemoteStore

variable {limit : Option Span} {c : PayloadCache} {now : Instant} {key : String}
  {ticket : ServiceTicket}

/-- The ticket that is held under a key, whether it has expired or not. -/
def ticket? (c : PayloadCache) (key : String) : Option ServiceTicket :=
  (c.entries.find? key).bind fun p => (Portable.decode p.bytes).toOption

/-- A ticket is held under a key with its own deadline. -/
def Holds (c : PayloadCache) (key : String) (ticket : ServiceTicket) : Prop :=
  c.entries.find? key = some ⟨Portable.encode ticket, ticket.deadline⟩

/-- A ticket that was written is held with its own deadline. -/
theorem holds_write (h : Reaches limit c) (key : String) (ticket : ServiceTicket) :
    Holds (write limit key ticket c).2 key ticket := by
  rw [Holds, write_eq h, SortedMap.find?_insert, if_pos rfl]

/-- A ticket held with its own deadline is the one that is held. -/
theorem Holds.ticket? (h : Holds c key ticket) : ticket? c key = some ticket := by
  rw [RemoteStore.ticket?, h, Option.bind_some, ServiceTicket.decode_encode]
  rfl

/-- A ticket that is held as the store writes it is served until its deadline. -/
theorem Holds.retrieve (h : Holds c key ticket) (hreaches : Reaches limit c) (hkey : key ≠ "")
    (later : Instant) :
    ((remoteStore limit).retrieve key later c).1 =
      .ok (if ticket.isExpiredAt later then none else some ticket) := by
  rw [retrieve_eq hreaches hkey, h]
  simp only [ticketOf_encode_eq]
  split
  · next hdropped =>
    have hexpired : ticket.isExpiredAt later := (Bool.and_eq_true_iff.1 hdropped).2
    rw [if_pos hexpired]
  · rfl

/-- A ticket that is served is held. -/
theorem ticket?_of_retrieve
    (hserved : ((remoteStore limit).retrieve key now c).1 = .ok (some ticket)) :
    ticket? c key = some ticket := by
  obtain ⟨-, -, p, hfind, hticket⟩ := payload_of_retrieve hserved
  rw [ticket?, hfind, Option.bind_some, (ticketOf_eq_some hticket).1]
  rfl

/-- No call to a store makes its cache fail. -/
theorem reaches_machine (hreaches : Reaches limit c) (now : Instant) (call : StoreCall) :
    Reaches limit ((remoteStore limit).machine now call c).2 := by
  have houtcome := outcome limit now call c
  generalize (remoteStore limit).machine now call c = result at houtcome
  cases houtcome with
  | failed | looked => exact hreaches
  | written | removed | dropped => exact ⟨hreaches.working, hreaches.patient⟩

private theorem ticket?_erase {k : String}
    (hticket : ticket? { c with entries := c.entries.erase k } key = some ticket) :
    (c.entries.erase k).find? key = c.entries.find? key := by
  by_cases hk : key = k
  · rw [ticket?, SortedMap.find?_erase, if_pos hk] at hticket
    cases hticket
  · rw [SortedMap.find?_erase, if_neg hk]

/-- A ticket that is under a key after a call was there before or is written by the call. -/
theorem ticket?_machine {call : StoreCall}
    (hticket : ticket? ((remoteStore limit).machine now call c).2 key = some ticket) :
    ((remoteStore limit).machine now call c).2.entries.find? key = c.entries.find? key ∨
      Reaches limit c ∧ call.Writes key ticket ∧
        Holds ((remoteStore limit).machine now call c).2 key ticket := by
  have houtcome := outcome limit now call c
  generalize (remoteStore limit).machine now call c = result at hticket houtcome
  cases houtcome with
  | failed | looked => exact .inl rfl
  | @written call answer k t hreaches heffect =>
    by_cases hk : key = k
    · subst hk
      have hholds : Holds { c with
          entries := c.entries.insert key ⟨Portable.encode t, t.deadline⟩ } key t := by
        rw [Holds, SortedMap.find?_insert, if_pos rfl]
      cases hholds.ticket?.symm.trans hticket
      exact .inr ⟨hreaches, StoreCall.writes_of_effect? heffect, hholds⟩
    · left
      rw [SortedMap.find?_insert, if_neg hk]
  | removed | dropped => exact .inl (ticket?_erase hticket)

end RemoteStore

end SessionTickets
