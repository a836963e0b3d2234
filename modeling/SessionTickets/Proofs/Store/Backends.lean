import Mathlib.Data.List.Dedup
import SessionTickets.Proofs.Cache.Entries
import SessionTickets.Proofs.Portable.RoundTrip
import SessionTickets.Proofs.Store.Map
import SessionTickets.Store.Local
import SessionTickets.Store.Remote

namespace SessionTickets

open Time

namespace LocalStore

/-- What a store holds at each of its keys. -/
def view (keyPrefix : String) (c : SharedCache) (key : String) :
    Option (SharedValue × Option Instant) :=
  (c.held? (keyPrefix ++ key)).map fun held => (held.value, held.deadline)

/-- What a store holds of a ticket. -/
def image (ticket : ServiceTicket) : SharedValue × Option Instant :=
  (.ticket ticket, ticket.deadline)

/-- A cache with room for all keys that are written holds the tickets of a map. -/
structure Implements (keyPrefix : String) (written : List String) (now : Instant) (c : SharedCache)
    (m : SortedMap ServiceTicket) : Prop where
  consistent : c.Consistent
  room : written.length ≤ c.capacity
  keys : ∀ k, (c.held? k).isSome → ∃ key ∈ written, keyPrefix ++ key = k
  shows : Shows image now (view keyPrefix c) m

variable {keyPrefix : String} {written : List String} {now : Instant} {c : SharedCache}
  {m : SortedMap ServiceTicket}

private theorem append_ne {key k : String} (hne : k ≠ key) : keyPrefix ++ k ≠ keyPrefix ++ key :=
  fun h => hne ((String.append_right_inj keyPrefix).1 h)

namespace Implements

private theorem later {later : Instant} (hle : now ≤ later) (h : Implements keyPrefix written now c m) :
    Implements keyPrefix written later c m :=
  ⟨h.consistent, h.room, h.keys, h.shows.later hle⟩

/-- There is room for a key that is to be written and is not held. -/
theorem size_lt (h : Implements keyPrefix written now c m) {key : String} (hwritten : key ∈ written)
    (hnone : c.held? (keyPrefix ++ key) = none) : c.size < c.capacity := by
  have hroom : (written.map (keyPrefix ++ ·)).length ≤ c.capacity := by
    rw [List.length_map]
    exact h.room
  refine h.consistent.size_lt_of_held ?_ hroom (List.mem_map_of_mem hwritten) hnone
  intro k hk
  obtain ⟨key, hkey, rfl⟩ := h.keys k hk
  exact List.mem_map_of_mem hkey

private theorem put (h : Implements keyPrefix written now c m) {key : String} (hwritten : key ∈ written)
    (ticket : ServiceTicket) :
    Implements keyPrefix written now (LocalStore.put keyPrefix key ticket now c)
      (m.insert key ticket) := by
  have hothers : ∀ {k}, k ≠ keyPrefix ++ key →
      (LocalStore.put keyPrefix key ticket now c).held? k = c.held? k :=
    h.consistent.held?_set_of_room now _ _ (h.size_lt hwritten)
  refine ⟨h.consistent.set now _ _ _, ?_, ?_, ?_⟩
  · have hcapacity := c.capacity_makeRoom now (keyPrefix ++ key)
    exact hcapacity ▸ h.room
  · intro k hk
    by_cases hself : k = keyPrefix ++ key
    · exact ⟨key, hwritten, hself.symm⟩
    · rw [hothers hself] at hk
      exact h.keys k hk
  · apply h.shows.insert
    · rw [view, LocalStore.put, BoundedCache.held?_set_self]
      rfl
    · intro k hk
      rw [view, hothers (append_ne hk), view]

private theorem remove (h : Implements keyPrefix written now c m) (key : String) :
    Implements keyPrefix written now (c.remove (keyPrefix ++ key)).2 (m.erase key) := by
  refine ⟨h.consistent.remove _, h.room, ?_, ?_⟩
  · intro k hk
    rw [BoundedCache.held?_remove] at hk
    split at hk
    · cases hk
    · exact h.keys k hk
  · apply h.shows.erase
    · rw [view, BoundedCache.held?_remove, if_pos rfl, Option.map_none]
    · intro k hk
      rw [view, BoundedCache.held?_remove, if_neg (append_ne hk), view]

/-- A key holds the ticket of the map until the deadline of that ticket, or nothing while the map
shows nothing. -/
theorem held?_cases (h : Implements keyPrefix written now c m) (key : String) :
    (∃ ticket cachedAt, m.find? key = some ticket ∧
      c.held? (keyPrefix ++ key) = some ⟨.ticket ticket, cachedAt, ticket.assertion.validUntil⟩) ∨
    c.held? (keyPrefix ++ key) = none ∧
      (m.find? key).filter (fun t => t.assertion.validUntil.all (now < ·)) = none := by
  rcases h.shows.cases key with ⟨ticket, hfind, hview⟩ | ⟨hnone, hshown⟩
  · obtain ⟨⟨value, cachedAt, deadline⟩, hheld, heq⟩ := Option.map_eq_some_iff.1 hview
    cases heq
    exact .inl ⟨ticket, cachedAt, hfind, hheld⟩
  · exact .inr ⟨Option.map_eq_none_iff.1 hnone, hshown⟩

/-- To look at a key of the cache leaves the map as it is. -/
private theorem get (h : Implements keyPrefix written now c m) (key : String) :
    Implements keyPrefix written now (c.get now (keyPrefix ++ key)).2 m := by
  have hget := h.consistent.held?_get now (keyPrefix ++ key)
  have hothers : ∀ k, k ≠ key →
      view keyPrefix (c.get now (keyPrefix ++ key)).2 k = view keyPrefix c k := by
    intro k hk
    rw [view, hget, if_neg (append_ne hk), view]
  refine ⟨h.consistent.get now _, ?_, ?_, ?_⟩
  · rw [c.capacity_get]
    exact h.room
  · intro k hk
    apply h.keys
    rw [hget] at hk
    split at hk
    · exact Option.isSome_of_isSome_filter _ _ hk
    · exact hk
  · have hkept : (c.get now (keyPrefix ++ key)).2.held? (keyPrefix ++ key) =
        c.held? (keyPrefix ++ key) →
          Shows image now (view keyPrefix (c.get now (keyPrefix ++ key)).2) m := by
      intro hself k
      by_cases hk : k = key
      · rw [hk, view, hself]
        exact h.shows key
      · rw [hothers k hk]
        exact h.shows k
    have hself := hget (keyPrefix ++ key)
    rw [if_pos rfl] at hself
    rcases h.held?_cases key with ⟨t, cachedAt, hfind, hheld⟩ | ⟨hnone, _⟩
    · rw [hheld, Option.filter_some, Held.isLive] at hself
      cases hlive : t.assertion.validUntil.all (now < ·) with
      | true =>
        rw [hlive, if_pos rfl] at hself
        exact hkept (hself.trans hheld.symm)
      | false =>
        rw [hlive, if_neg Bool.false_ne_true] at hself
        apply h.shows.drop ?_ ?_ hothers
        · rw [view, hself, Option.map_none]
        · rw [hfind, Option.any_some, ServiceTicket.isExpiredAt_eq, hlive, Bool.not_false]
    · rw [hnone, Option.filter_none] at hself
      exact hkept (hself.trans hnone.symm)

/-- A look at a key shows the ticket that the map shows. -/
theorem ticketOf_get (h : Implements keyPrefix written now c m) (key : String) :
    ticketOf key (c.get now (keyPrefix ++ key)).1 =
      .ok ((m.find? key).filter fun t => t.assertion.validUntil.all (now < ·)) := by
  rw [h.consistent.get_value]
  rcases h.held?_cases key with ⟨t, cachedAt, hfind, hheld⟩ | ⟨hnone, hshown⟩
  · rw [hheld, hfind, Option.filter_some, Option.filter_some, Held.isLive]
    split <;> rfl
  · rw [hnone, hshown]
    rfl

/-- The store and the map answer each call alike. -/
theorem step (h : Implements keyPrefix written now c m) (call : StoreCall)
    (hcall : ∀ key ∈ call.written?, key ∈ written) :
    ((localStore keyPrefix).machine now call c).1 = (mapStore.machine now call m).1 ∧
      Implements keyPrefix written now ((localStore keyPrefix).machine now call c).2
        (mapStore.machine now call m).2 := by
  cases call with
  | store ticket => exact ⟨rfl, h.put (hcall ticket.id rfl) ticket⟩
  | retrieve key =>
    have hagree : Agree (Implements keyPrefix written now) ((localStore keyPrefix).retrieve key now c)
        (mapStore.retrieve key now m) :=
      withKey_agree_if h fun _ => ⟨h.ticketOf_get key, h.get key⟩
    exact ⟨congrArg StoreAnswer.ticket hagree.1, hagree.2⟩
  | renew key ticket =>
    have hagree : Agree (Implements keyPrefix written now)
        ((localStore keyPrefix).renew key ticket now c) (mapStore.renew key ticket now m) :=
      withKey_agree_if h fun hkey => ⟨rfl, h.put (hcall key (if_neg hkey)) ticket⟩
    exact ⟨congrArg StoreAnswer.done hagree.1, hagree.2⟩
  | remove key =>
    have hagree : Agree (Implements keyPrefix written now) ((localStore keyPrefix).remove key now c)
        (mapStore.remove key now m) :=
      withKey_agree_if h fun _ => ⟨rfl, h.remove key⟩
    exact ⟨congrArg StoreAnswer.done hagree.1, hagree.2⟩

end Implements

end LocalStore

namespace RemoteStore

/-- What a store keeps of a ticket. -/
def image (ticket : ServiceTicket) : Payload :=
  ⟨Portable.encode ticket, ticket.deadline⟩

/-- A working cache, whose calls take no longer than a store waits, holds the tickets of a map. -/
structure Implements (limit : Option Span) (now : Instant) (c : PayloadCache)
    (m : SortedMap ServiceTicket) : Prop where
  reaches : Reaches limit c
  shows : Shows image now c.entries.find? m

variable {limit : Option Span} {now : Instant} {c : PayloadCache} {m : SortedMap ServiceTicket}

namespace Implements

private theorem later {later : Instant} (hle : now ≤ later) (h : Implements limit now c m) :
    Implements limit later c m :=
  ⟨h.reaches, h.shows.later hle⟩

private theorem put (h : Implements limit now c m) (key : String) (ticket : ServiceTicket) :
    ∃ c', RemoteStore.write limit key ticket c = (.ok (), c') ∧
      Implements limit now c' (m.insert key ticket) := by
  refine ⟨_, h.reaches.bounded_call _, ⟨h.reaches.working, h.reaches.patient⟩, ?_⟩
  apply h.shows.insert
  · rw [SortedMap.find?_insert, if_pos rfl]
    rfl
  · intro k hk
    rw [SortedMap.find?_insert, if_neg hk]

private theorem remove (h : Implements limit now c m) (key : String) :
    Agree (Implements limit now) (bounded limit (PayloadCache.remove key) c)
      (.ok (), m.erase key) := by
  have hremove : bounded limit (PayloadCache.remove key) c =
      (.ok (), { c with entries := c.entries.erase key }) := h.reaches.bounded_call _
  rw [hremove]
  refine ⟨rfl, ⟨h.reaches.working, h.reaches.patient⟩, ?_⟩
  apply h.shows.erase
  · rw [SortedMap.find?_erase, if_pos rfl]
  · intro k hk
    rw [SortedMap.find?_erase, if_neg hk]

/-- A ticket is taken from its own bytes while its assertion is valid. -/
private theorem ticketOf_encode (ticket : ServiceTicket) :
    RemoteStore.ticketOf now (Portable.encode ticket) =
      .ok ((some ticket).filter fun t => t.assertion.validUntil.all (now < ·)) := by
  rw [RemoteStore.ticketOf, ServiceTicket.decode_encode, Option.filter_some]
  simp only [ServiceTicket.isExpiredAt_eq]
  cases ticket.assertion.validUntil.all (now < ·) <;> rfl

/-- Both stores answer alike for a key, also once the cache has lost a payload that had expired. -/
private theorem retrieve (h : Implements limit now c m) (key : String) :
    Agree (Implements limit now) ((remoteStore limit).retrieve key now c)
      (mapStore.retrieve key now m) := by
  apply withKey_agree_if h
  intro _
  have hget : bounded limit (PayloadCache.get now key) c = _ := h.reaches.bounded_call _
  rw [hget]
  rcases h.shows.cases key with ⟨ticket, hfind, hheld⟩ | ⟨hnone, hshown⟩
  · cases hdropped : c.isExpired now (image ticket) with
    | true =>
      have hexpired : ticket.isExpiredAt now := (Bool.and_eq_true_iff.1 hdropped).2
      have hinvalid := ticket.isExpiredAt_eq now
      rw [hexpired, eq_comm, Bool.not_eq_true'] at hinvalid
      simp only [hheld, hdropped, if_true, hfind, Option.filter_some, hinvalid]
      have hself : (c.entries.erase key).find? key = none := by
        rw [SortedMap.find?_erase, if_pos rfl]
      refine ⟨rfl, ⟨h.reaches.working, h.reaches.patient⟩, h.shows.drop hself ?_ ?_⟩
      · rw [hfind, Option.any_some, hexpired]
      · intro k hk
        rw [SortedMap.find?_erase, if_neg hk]
    | false =>
      simp only [hheld, hdropped, Bool.false_eq_true, if_false, hfind]
      exact ⟨ticketOf_encode ticket, h⟩
  · simp only [hnone, hshown]
    exact ⟨rfl, h⟩

/-- The store and the map answer each call alike. -/
theorem step (h : Implements limit now c m) (call : StoreCall) :
    ((remoteStore limit).machine now call c).1 = (mapStore.machine now call m).1 ∧
      Implements limit now ((remoteStore limit).machine now call c).2
        (mapStore.machine now call m).2 := by
  apply TicketStore.machine_agree
  · intro ticket
    obtain ⟨c', hwrite, hnext⟩ := h.put ticket.id ticket
    simp only [remoteStore, hwrite]
    exact ⟨rfl, hnext⟩
  · exact h.retrieve
  · intro key ticket
    apply withKey_agree_if h
    intro _
    obtain ⟨c', hwrite, hnext⟩ := h.put key ticket
    rw [hwrite]
    exact ⟨rfl, hnext⟩
  · exact fun key => withKey_agree_if h fun _ => h.remove key

end Implements

end RemoteStore

/-- The keys that are written, each once. -/
def writtenKeys (calls : Calls StoreCall) : List String :=
  (calls.filterMap (·.2.written?)).dedup

/-- Over a whole run in which the clock does not go backwards both stores answer as the map does: one
in a cache of its own with room for all keys that are written, and one over payloads, whether these
are dropped at their deadlines or not, whose calls neither fail nor take longer than it waits. -/
theorem TicketStore.backends_log_eq_map {calls : Calls StoreCall} (h : Forward calls) :
    (∀ keyPrefix capacity, (writtenKeys calls).length ≤ max capacity 1 →
      ((localStore keyPrefix).machine.run (.empty capacity) calls).1 =
        (mapStore.machine.run .empty calls).1) ∧
    ∀ limit honorsDeadlines latency, (∀ span ∈ limit, ¬ span < latency) →
      ((remoteStore limit).machine.run (.empty honorsDeadlines latency) calls).1 =
        (mapStore.machine.run .empty calls).1 := by
  constructor
  · intro keyPrefix capacity hroom
    apply Machine.run_log_eq (LocalStore.Implements keyPrefix (writtenKeys calls))
      (fun call => ∀ key ∈ call.written?, key ∈ writtenKeys calls) ?_ ?_ h
    · intro call hcall key hkey
      exact List.mem_dedup.2 (List.mem_filterMap.2 ⟨call, hcall, hkey⟩)
    · intro now
      exact ⟨BoundedCache.consistent_empty capacity, hroom, nofun, fun _ => .inl rfl⟩
    · exact fun _ _ _ _ hle h => h.later hle
    · exact fun _ _ _ call hcall h => h.step call hcall
  · intro limit honorsDeadlines latency hpatient
    apply Machine.run_log_eq (RemoteStore.Implements limit) (fun _ => True) ?_ ?_ h
    · exact fun _ _ => trivial
    · exact fun _ => ⟨⟨rfl, hpatient⟩, fun _ => .inl rfl⟩
    · exact fun _ _ _ _ hle h => h.later hle
    · exact fun _ _ _ call _ h => h.step call

/-- A ticket is kept under its id and under another key, and looked for before and at its
deadline. -/
theorem TicketStore.backends_log_eq_map_renewed :
    let ticket := ServiceTicket.lasting (some (.onSecond 5)) "ST-1"
    let calls : Calls StoreCall :=
      [(.onSecond 0, .store ticket), (.onSecond 1, .renew "ST-2" ticket),
        (.onSecond 4, .retrieve "ST-2"), (.onSecond 4, .remove "ST-2"),
        (.onSecond 4, .retrieve "ST-2"), (.onSecond 5, .retrieve "ST-1")]
    Forward calls ∧ (writtenKeys calls).length ≤ max 2 1 ∧
      (∀ span ∈ some (Span.ofSeconds 1), ¬ span < Span.ofMillis 5) ∧
      ((localStore "cas-st:").machine.run (.empty 2) calls).1 =
        (mapStore.machine.run .empty calls).1 ∧
      ((remoteStore (some (Span.ofSeconds 1))).machine.run (.empty true (Span.ofMillis 5)) calls).1 =
        (mapStore.machine.run .empty calls).1 := by
  intro ticket calls
  have hforward : Forward calls := by decide
  have hroom : (writtenKeys calls).length ≤ max 2 1 := by decide
  have hpatient : ∀ span ∈ some (Span.ofSeconds 1), ¬ span < Span.ofMillis 5 := by decide
  obtain ⟨hlocal, hremote⟩ := TicketStore.backends_log_eq_map hforward
  exact ⟨hforward, hroom, hpatient, hlocal "cas-st:" 2 hroom, hremote _ true _ hpatient⟩

end SessionTickets
