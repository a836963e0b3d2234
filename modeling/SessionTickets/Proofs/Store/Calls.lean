import SessionTickets.Proofs.Run
import SessionTickets.Store.Remote

namespace SessionTickets

open Time

/-- A plain ticket with an id and a deadline. -/
def ServiceTicket.lasting (validUntil : Option Instant) (id : String) (h : id ≠ "" := by decide) :
    ServiceTicket :=
  ⟨id, "CAS", ⟨"user", .empty, none, validUntil, by decide, by simp [WindowOrdered]⟩, [], none, none, h, by decide⟩

/-- A ticket has expired unless the end of its validity is still to come. -/
theorem ServiceTicket.isExpiredAt_eq (t : ServiceTicket) (now : Instant) :
    t.isExpiredAt now = !t.assertion.validUntil.all (now < ·) := by
  unfold isExpiredAt deadline
  cases t.assertion.validUntil with
  | none => rfl
  | some deadline => simp [← Instant.not_le]

inductive StoreCall where
  | store (ticket : ServiceTicket)
  | retrieve (key : String)
  | renew (key : String) (ticket : ServiceTicket)
  | remove (key : String)

inductive StoreAnswer where
  | key (answer : Except StoreError String)
  | ticket (answer : Except StoreError (Option ServiceTicket))
  | done (answer : Except StoreError Unit)

/-- Why an operation failed, if it did. -/
def StoreError.of? {α : Type} : Except StoreError α → Option StoreError
  | .error e => some e
  | .ok _ => none

def StoreAnswer.error? : StoreAnswer → Option StoreError
  | .key answer => StoreError.of? answer
  | .ticket answer => StoreError.of? answer
  | .done answer => StoreError.of? answer

/-- Calls to a ticket store. -/
def TicketStore.machine {σ : Type} (s : TicketStore σ) : Machine σ StoreCall StoreAnswer :=
  fun now call c =>
    match call with
    | .store ticket => (.key (s.store ticket now c).1, (s.store ticket now c).2)
    | .retrieve key => (.ticket (s.retrieve key now c).1, (s.retrieve key now c).2)
    | .renew key ticket => (.done (s.renew key ticket now c).1, (s.renew key ticket now c).2)
    | .remove key => (.done (s.remove key now c).1, (s.remove key now c).2)

/-- The key that a call writes, if it writes one. -/
def StoreCall.written? : StoreCall → Option String
  | .store ticket => some ticket.id
  | .renew key _ => if key = "" then none else some key
  | .retrieve _ | .remove _ => none

/-- Refusing an empty key twice is refusing it once. -/
theorem withKey_withKey {σ α : Type} (key : String) (operation : Operation σ α) :
    withKey key (withKey key operation) = withKey key operation := by
  funext now s
  unfold withKey
  split <;> rfl

namespace RemoteStore

/-- Calls reach the cache: they do not fail, and take no longer than the store waits. -/
structure Reaches (limit : Option Span) (c : PayloadCache) : Prop where
  working : c.failing = false
  patient : ∀ span ∈ limit, ¬ span < c.latency

variable {α : Type} {limit : Option Span} {c : PayloadCache}

/-- A call that reaches the cache does there what it was made for. -/
theorem Reaches.bounded_call (h : Reaches limit c) (operation : PayloadCache → α × PayloadCache) :
    bounded limit (PayloadCache.call operation) c = (.ok (operation c).1, (operation c).2) := by
  have hcall : PayloadCache.call operation c = (.ok (operation c).1, (operation c).2) := by
    rw [PayloadCache.call, h.working, if_neg Bool.false_ne_true]
  unfold bounded
  cases hlimit : limit with
  | none => exact hcall
  | some span =>
    have hpatient := h.patient span hlimit
    simp only [if_neg hpatient, hcall]

/-- A ticket that is taken from bytes is decoded from them, and its end is still to come. -/
theorem ticketOf_eq_some {now : Instant} {bytes : List UInt8} {ticket : ServiceTicket}
    (h : ticketOf now bytes = .ok (some ticket)) :
    Portable.decode bytes = .ok ticket ∧ ticket.assertion.validUntil.all (now < ·) := by
  unfold ticketOf at h
  cases hdecode : Portable.decode (α := ServiceTicket) bytes with
  | error e =>
    rw [hdecode] at h
    cases h
  | ok t =>
    simp only [hdecode, ServiceTicket.isExpiredAt_eq] at h
    cases hvalid : t.assertion.validUntil.all (now < ·) with
    | false =>
      rw [hvalid] at h
      cases h
    | true =>
      rw [hvalid] at h
      cases h
      exact ⟨rfl, hvalid⟩

/-- Two caches that are equally slow, and of which both work or both fail, make a call, or give it up with
the same error without having done anything. -/
theorem bounded_call_both (limit : Option Span) (operation : PayloadCache → α × PayloadCache)
    {c d : PayloadCache} (hfailing : c.failing = d.failing) (hlatency : c.latency = d.latency) :
    (bounded limit (PayloadCache.call operation) c = (.ok (operation c).1, (operation c).2) ∧
        bounded limit (PayloadCache.call operation) d = (.ok (operation d).1, (operation d).2)) ∨
      ∃ e, bounded limit (PayloadCache.call operation) c = (.error e, c) ∧
        bounded limit (PayloadCache.call operation) d = (.error e, d) := by
  have hcall : (PayloadCache.call operation c = (.ok (operation c).1, (operation c).2) ∧
        PayloadCache.call operation d = (.ok (operation d).1, (operation d).2)) ∨
      ∃ e, PayloadCache.call operation c = (.error e, c) ∧
        PayloadCache.call operation d = (.error e, d) := by
    unfold PayloadCache.call
    rw [hfailing]
    cases d.failing with
    | true => exact .inr ⟨_, rfl, rfl⟩
    | false => exact .inl ⟨rfl, rfl⟩
  unfold bounded
  rw [hlatency]
  cases limit with
  | none => exact hcall
  | some span =>
    by_cases hlate : span < d.latency
    · simp only [if_pos hlate]
      exact .inr ⟨_, rfl, rfl⟩
    · simp only [if_neg hlate]
      exact hcall

/-- A call is made, or fails without having done anything. -/
theorem bounded_call_cases (limit : Option Span) (operation : PayloadCache → α × PayloadCache)
    (c : PayloadCache) :
    bounded limit (PayloadCache.call operation) c = (.ok (operation c).1, (operation c).2) ∨
      ∃ e, bounded limit (PayloadCache.call operation) c = (.error e, c) := by
  rcases bounded_call_both limit operation (Eq.refl c.failing) rfl with ⟨hok, -⟩ | ⟨e, herror, -⟩
  · exact .inl hok
  · exact .inr ⟨e, herror⟩

/-- A call that is answered got through. -/
theorem reaches_of_bounded {operation : PayloadCache → α × PayloadCache} {answer : α}
    (h : (bounded limit (PayloadCache.call operation) c).1 = .ok answer) : Reaches limit c := by
  have hworking : ∀ {answer : α}, (PayloadCache.call operation c).1 = .ok answer → c.failing = false := by
    intro answer hanswer
    rw [PayloadCache.call] at hanswer
    cases hfailing : c.failing with
    | false => rfl
    | true =>
      rw [hfailing] at hanswer
      cases hanswer
  cases hlimit : limit with
  | none =>
    rw [hlimit, bounded] at h
    refine ⟨hworking h, ?_⟩
    intro span hspan
    cases hspan
  | some span =>
    rw [hlimit, bounded] at h
    by_cases hlate : span < c.latency
    · rw [if_pos hlate] at h
      cases h
    · rw [if_neg hlate] at h
      refine ⟨hworking h, ?_⟩
      intro span' hspan
      cases hspan
      exact hlate

variable {now : Instant} {key : String}

/-- A ticket that reaches the cache is there in encoded form. -/
theorem write_eq (h : Reaches limit c) (key : String) (ticket : ServiceTicket) :
    write limit key ticket c =
      (.ok (), { c with entries := c.entries.insert key ⟨Portable.encode ticket, ticket.deadline⟩ }) :=
  h.bounded_call _

/-- A store that has kept a ticket reaches its cache. -/
theorem reaches_of_store {ticket : ServiceTicket}
    (h : ((remoteStore limit).store ticket now c).1 = .ok key) : Reaches limit c := by
  simp only [remoteStore] at h
  split at h
  · next hwrite => exact reaches_of_bounded (congrArg Prod.fst hwrite)
  · cases h

/-- A store that answers for a key reaches its cache. -/
theorem reaches_of_retrieve {answer : Option ServiceTicket}
    (h : ((remoteStore limit).retrieve key now c).1 = .ok answer) : Reaches limit c := by
  by_cases hkey : key = ""
  · simp only [remoteStore, withKey, if_pos hkey] at h
    cases h
  · simp only [remoteStore, withKey, if_neg hkey] at h
    split at h
    · next hget => exact reaches_of_bounded (congrArg Prod.fst hget)
    · next hget => exact reaches_of_bounded (congrArg Prod.fst hget)
    · cases h

/-- A store that reaches its cache takes the payload at a key for a ticket, and answers with nothing where
there is none. -/
theorem retrieve_eq (h : Reaches limit c) (hkey : key ≠ "") (now : Instant) :
    ((remoteStore limit).retrieve key now c).1 =
      match c.entries.find? key with
      | some p => if c.isExpired now p then .ok none else ticketOf now p.bytes
      | none => .ok none := by
  have hget : bounded limit (PayloadCache.get now key) c = _ := h.bounded_call _
  simp only [remoteStore, withKey, if_neg hkey, hget]
  cases c.entries.find? key with
  | none => rfl
  | some p => cases hexpired : c.isExpired now p <;> simp [hexpired]

/-- A ticket that is served is read from a payload under its key. -/
theorem payload_of_retrieve {ticket : ServiceTicket}
    (hserved : ((remoteStore limit).retrieve key now c).1 = .ok (some ticket)) :
    Reaches limit c ∧ key ≠ "" ∧
      ∃ p, c.entries.find? key = some p ∧ ticketOf now p.bytes = .ok (some ticket) := by
  have hreaches := reaches_of_retrieve hserved
  by_cases hkey : key = ""
  · simp only [remoteStore, withKey, if_pos hkey] at hserved
    cases hserved
  · refine ⟨hreaches, hkey, ?_⟩
    rw [retrieve_eq hreaches hkey] at hserved
    cases hfind : c.entries.find? key with
    | none =>
      rw [hfind] at hserved
      cases hserved
    | some p =>
      simp only [hfind] at hserved
      split at hserved
      · cases hserved
      · exact ⟨p, rfl, hserved⟩

end RemoteStore

end SessionTickets
