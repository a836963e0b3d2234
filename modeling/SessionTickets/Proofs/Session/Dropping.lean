import SessionTickets.Proofs.Session.Lawful
import SessionTickets.Proofs.Store.Backends

namespace SessionTickets

open Time

/-- A call of a client of a cache of payloads: to a session store for sessions of one shape, or direct. -/
inductive ClientCall where
  | session (shape : SessionShape) (settings : SessionSettings) (call : SessionCall shape.Session)
  | direct (call : PayloadCall)

inductive ClientAnswer where
  | session (shape : SessionShape) (answer : SessionAnswer shape.Session)
  | direct (answer : Option StoreAnswer)

namespace PayloadCache

/-- Calls of the clients of a cache, through stores that wait for a limited time. -/
def clients (limit : Option Span) : Machine PayloadCache ClientCall ClientAnswer := fun now call c =>
  match call with
  | .session shape settings call =>
    (.session shape ((SessionStore.mk (remoteStore limit) settings).machine now call c).1,
      ((SessionStore.mk (remoteStore limit) settings).machine now call c).2)
  | .direct call => (.direct (machine limit now call c).1, (machine limit now call c).2)

/-- A payload has no deadline, or holds a ticket and has the deadline of that. -/
def Honest (p : Payload) : Prop :=
  p.deadline = none ∨ ∃ ticket, p = RemoteStore.image ticket

/-- Two caches are equally slow and fail alike, and the second drops nothing. It holds what the first does,
and besides payloads past their deadlines. A deadline that is recorded for a payload is that of the ticket in
it, and a store looks at the deadline of every ticket that it reads. So a payload that one cache has dropped
is one that no store serves out of the other. -/
structure Twins (now : Instant) (c d : PayloadCache) : Prop where
  failing : c.failing = d.failing
  latency : c.latency = d.latency
  keeps : d.honorsDeadlines = false
  honest : ∀ key p, d.entries.find? key = some p → Honest p
  entry : ∀ key, c.entries.find? key = d.entries.find? key ∨
    c.entries.find? key = none ∧ (d.entries.find? key).any (·.deadline.any (· ≤ now))

variable {now : Instant} {c d : PayloadCache} {key : String}

/-- No ticket is served from an honest payload past its deadline. -/
theorem Honest.ticketOf {p : Payload} (h : Honest p) (hexpired : p.deadline.any (· ≤ now)) :
    RemoteStore.ticketOf now p.bytes = .ok none := by
  rcases h with hnone | ⟨ticket, rfl⟩
  · rw [hnone] at hexpired
    cases hexpired
  · have hticket : ticket.isExpiredAt now = true := hexpired
    rw [RemoteStore.image, RemoteStore.ticketOf_encode_eq, if_pos hticket]

namespace Twins

private theorem later {later : Instant} (hle : now ≤ later) (h : Twins now c d) : Twins later c d := by
  refine ⟨h.failing, h.latency, h.keeps, h.honest, ?_⟩
  intro k
  rcases h.entry k with hsame | ⟨hnone, hexpired⟩
  · exact .inl hsame
  · refine .inr ⟨hnone, ?_⟩
    simp only [Option.any_eq_true, decide_eq_true_eq] at hexpired ⊢
    obtain ⟨p, hfind, deadline, hdeadline, hle'⟩ := hexpired
    exact ⟨p, hfind, deadline, hdeadline, Instant.le_trans hle' hle⟩

/-- Both caches take an honest payload. -/
theorem insert (h : Twins now c d) {p : Payload} (hp : Honest p) (key : String) :
    Twins now { c with entries := c.entries.insert key p }
      { d with entries := d.entries.insert key p } := by
  refine ⟨h.failing, h.latency, h.keeps, ?_, ?_⟩
  · intro k p' hfind
    simp only [SortedMap.find?_insert] at hfind
    split at hfind
    · cases hfind
      exact hp
    · exact h.honest k p' hfind
  · intro k
    simp only [SortedMap.find?_insert]
    split
    · exact .inl rfl
    · exact h.entry k

private theorem erase (h : Twins now c d) (key : String) :
    Twins now { c with entries := c.entries.erase key } { d with entries := d.entries.erase key } := by
  refine ⟨h.failing, h.latency, h.keeps, ?_, ?_⟩
  · intro k p hfind
    simp only [SortedMap.find?_erase] at hfind
    split at hfind
    · cases hfind
    · exact h.honest k p hfind
  · intro k
    simp only [SortedMap.find?_erase]
    split
    · exact .inl rfl
    · exact h.entry k

/-- The first cache may drop a payload past its deadline. -/
theorem drop (h : Twins now c d) (hexpired : (d.entries.find? key).any (·.deadline.any (· ≤ now))) :
    Twins now { c with entries := c.entries.erase key } d := by
  refine ⟨h.failing, h.latency, h.keeps, h.honest, ?_⟩
  intro k
  simp only [SortedMap.find?_erase]
  split
  · next hk =>
    rw [hk]
    exact .inr ⟨rfl, hexpired⟩
  · exact h.entry k

/-- A call gets through to both caches or to neither, with the same error. -/
private theorem bounded {α : Type} (h : Twins now c d) (limit : Option Span)
    {operation : PayloadCache → α × PayloadCache} (hanswer : (operation c).1 = (operation d).1)
    (hnext : Twins now (operation c).2 (operation d).2) :
    Agree (Twins now) (RemoteStore.bounded limit (call operation) c)
      (RemoteStore.bounded limit (call operation) d) := by
  rcases RemoteStore.bounded_call_both limit operation h.failing h.latency with ⟨hc, hd⟩ | ⟨e, hc, hd⟩
  · rw [hc, hd]
    exact ⟨congrArg Except.ok hanswer, hnext⟩
  · rw [hc, hd]
    exact ⟨rfl, h⟩

private theorem write (h : Twins now c d) (limit : Option Span) (key : String) (ticket : ServiceTicket) :
    Agree (Twins now) (RemoteStore.write limit key ticket c) (RemoteStore.write limit key ticket d) :=
  h.bounded limit rfl (h.insert (.inr ⟨ticket, rfl⟩) key)

/-- To remove a payload keeps the relation, and both caches answer alike. -/
private theorem remove (h : Twins now c d) (limit : Option Span) (key : String) :
    Agree (Twins now) (RemoteStore.bounded limit (PayloadCache.remove key) c)
      (RemoteStore.bounded limit (PayloadCache.remove key) d) :=
  h.bounded limit rfl (h.erase key)

/-- What the second cache shows of a payload that the first has dropped, or drops now, is refused. -/
theorem retrieve (h : Twins now c d) (limit : Option Span) (key : String) :
    Agree (Twins now) ((remoteStore limit).retrieve key now c) ((remoteStore limit).retrieve key now d) := by
  apply withKey_agree h
  intro _
  have hshown : ∀ p, d.isExpired now p = false := by
    intro p
    rw [isExpired, h.keeps, Bool.false_and]
  rcases RemoteStore.bounded_call_both limit _ h.failing h.latency with ⟨hc, hd⟩ | ⟨e, hc, hd⟩
  · rw [get, hc, hd]
    rcases h.entry key with hsame | ⟨hnone, hexpired⟩
    -- Both hold the payload. The first drops it now if it is past its deadline.
    · rw [hsame]
      cases hfind : d.entries.find? key with
      | none => exact ⟨rfl, h⟩
      | some p =>
        cases hdropped : c.isExpired now p with
        | false =>
          simp only [hdropped, hshown, Bool.false_eq_true, if_false]
          exact ⟨rfl, h⟩
        | true =>
          have hexpired : p.deadline.any (· ≤ now) := (Bool.and_eq_true_iff.1 hdropped).2
          simp only [hdropped, hshown, Bool.false_eq_true, if_false, if_true]
          rw [(h.honest key p hfind).ticketOf hexpired]
          refine ⟨rfl, h.drop ?_⟩
          rw [hfind, Option.any_some]
          exact hexpired
    -- The first has dropped the payload before.
    · obtain ⟨p, hfind, hp⟩ := (Option.any_eq_true _ _).1 hexpired
      simp only [hnone, hfind, hshown, Bool.false_eq_true, if_false]
      rw [(h.honest key p hfind).ticketOf hp]
      exact ⟨rfl, h⟩
  · rw [get, hc, hd]
    exact ⟨rfl, h⟩

private theorem store (h : Twins now c d) (limit : Option Span) (ticket : ServiceTicket) :
    Agree (Twins now) ((remoteStore limit).store ticket now c) ((remoteStore limit).store ticket now d) := by
  obtain ⟨hanswer, hnext⟩ := h.write limit ticket.id ticket
  simp only [remoteStore]
  rcases hc : RemoteStore.write limit ticket.id ticket c with ⟨answer, c'⟩
  rcases hd : RemoteStore.write limit ticket.id ticket d with ⟨answer', d'⟩
  rw [hc, hd] at hanswer hnext
  obtain rfl : answer = answer' := hanswer
  cases answer <;> exact ⟨rfl, hnext⟩

/-- A ticket store answers each call alike. -/
theorem storeMachine (h : Twins now c d) (limit : Option Span) (call : StoreCall) :
    ((remoteStore limit).machine now call c).1 = ((remoteStore limit).machine now call d).1 ∧
      Twins now ((remoteStore limit).machine now call c).2 ((remoteStore limit).machine now call d).2 := by
  apply TicketStore.machine_agree
  · exact h.store limit
  · exact h.retrieve limit
  · exact fun key ticket => withKey_agree h fun _ => h.write limit key ticket
  · exact fun key => withKey_agree h fun _ => h.remove limit key

/-- Every client is answered alike. -/
theorem step (h : Twins now c d) (limit : Option Span) (call : ClientCall) :
    (clients limit now call c).1 = (clients limit now call d).1 ∧
      Twins now (clients limit now call c).2 (clients limit now call d).2 := by
  cases call with
  | session shape settings call =>
    have hagree := SessionStore.machine_agree h (h.storeMachine limit) settings call
    exact ⟨congrArg (ClientAnswer.session shape) hagree.1, hagree.2⟩
  | direct call =>
    cases call with
    | store call =>
      have hagree := h.storeMachine limit call
      exact ⟨congrArg (ClientAnswer.direct ∘ some) hagree.1, hagree.2⟩
    | signOut settings key =>
      have hagree := h.storeMachine limit (.remove key)
      simp only [clients, machine, SessionStore.signOut_remote]
      exact ⟨congrArg (ClientAnswer.direct ∘ some) hagree.1, hagree.2⟩
    | plant key bytes => exact ⟨rfl, h.insert (.inl rfl) key⟩
    | fail failing => exact ⟨rfl, rfl, h.latency, h.keeps, h.honest, h.entry⟩

private theorem empty (now : Instant) (honorsDeadlines : Bool) (latency : Span) :
    Twins now (.empty honorsDeadlines latency) (.empty false latency) := by
  refine ⟨rfl, rfl, rfl, ?_, fun _ => .inl rfl⟩
  intro key p hfind
  cases hfind

end Twins

/-- Calls that store a ticket and look for it at a later time. -/
def lookLater (ticket : ServiceTicket) (stored later : Instant) : Calls ClientCall :=
  [(stored, .direct (.store (.store ticket))), (later, .direct (.store (.retrieve ticket.id)))]

/-- A ticket that is looked for past its deadline is held on to by the cache that does not drop it. -/
theorem payload?_lookLater {limit : Option Span} {latency : Span}
    (hpatient : ∀ span ∈ limit, ¬ span < latency) (honorsDeadlines : Bool) {ticket : ServiceTicket}
    (stored : Instant) {later : Instant} (hexpired : ticket.isExpiredAt later) :
    ((clients limit).run (.empty honorsDeadlines latency)
        (lookLater ticket stored later)).2.payload? ticket.id =
      if honorsDeadlines then none else some (RemoteStore.image ticket) := by
  have hreaches : RemoteStore.Reaches limit (.empty honorsDeadlines latency) := ⟨rfl, hpatient⟩
  let held : PayloadCache := { empty honorsDeadlines latency with
    entries := SortedMap.empty.insert ticket.id (RemoteStore.image ticket) }
  have hstored : ((remoteStore limit).store ticket stored (.empty honorsDeadlines latency)).2 = held := by
    rw [RemoteStore.state_store, RemoteStore.write_eq hreaches]
    rfl
  have hfind : held.entries.find? ticket.id = some (RemoteStore.image ticket) := by
    rw [SortedMap.find?_insert, if_pos rfl]
  have hget : RemoteStore.bounded limit (get later ticket.id) held = _ :=
    RemoteStore.Reaches.bounded_call ⟨rfl, hpatient⟩ _
  change ((remoteStore limit).retrieve ticket.id later
    ((remoteStore limit).store ticket stored (.empty honorsDeadlines latency)).2).2.payload? ticket.id = _
  rw [hstored, RemoteStore.state_retrieve limit ticket.id_ne, hget, hfind]
  have hdropped : held.isExpired later (RemoteStore.image ticket) = honorsDeadlines :=
    (congrArg (honorsDeadlines && ·) hexpired).trans (Bool.and_true _)
  cases honorsDeadlines with
  | true =>
    simp only [hdropped, if_true]
    rw [payload?, SortedMap.find?_erase, if_pos rfl]
  | false =>
    simp only [hdropped, Bool.false_eq_true, if_false]
    exact hfind

/-- No client can tell whether a cache drops payloads at their deadlines: as long as the clock does not go
backwards, every call is answered alike, whatever bytes are planted and whenever calls fail or take too
long. All the same, where calls get through at all, what is held comes to differ. -/
theorem dropping_unseen (limit : Option Span) (latency : Span) :
    (∀ calls : Calls ClientCall, Forward calls →
      ((clients limit).run (.empty true latency) calls).1 =
        ((clients limit).run (.empty false latency) calls).1) ∧
    ((∀ span ∈ limit, ¬ span < latency) → ∃ (calls : Calls ClientCall) (key : String), Forward calls ∧
      ((clients limit).run (.empty true latency) calls).2.payload? key = none ∧
      (((clients limit).run (.empty false latency) calls).2.payload? key).isSome) := by
  constructor
  · intro calls hforward
    apply Machine.run_log_eq Twins (fun _ => True) ?_ ?_ hforward
    · exact fun _ _ => trivial
    · exact fun now => Twins.empty now true latency
    · exact fun _ _ _ _ hle h => h.later hle
    · exact fun _ _ _ call _ h => h.step limit call
  · intro hpatient
    let ticket := ServiceTicket.lasting (some (.onSecond 5)) "ST-1"
    have hexpired : ticket.isExpiredAt (.onSecond 5) := by decide
    refine ⟨lookLater ticket (.onSecond 0) (.onSecond 5), ticket.id, ?_, ?_, ?_⟩
    · exact List.pairwise_pair.2 (by decide)
    · exact payload?_lookLater hpatient true _ hexpired
    · rw [payload?_lookLater hpatient false _ hexpired]
      rfl

/-- A ticket is looked for while calls fail, and at its deadline when they work. The cache that has kept it
until then answers like the one that drops it, and both report bytes that hold no ticket. -/
theorem dropping_unseen_at_deadline :
    let limit := some (Span.ofSeconds 1)
    let latency := Span.ofMillis 5
    let ticket := ServiceTicket.lasting (some (.onSecond 5)) "ST-1"
    let calls : Calls ClientCall :=
      [(.onSecond 0, .direct (.store (.store ticket))), (.onSecond 1, .direct (.plant "ST-2" [0x78])),
        (.onSecond 2, .direct (.fail true)), (.onSecond 3, .session .identity .standard (.retrieve "ST-1")),
        (.onSecond 4, .direct (.fail false)), (.onSecond 5, .session .scheme .standard (.retrieve "ST-1")),
        (.onSecond 5, .direct (.store (.retrieve "ST-2"))),
        (.onSecond 6, .session .scheme .standard (.signOut "ST-1"))]
    Forward calls ∧ (∀ span ∈ limit, ¬ span < latency) ∧
      ((clients limit).run (.empty false latency) calls).1.map (·.2) =
        [.direct (some (.key (.ok "ST-1"))), .direct none, .direct none,
          .session .identity (.session (.error (.backend "injected cache failure"))), .direct none,
          .session .scheme (.session (.ok none)),
          .direct (some (.ticket (.error (.corrupt (.unreadable "no document of the expected form"))))),
          .session .scheme (.done (.ok ()))] ∧
      ∃ (calls : Calls ClientCall) (key : String), Forward calls ∧
        ((clients limit).run (.empty true latency) calls).2.payload? key = none ∧
        (((clients limit).run (.empty false latency) calls).2.payload? key).isSome := by
  intro limit latency ticket calls
  have hforward : Forward calls := by decide
  have hpatient : ∀ span ∈ limit, ¬ span < latency := by decide
  obtain ⟨hlog, hheld⟩ := dropping_unseen limit latency
  refine ⟨hforward, hpatient, ?_, hheld hpatient⟩
  rw [← hlog calls hforward]
  simp only [calls, ticket, limit, latency]
  rfl

end PayloadCache

end SessionTickets
