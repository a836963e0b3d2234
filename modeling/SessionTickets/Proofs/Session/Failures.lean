import SessionTickets.Proofs.Cache.Recency
import SessionTickets.Proofs.Session.Dropping
import SessionTickets.Proofs.Store.Outcome

namespace SessionTickets

open Time

def ClientAnswer.error? : ClientAnswer → Option StoreError
  | .session _ answer => answer.error?
  | .direct answer => answer.bind StoreAnswer.error?

/-- The call to a cache of payloads that a call of a client comes to. -/
def ClientCall.payloadCall? : ClientCall → Option PayloadCall
  | .session _ settings call => (call.storeCall? settings).map .store
  | .direct call => some call

/-- A call does not write or remove what is held at a key; it may try to, and fail. -/
def PayloadCall.Leaves (limit : Option Span) (key : String) (now : Instant) (c : PayloadCache)
    (call : PayloadCall) : Prop :=
  ∀ effect, effect? (call, (PayloadCache.machine limit now call c).1) ≠ some (key, effect)

/-- A call of a client does not write or remove what is held at a key; it may try to, and fail. -/
def ClientCall.Leaves (limit : Option Span) (key : String) (now : Instant) (c : PayloadCache)
    (call : ClientCall) : Prop :=
  ∀ payloadCall ∈ call.payloadCall?, payloadCall.Leaves limit key now c

namespace PayloadCache

variable {limit : Option Span} {now : Instant} {c : PayloadCache} {key : String} {p : Payload}

/-- A call of a client does to the cache what the call to the cache does that it comes to. -/
private theorem clients_eq_payloadCall (limit : Option Span) (now : Instant) (call : ClientCall) (c : PayloadCache) :
    (clients limit now call c).2 =
      call.payloadCall?.elim c fun call => (machine limit now call c).2 := by
  cases call with
  | session shape settings call =>
    have hcall := (SessionStore.mk (remoteStore limit) settings).machine_eq_storeCall now call c
    simp only [clients, ClientCall.payloadCall?]
    rw [hcall]
    cases call.storeCall? settings <;> rfl
  | direct call => rfl

/-- A call over payloads that fails leaves the cache as it is. -/
private theorem clients_of_error {call : ClientCall} {e : StoreError}
    (h : (clients limit now call c).1.error? = some e) : (clients limit now call c).2 = c := by
  cases call with
  | session shape settings call =>
    obtain ⟨-, hsame⟩ | ⟨storeCall, -, herror, hnext⟩ :=
      (SessionStore.mk (remoteStore limit) settings).machine_of_error h
    · exact hsame
    · exact hnext.trans (RemoteStore.machine_of_error herror)
  | direct call =>
    cases call with
    | store call => exact RemoteStore.machine_of_error h
    | signOut settings key =>
      simp only [clients, machine, SessionStore.signOut_remote] at h ⊢
      have herror : ((remoteStore limit).machine now (.remove key) c).1.error? = some e := h
      exact RemoteStore.machine_of_error herror
    | plant key bytes => cases h
    | fail failing => cases h

/-- A payload stays until it expires, or a call writes or removes its key. -/
theorem payload?_machine {call : PayloadCall} (hfind : c.payload? key = some p)
    (hlive : c.isExpired now p = false) (hcall : call.Leaves limit key now c) :
    (machine limit now call c).2.payload? key = some p := by
  have hstore : ∀ storeCall : StoreCall, (∀ effect, PayloadCall.storeEffect? storeCall
      ((remoteStore limit).machine now storeCall c).1 ≠ some (key, effect)) →
        ((remoteStore limit).machine now storeCall c).2.payload? key = some p := by
    intro storeCall hleaves
    apply RemoteStore.find?_machine hfind hlive
    intro effect heffect
    apply hleaves (effect.map .ticket)
    rw [PayloadCall.storeEffect?, heffect, Option.map_some]
  cases call with
  | store storeCall => exact hstore storeCall hcall
  | signOut settings k =>
    simp only [PayloadCall.Leaves, machine, SessionStore.signOut_remote] at hcall ⊢
    exact hstore (.remove k) hcall
  | plant k bytes =>
    have hne : key ≠ k := fun hk => hcall (.write (.raw bytes)) (hk ▸ rfl)
    rw [payload?, machine, plant, SortedMap.find?_insert, if_neg hne]
    exact hfind
  | fail failing => exact hfind

/-- Every payload that is held is honest: all others were written with the deadlines of their tickets. -/
def AllHonest (c : PayloadCache) : Prop :=
  ∀ key p, c.entries.find? key = some p → Honest p

private theorem AllHonest.insert (h : AllHonest c) (hp : Honest p) (key : String) :
    AllHonest { c with entries := c.entries.insert key p } := by
  intro k q hfind
  rw [SortedMap.find?_insert] at hfind
  split at hfind
  · cases hfind
    exact hp
  · exact h k q hfind

private theorem AllHonest.erase (h : AllHonest c) (key : String) :
    AllHonest { c with entries := c.entries.erase key } := by
  intro k q hfind
  rw [SortedMap.find?_erase] at hfind
  split at hfind
  · cases hfind
  · exact h k q hfind

private theorem AllHonest.store (h : AllHonest c) (limit : Option Span) (now : Instant) (call : StoreCall) :
    AllHonest ((remoteStore limit).machine now call c).2 := by
  have houtcome := RemoteStore.outcome limit now call c
  generalize (remoteStore limit).machine now call c = result at houtcome
  cases houtcome with
  | failed => exact h
  | written => exact h.insert (.inr ⟨_, rfl⟩) _
  | removed => exact h.erase _
  | dropped => exact h.erase _
  | looked => exact h

/-- No call of a client makes a payload that is not honest: planted bytes have no deadline. -/
private theorem AllHonest.clients (h : AllHonest c) (limit : Option Span) (now : Instant) (call : ClientCall) :
    AllHonest (clients limit now call c).2 := by
  rw [clients_eq_payloadCall]
  cases call.payloadCall? with
  | none => exact h
  | some call =>
    cases call with
    | store call => exact h.store limit now call
    | signOut settings key =>
      simp only [Option.elim_some, machine, SessionStore.signOut_remote]
      exact h.store limit now (.remove key)
    | plant key bytes => exact h.insert (.inl rfl) key
    | fail failing => exact h

private theorem allHonest_run (limit : Option Span) (honorsDeadlines : Bool) (latency : Span)
    (calls : Calls ClientCall) :
    AllHonest ((PayloadCache.clients limit).run (.empty honorsDeadlines latency) calls).2 := by
  apply Machine.run_invariant (P := fun _ c => AllHonest c)
  · intro key p hfind
    cases hfind
  · exact fun _ _ now call h => h.clients limit now call

/-- Bytes that are no ticket have no deadline. -/
theorem Honest.deadline_eq_none (h : Honest p) {e : CodecError}
    (hdecode : Portable.decode (α := ServiceTicket) p.bytes = .error e) : p.deadline = none := by
  obtain hnone | ⟨ticket, rfl⟩ := h
  · exact hnone
  · rw [RemoteStore.image, ServiceTicket.decode_encode] at hdecode
    cases hdecode

/-- Bytes that are no ticket stay until their key is written or removed, and are reported whenever the
key is looked at. -/
theorem corrupt_stays (hhonest : AllHonest c) (hheld : c.payload? key = some p) {e : CodecError}
    (hdecode : Portable.decode (α := ServiceTicket) p.bytes = .error e) {more : Calls ClientCall}
    (hmore : (clients limit).Throughout (fun _ now call c => call.Leaves limit key now c) [] c more) :
    let later := ((clients limit).run c more).2
    later.payload? key = some p ∧ (key ≠ "" → RemoteStore.Reaches limit later →
      ∀ now, ((remoteStore limit).retrieve key now later).1 = .error (.ofCodec e)) := by
  intro later
  have hdeadline : p.deadline = none := (hhonest key p hheld).deadline_eq_none hdecode
  -- Only those who plant bytes leave what is no ticket, and they set no deadline.
  have hlive : ∀ now (d : PayloadCache), d.isExpired now p = false := by
    intro now d
    rw [isExpired, hdeadline, Option.any_none, Bool.and_false]
  have hstays : later.payload? key = some p := by
    apply (clients limit).run_keeps (fun _ c => c.payload? key = some p) ?_ hmore hheld
    intro _ now c call hcall hfind
    rw [clients_eq_payloadCall]
    cases hpayload : call.payloadCall? with
    | none => exact hfind
    | some payloadCall => exact payload?_machine hfind (hlive now c) (hcall payloadCall hpayload)
  refine ⟨hstays, fun hkey hreaches now => ?_⟩
  rw [payload?] at hstays
  simp only [RemoteStore.retrieve_eq hreaches hkey, hstays, hlive, Bool.false_eq_true, if_false,
    RemoteStore.ticketOf, hdecode]

end PayloadCache

/-- A call of a client of a shared cache: to a session store for sessions of one shape over a ticket
store with some prefix, or of another user. -/
inductive SharedClientCall where
  | session (keyPrefix : String) (shape : SessionShape) (settings : SessionSettings)
    (call : SessionCall shape.Session)
  | other (call : SharedCall)

inductive SharedClientAnswer where
  | session (shape : SessionShape) (answer : SessionAnswer shape.Session)
  | other (answer : SharedAnswer)

/-- Calls of the clients of a shared cache. -/
def SharedCache.clients : Machine SharedCache SharedClientCall SharedClientAnswer := fun now call c =>
  match call with
  | .session keyPrefix shape settings call =>
    (.session shape ((SessionStore.mk (localStore keyPrefix) settings).machine now call c).1,
      ((SessionStore.mk (localStore keyPrefix) settings).machine now call c).2)
  | .other call => (.other (machine now call c).1, (machine now call c).2)

def SharedAnswer.error? : SharedAnswer → Option StoreError
  | .store answer => answer.error?
  | .raw _ => none

def SharedClientAnswer.error? : SharedClientAnswer → Option StoreError
  | .session _ answer => answer.error?
  | .other answer => answer.error?

/-- The call to the cache that a call of a client comes to. -/
def SharedClientCall.cacheCall? : SharedClientCall → Option (CacheCall SharedValue)
  | .session keyPrefix _ settings call => (call.storeCall? settings).bind (·.cacheCall? keyPrefix)
  | .other call => call.cacheCall?

/-- A call of a client does not write or remove what is held at a key, nor evict it. -/
def SharedClientCall.Leaves (key : String) (now : Instant) (c : SharedCache) (call : SharedClientCall) :
    Prop :=
  ∀ cacheCall ∈ call.cacheCall?, cacheCall.Leaves key now c

/-- The prefix and the key at which a call looks for a ticket or a session. -/
def SharedClientCall.soughtKey? : SharedClientCall → Option (String × String)
  | .session keyPrefix _ _ (.retrieve key) => some (keyPrefix, key)
  | .other (.store keyPrefix (.retrieve key)) => some (keyPrefix, key)
  | _ => none

/-- A call that comes to a look for a ticket is a look for a session at the same key. -/
private theorem SharedClientCall.soughtKey?_of_storeCall? {shape : SessionShape} {settings : SessionSettings}
    {call : SessionCall shape.Session} {key : String} (h : call.storeCall? settings = some (.retrieve key))
    (keyPrefix : String) :
    (SharedClientCall.session keyPrefix shape settings call).soughtKey? = some (keyPrefix, key) := by
  cases call with
  | retrieve k =>
    cases h
    rfl
  | store fresh session =>
    obtain ⟨ticket, -, hticket⟩ := Option.map_eq_some_iff.1 h
    cases hticket
  | renew k session =>
    obtain ⟨ticket, -, hticket⟩ := Option.map_eq_some_iff.1 h
    cases hticket
  | remove k => cases h
  | signOut k =>
    rw [SessionCall.storeCall?] at h
    split at h <;> cases h

/-- A cache holds what it did before a call failed, in the same order of use. Only where the call has found
a value that is no ticket, the entry of that value has become the most recently used. -/
structure SharedCache.Unharmed (call : SharedClientCall) (e : StoreError) (c next : SharedCache) :
    Prop where
  held : ∀ key, next.held? key = c.held? key
  deadlines : next.deadlines = c.deadlines
  capacity : next.capacity = c.capacity
  moved : ∀ key, e = .corrupt (.notATicket key) → ∃ keyPrefix held text,
    call.soughtKey? = some (keyPrefix, key) ∧ c.held? (keyPrefix ++ key) = some held ∧
      held.value = .text text ∧
      next.recent = (keyPrefix ++ key, held) :: c.recent.filter (·.1 ≠ keyPrefix ++ key)
  unmoved : (∀ key, e ≠ .corrupt (.notATicket key)) → next.recent = c.recent

namespace LocalStore

variable {keyPrefix : String} {now : Instant} {c : SharedCache}

/-- Only a value of another user is not taken for a ticket. -/
private theorem ticketOf_eq_error {key : String} {value : Option SharedValue} {e : StoreError}
    (h : ticketOf key value = .error e) : ∃ text, value = some (.text text) ∧ e = .corrupt (.notATicket key) := by
  unfold ticketOf at h
  split at h
  · cases h
  · cases h
  · cases h
    exact ⟨_, rfl, rfl⟩

/-- An operation under a key that fails was refused for the key, or fails itself. -/
private theorem withKey_of_error {α : Type} {key : String} {operation : Operation SharedCache α} {e : StoreError}
    (h : StoreError.of? (withKey key operation now c).1 = some e) :
    e = .emptyKey ∧ (withKey key operation now c).2 = c ∨
      withKey key operation now c = operation now c ∧ StoreError.of? (operation now c).1 = some e := by
  unfold withKey at h ⊢
  split at h
  · next hkey =>
    cases h
    rw [if_pos hkey]
    exact .inl ⟨rfl, rfl⟩
  · next hkey =>
    rw [if_neg hkey]
    exact .inr ⟨rfl, h⟩

/-- A call that fails was refused for its key, or has found a value that is no ticket. -/
theorem machine_of_error {call : StoreCall} {e : StoreError}
    (h : ((localStore keyPrefix).machine now call c).1.error? = some e) :
    e = .emptyKey ∧ ((localStore keyPrefix).machine now call c).2 = c ∨
      ∃ key held text, call = .retrieve key ∧ e = .corrupt (.notATicket key) ∧
        c.held? (keyPrefix ++ key) = some held ∧ held.value = .text text ∧
        ((localStore keyPrefix).machine now call c).2 =
          { c with recent := (keyPrefix ++ key, held) :: c.others [keyPrefix ++ key] } := by
  cases call with
  | store ticket => cases h
  | retrieve key =>
    obtain hrefused | ⟨hdone, herror⟩ := withKey_of_error h
    · exact .inl hrefused
    · cases hticket : ticketOf key (c.get now (keyPrefix ++ key)).1 with
      | ok ticket =>
        simp only [hticket] at herror
        cases herror
      | error e' =>
        simp only [hticket] at herror
        cases herror
        obtain ⟨text, hfound, he⟩ := ticketOf_eq_error hticket
        obtain ⟨held, hheld, hvalue, hnext⟩ := BoundedCache.get_of_some hfound
        exact .inr ⟨key, held, text, rfl, he, hheld, hvalue, (congrArg Prod.snd hdone).trans hnext⟩
  | renew key ticket =>
    obtain hrefused | ⟨-, herror⟩ := withKey_of_error h
    · exact .inl hrefused
    · cases herror
  | remove key =>
    obtain hrefused | ⟨-, herror⟩ := withKey_of_error h
    · exact .inl hrefused
    · cases herror

end LocalStore

namespace SharedCache

variable {c : SharedCache} {now : Instant} {call : SharedClientCall} {e : StoreError}

/-- To be refused does no harm. -/
theorem Unharmed.of_refused (call : SharedClientCall) (he : ∀ cause, e ≠ .corrupt cause) (c : SharedCache) :
    Unharmed call e c c :=
  ⟨fun _ => rfl, rfl, rfl, fun _ hcorrupt => absurd hcorrupt (he _), fun _ => rfl⟩

/-- To move an entry to the front does no harm. -/
theorem Unharmed.of_moved {keyPrefix key text : String} {held : Held SharedValue}
    (hsought : call.soughtKey? = some (keyPrefix, key)) (he : e = .corrupt (.notATicket key))
    (hheld : c.held? (keyPrefix ++ key) = some held) (hvalue : held.value = .text text) :
    Unharmed call e c { c with recent := (keyPrefix ++ key, held) :: c.others [keyPrefix ++ key] } := by
  refine ⟨?_, rfl, rfl, ?_, fun hne => absurd he (hne key)⟩
  · intro k
    rw [BoundedCache.held?, SortedMap.lookup_cons_if, BoundedCache.lookup_others_singleton]
    split
    · next hk => rw [hk, hheld]
    · rfl
  · intro k hk
    cases he.symm.trans hk
    exact ⟨keyPrefix, held, text, hsought, hheld, hvalue, congrArg _ (c.others_singleton _)⟩

/-- A call of a ticket store that fails does no harm, whoever makes it. -/
theorem unharmed_of_localStore {keyPrefix : String} {storeCall : StoreCall}
    (hsought : ∀ key, storeCall = .retrieve key → call.soughtKey? = some (keyPrefix, key))
    (h : ((localStore keyPrefix).machine now storeCall c).1.error? = some e) :
    Unharmed call e c ((localStore keyPrefix).machine now storeCall c).2 := by
  obtain ⟨he, hsame⟩ | ⟨key, held, text, hcall, he, hheld, hvalue, hmoved⟩ := LocalStore.machine_of_error h
  · rw [hsame]
    exact .of_refused call (by rw [he]; nofun) c
  · rw [hmoved]
    exact .of_moved (hsought key hcall) he hheld hvalue

/-- A call that fails in a shared cache leaves the entries as they are, but for the order of use after a value
was found that is no ticket. -/
private theorem clients_of_error (h : (clients now call c).1.error? = some e) :
    Unharmed call e c (clients now call c).2 := by
  cases call with
  | session keyPrefix shape settings call =>
    obtain ⟨he, hsame⟩ | ⟨storeCall, hcall, herror, hnext⟩ :=
      (SessionStore.mk (localStore keyPrefix) settings).machine_of_error h
    · simp only [clients, hsame]
      exact .of_refused _ he c
    · simp only [clients, hnext]
      refine unharmed_of_localStore (fun key hretrieve => ?_) herror
      exact SharedClientCall.soughtKey?_of_storeCall? (hretrieve ▸ hcall) keyPrefix
  | other call =>
    cases call with
    | store keyPrefix call =>
      refine unharmed_of_localStore (fun key hretrieve => ?_) h
      rw [hretrieve]
      rfl
    | signOut keyPrefix settings key =>
      simp only [clients, machine, SessionStore.signOut_local] at h ⊢
      have herror : ((localStore keyPrefix).machine now (.remove key) c).1.error? = some e := h
      refine unharmed_of_localStore (fun _ hretrieve => ?_) herror
      cases hretrieve
    | raw call => cases h

private theorem clients_eq_cacheCall (now : Instant) (call : SharedClientCall) (c : SharedCache) :
    (clients now call c).2 =
      call.cacheCall?.elim c fun call => (BoundedCache.machine now call c).2 := by
  cases call with
  | session keyPrefix shape settings call =>
    have hcall := (SessionStore.mk (localStore keyPrefix) settings).machine_eq_storeCall now call c
    simp only [clients, SharedClientCall.cacheCall?]
    rw [hcall]
    cases call.storeCall? settings with
    | none => rfl
    | some storeCall => exact LocalStore.machine_eq_cacheCall keyPrefix now storeCall c
  | other call => exact machine_eq_cacheCall now call c

private theorem consistent_clients (h : c.Consistent) (now : Instant) (call : SharedClientCall) :
    BoundedCache.Consistent (clients now call c).2 := by
  rw [clients_eq_cacheCall]
  cases call.cacheCall? with
  | none => exact h
  | some call => exact h.step now call

/-- A value that is no ticket stays until its deadline, unless its key is written or removed or its
entry evicted, and is reported whenever a store looks at the key. -/
theorem foreign_stays (hconsistent : c.Consistent) {keyPrefix key text : String} {held : Held SharedValue}
    (hheld : c.held? (keyPrefix ++ key) = some held) (hvalue : held.value = .text text)
    {more : Calls SharedClientCall}
    (hmore : clients.Throughout
      (fun _ now call c => held.isLive now ∧ call.Leaves (keyPrefix ++ key) now c) [] c more) :
    let later := (clients.run c more).2
    later.held? (keyPrefix ++ key) = some held ∧ (key ≠ "" → ∀ now, held.isLive now →
      ((localStore keyPrefix).retrieve key now later).1 = .error (.corrupt (.notATicket key))) := by
  intro later
  have hstays : BoundedCache.Consistent later ∧ later.held? (keyPrefix ++ key) = some held := by
    apply clients.run_keeps
      (fun _ (c : SharedCache) => c.Consistent ∧ c.held? (keyPrefix ++ key) = some held) ?_ hmore
      ⟨hconsistent, hheld⟩
    rintro _ now c call ⟨hlive, hcall⟩ ⟨hconsistent, hheld⟩
    refine ⟨consistent_clients hconsistent now call, ?_⟩
    rw [clients_eq_cacheCall]
    cases hcache : call.cacheCall? with
    | none => exact hheld
    | some cacheCall => exact hconsistent.held?_machine_of_leaves hheld hlive (hcall cacheCall hcache)
  refine ⟨hstays.2, fun hkey now hlive => ?_⟩
  rw [LocalStore.retrieve_eq hstays.1 hkey, hstays.2, Option.filter_some, if_pos hlive, Option.map_some,
    hvalue]
  rfl

private theorem consistent_clients_run (capacity : Nat) (calls : Calls SharedClientCall) :
    (clients.run (.empty capacity) calls).2.Consistent := by
  apply Machine.run_invariant (P := fun _ c => BoundedCache.Consistent c)
  · exact BoundedCache.consistent_empty capacity
  · exact fun _ _ now call h => consistent_clients h now call

end SharedCache

/-- (a) Over payloads a call that fails changes nothing, so all such calls can be deleted from a run: the
others are answered as before, and the cache ends as before. (b) In a shared cache it changes nothing
either, but that a value which is no ticket becomes the most recently used where it is found in place of one.
After any run what is no ticket stays, and is reported, until it expires, or its key is written or removed,
or its entry evicted. -/
theorem SessionStore.failed_leaves_no_trace :
    (∀ limit honorsDeadlines latency (calls : Calls ClientCall),
      let clients := PayloadCache.clients limit
      let start := PayloadCache.empty honorsDeadlines latency
      let run := clients.run start calls
      (∀ now call e, (clients now call run.2).1.error? = some e → (clients now call run.2).2 = run.2) ∧
      clients.run start (clients.answered (·.error?.isNone) start calls) =
        (run.1.filter (·.2.error?.isNone), run.2) ∧
      ∀ key p e more, run.2.payload? key = some p →
        Portable.decode (α := ServiceTicket) p.bytes = .error e →
        clients.Throughout (fun _ now call c => call.Leaves limit key now c) [] run.2 more →
          let later := (clients.run run.2 more).2
          later.payload? key = some p ∧ (key ≠ "" → RemoteStore.Reaches limit later →
            ∀ now, ((remoteStore limit).retrieve key now later).1 = .error (.ofCodec e))) ∧
    ∀ capacity (calls : Calls SharedClientCall),
      let clients := SharedCache.clients
      let c := (clients.run (.empty capacity) calls).2
      (∀ now call e, (clients now call c).1.error? = some e →
        SharedCache.Unharmed call e c (clients now call c).2) ∧
      ∀ keyPrefix key held text more, c.held? (keyPrefix ++ key) = some held → held.value = .text text →
        clients.Throughout
          (fun _ now call c => held.isLive now ∧ call.Leaves (keyPrefix ++ key) now c) [] c more →
          let later := (clients.run c more).2
          later.held? (keyPrefix ++ key) = some held ∧ (key ≠ "" → ∀ now, held.isLive now →
            ((localStore keyPrefix).retrieve key now later).1 = .error (.corrupt (.notATicket key))) := by
  constructor
  · intro limit honorsDeadlines latency calls clients start run
    refine ⟨fun now call e herror => PayloadCache.clients_of_error herror, ?_, ?_⟩
    · apply clients.run_answered
      intro now call c hfailed
      rw [Option.isNone_eq_false_iff] at hfailed
      obtain ⟨e, herror⟩ := Option.isSome_iff_exists.1 hfailed
      exact PayloadCache.clients_of_error herror
    · intro key p e more hheld hdecode hmore
      exact PayloadCache.corrupt_stays (PayloadCache.allHonest_run limit honorsDeadlines latency calls)
        hheld hdecode hmore
  · intro capacity calls clients c
    refine ⟨fun now call e herror => SharedCache.clients_of_error herror, ?_⟩
    intro keyPrefix key held text more hheld hvalue hmore
    exact SharedCache.foreign_stays (SharedCache.consistent_clients_run capacity calls) hheld hvalue hmore

/-- Bytes that are no ticket are looked at while the cache fails and when it works again, and a text is
looked at through a session store that takes it for one of its tickets, and so becomes the most recently
used. A call that is refused for its key leaves the order of use as it is. -/
theorem SessionStore.failed_leaves_no_trace_reported :
    let limit := some (Span.ofSeconds 1)
    let clients := PayloadCache.clients limit
    let start := PayloadCache.empty true (.ofMillis 5)
    let calls : Calls ClientCall :=
      [(.onSecond 3, .direct (.plant "ST-1" [0x78])), (.onSecond 1, .direct (.fail true)),
        (.onSecond 2, .session .identity .standard (.remove "ST-1")), (.onSecond 0, .direct (.fail false))]
    let more : Calls ClientCall :=
      [(.onSecond 5, .session .scheme .standard (.retrieve "ST-1")),
        (.onSecond 4, .session .identity .standard (.signOut "ST-2"))]
    let c := (clients.run start calls).2
    let e := CodecError.unreadable "no document of the expected form"
    let shared := (SharedCache.clients.run (.empty 2)
      [(.onSecond 3, .other (.raw (.set "cas-st:ST-1" (.text "x") (some (.onSecond 9))))),
        (.onSecond 2, .other (.raw (.set "cas-st:ST-2" (.text "y") none)))]).2
    let look := SharedClientCall.session "cas-st:" .identity .standard (.retrieve "ST-1")
    let looked := (SharedCache.clients (.onSecond 1) look shared).2
    let refused := SharedClientCall.other (.store "cas-st:" (.remove ""))
    ((clients (.onSecond 5) (.session .scheme .standard (.retrieve "ST-1")) c).1.error? =
        some (.ofCodec e) ∧
      (clients (.onSecond 5) (.session .scheme .standard (.retrieve "ST-1")) c).2 = c ∧
      (clients.run start (clients.answered (·.error?.isNone) start calls)).2 = c ∧
      ((remoteStore limit).retrieve "ST-1" (.onSecond 6) (clients.run c more).2).1 = .error (.ofCodec e)) ∧
    (SharedCache.clients (.onSecond 1) look shared).1.error? = some (.corrupt (.notATicket "ST-1")) ∧
      SharedCache.Unharmed look (.corrupt (.notATicket "ST-1")) shared looked ∧
      shared.recent.map (·.1) = ["cas-st:ST-2", "cas-st:ST-1"] ∧
      looked.recent.map (·.1) = ["cas-st:ST-1", "cas-st:ST-2"] ∧
      (SharedCache.clients (.onSecond 1) refused shared).2.recent = shared.recent ∧
      ((localStore "cas-st:").retrieve "ST-1" (.onSecond 8)
        (SharedCache.clients.run shared [(.onSecond 1, look), (.onSecond 7, .other (.raw .sweep))]).2).1 =
          .error (.corrupt (.notATicket "ST-1")) := by
  intro limit clients start calls more c e shared look looked refused
  obtain ⟨hremote, hshared⟩ := failed_leaves_no_trace
  obtain ⟨hsame, hdeleted, hcorrupt⟩ := hremote limit true (.ofMillis 5) calls
  obtain ⟨hunharmed, hforeign⟩ := hshared 2
    [(.onSecond 3, .other (.raw (.set "cas-st:ST-1" (.text "x") (some (.onSecond 9))))),
      (.onSecond 2, .other (.raw (.set "cas-st:ST-2" (.text "y") none)))]
  have herror : (clients (.onSecond 5) (.session .scheme .standard (.retrieve "ST-1")) c).1.error? =
      some (.ofCodec e) := rfl
  have hdecode : Portable.decode (α := ServiceTicket) [0x78] = .error e := rfl
  have hmore : clients.Throughout (fun _ now call c => call.Leaves limit "ST-1" now c) [] c more := by
    refine ⟨?_, ?_, trivial⟩
    · rintro _ ⟨⟩ effect heffect
      cases heffect
    · rintro _ ⟨⟩ effect heffect
      have hne : "ST-2" ≠ "ST-1" := by decide
      exact hne (Prod.mk.inj (Option.some.inj heffect)).1
  obtain ⟨-, hreported⟩ := hcorrupt "ST-1" ⟨[0x78], none⟩ e more rfl hdecode hmore
  have hreaches : RemoteStore.Reaches limit (clients.run c more).2 := ⟨rfl, by decide⟩
  have hlook : (SharedCache.clients (.onSecond 1) look shared).1.error? =
      some (.corrupt (.notATicket "ST-1")) := rfl
  have hkeeps : SharedCache.clients.Throughout (fun _ now call c =>
      Held.isLive now ⟨SharedValue.text "x", .onSecond 3, some (.onSecond 9)⟩ ∧
        call.Leaves "cas-st:ST-1" now c) [] shared
      [(.onSecond 1, look), (.onSecond 7, .other (.raw .sweep))] := by
    refine ⟨⟨rfl, ?_⟩, ⟨rfl, ?_⟩, trivial⟩
    · rintro _ ⟨⟩
      trivial
    · rintro _ ⟨⟩
      trivial
  obtain ⟨-, hfound⟩ := hforeign "cas-st:" "ST-1" _ "x" _ rfl rfl hkeeps
  have hend : (clients.run start (clients.answered (·.error?.isNone) start calls)).2 = c := by
    rw [hdeleted]
  have hlooked := hunharmed _ _ _ hlook
  have horder : shared.recent.map (·.1) = ["cas-st:ST-2", "cas-st:ST-1"] := rfl
  have hmoved : looked.recent.map (·.1) = ["cas-st:ST-1", "cas-st:ST-2"] := by
    obtain ⟨keyPrefix, held, text, hsought, -, -, hrecent⟩ := hlooked.moved "ST-1" rfl
    cases hsought
    rw [hrecent]
    rfl
  have hrefused : (SharedCache.clients (.onSecond 1) refused shared).1.error? = some .emptyKey := rfl
  exact ⟨⟨herror, hsame _ _ _ herror, hend, hreported (by decide) hreaches _⟩, hlook, hlooked, horder, hmoved,
    (hunharmed _ _ _ hrefused).unmoved nofun, hfound (by decide) _ rfl⟩

end SessionTickets
