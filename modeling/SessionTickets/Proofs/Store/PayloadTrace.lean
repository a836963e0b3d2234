import SessionTickets.Proofs.Portable.RoundTrip
import SessionTickets.Proofs.Store.Outcome
import SessionTickets.Session.Store

namespace SessionTickets

open Time

/-- To sign a session out is to remove its ticket. -/
theorem SessionStore.signOut_remote (limit : Option Span) (settings : SessionSettings) (key : String) :
    SessionStore.signOut ⟨remoteStore limit, settings⟩ key = (remoteStore limit).remove key :=
  withKey_withKey key _

/-- A call to a cache of payloads: of a ticket store, of a session store over one, or of someone who
plants bytes or makes calls fail. -/
inductive PayloadCall where
  | store (call : StoreCall)
  | signOut (settings : SessionSettings) (key : String)
  | plant (key : String) (bytes : List UInt8)
  | fail (failing : Bool)

/-- Calls to a cache of payloads, through a store that waits for a limited time. -/
def PayloadCache.machine (limit : Option Span) :
    Machine PayloadCache PayloadCall (Option StoreAnswer) := fun now call c =>
  match call with
  | .store call =>
    (some ((remoteStore limit).machine now call c).1, ((remoteStore limit).machine now call c).2)
  | .signOut settings key =>
    (some (.done (SessionStore.signOut ⟨remoteStore limit, settings⟩ key now c).1),
      (SessionStore.signOut ⟨remoteStore limit, settings⟩ key now c).2)
  | .plant key bytes => (none, c.plant key bytes)
  | .fail failing => (none, { c with failing })

/-- What is written to a cache of payloads: a ticket, or any bytes. -/
inductive PayloadContent where
  | ticket (ticket : ServiceTicket)
  | raw (bytes : List UInt8)

/-- A payload holds what was written. -/
def PayloadContent.IsHeld (content : PayloadContent) (p : Payload) : Prop :=
  match content with
  | .ticket t => p.bytes = Portable.encode t
  | .raw bytes => p.bytes = bytes

/-- The effect of a call of a ticket store over payloads. -/
def PayloadCall.storeEffect? (call : StoreCall) (answer : StoreAnswer) :
    Option (String × Effect PayloadContent) :=
  (call.effect? answer).map fun e => (e.1, e.2.map .ticket)

/-- The key that a call addresses and what the call does to it, if it succeeds. -/
def PayloadCall.effect? : PayloadCall × Option StoreAnswer → Option (String × Effect PayloadContent)
  | (.store call, some answer) => storeEffect? call answer
  | (.signOut _ key, some answer) => storeEffect? (.remove key) answer
  | (.plant key bytes, _) => some (key, .write (.raw bytes))
  | _ => none

/-- What a cache of payloads holds is what was written last. -/
def PayloadCache.Sound (log : List (PayloadCall × Option StoreAnswer)) (c : PayloadCache) : Prop :=
  Traced PayloadCall.effect? PayloadContent.IsHeld log c.entries.find?

namespace PayloadCache.Sound

variable {log : List (PayloadCall × Option StoreAnswer)} {c : PayloadCache}
  {entry : PayloadCall × Option StoreAnswer} {limit : Option Span} {key : String}

/-- A call that does nothing to the keys leaves the trace as it is. -/
private theorem skip (h : Sound log c) (hentry : PayloadCall.effect? entry = none) :
    Sound (log ++ [entry]) c :=
  Traced.skip h hentry fun _ _ hheld => hheld

private theorem insert (h : Sound log c) {content : PayloadContent} {p : Payload}
    (hentry : PayloadCall.effect? entry = some (key, .write content)) (hcontent : content.IsHeld p) :
    Sound (log ++ [entry]) { c with entries := c.entries.insert key p } := by
  apply Traced.write h hentry
  · intro x hx
    rw [SortedMap.find?_insert, if_pos rfl] at hx
    cases hx
    exact hcontent
  · intro k x hk hx
    rw [SortedMap.find?_insert, if_neg hk] at hx
    exact hx

private theorem erase (h : Sound log c) (hentry : PayloadCall.effect? entry = some (key, .removal)) :
    Sound (log ++ [entry]) { c with entries := c.entries.erase key } := by
  apply Traced.removal h hentry
  · rw [SortedMap.find?_erase, if_pos rfl]
  · intro k x hk hx
    rw [SortedMap.find?_erase, if_neg hk] at hx
    exact hx

/-- A payload may be lost without a call that removes it. -/
private theorem drop (h : Sound log c) (key : String) (hentry : PayloadCall.effect? entry = none) :
    Sound (log ++ [entry]) { c with entries := c.entries.erase key } := by
  apply Traced.skip h hentry
  intro k x hx
  rw [SortedMap.find?_erase] at hx
  split at hx
  · cases hx
  · exact hx

/-- A call of a ticket store does to the cache what its effect says. -/
private theorem store (h : Sound log c) (now : Instant) (call : StoreCall)
    (hentry : PayloadCall.effect? entry =
      PayloadCall.storeEffect? call ((remoteStore limit).machine now call c).1) :
    Sound (log ++ [entry]) ((remoteStore limit).machine now call c).2 := by
  have houtcome := RemoteStore.outcome limit now call c
  generalize (remoteStore limit).machine now call c = result at hentry houtcome
  cases houtcome with
  | failed herror =>
    rw [PayloadCall.storeEffect?, StoreCall.effect?_of_error? herror] at hentry
    exact h.skip hentry
  | written hreaches heffect =>
    rw [PayloadCall.storeEffect?, heffect] at hentry
    exact h.insert hentry rfl
  | removed heffect =>
    rw [PayloadCall.storeEffect?, heffect] at hentry
    exact h.erase hentry
  | dropped hfind hexpired => exact h.drop _ hentry
  | looked => exact h.skip hentry

/-- Every call keeps a cache sound. -/
theorem step (h : Sound log c) (limit : Option Span) (now : Instant) (call : PayloadCall) :
    Sound (log ++ [(call, (machine limit now call c).1)]) (machine limit now call c).2 := by
  cases call with
  | store call => exact h.store now call rfl
  | signOut settings key =>
    simp only [machine, SessionStore.signOut_remote]
    exact h.store now (.remove key) rfl
  | plant key bytes =>
    have hwrite : PayloadCall.effect? (.plant key bytes, none) =
        some (key, .write (.raw bytes)) := rfl
    exact h.insert hwrite rfl
  | fail failing => exact h.skip rfl

/-- After every run, whatever a cache of payloads holds was written last. -/
theorem run (limit : Option Span) (honorsDeadlines : Bool) (latency : Span)
    (calls : Calls PayloadCall) :
    Sound ((machine limit).run (.empty honorsDeadlines latency) calls).1
      ((machine limit).run (.empty honorsDeadlines latency) calls).2 := by
  apply Machine.run_invariant
  · intro key p hp
    cases hp
  · exact fun _ _ now call h => h.step limit now call

/-- A ticket that the store serves was written last, or can be read from the bytes that were, and is
still valid. -/
theorem retrieve_eq_some (h : Sound log c) {now : Instant} {ticket : ServiceTicket}
    (hretrieve : ((remoteStore limit).retrieve key now c).1 = .ok (some ticket)) :
    (lastEffect PayloadCall.effect? log key = some (.write (.ticket ticket)) ∨
      ∃ bytes, lastEffect PayloadCall.effect? log key = some (.write (.raw bytes)) ∧
        Portable.decode bytes = .ok ticket) ∧
    ticket.assertion.validUntil.all (now < ·) := by
  obtain ⟨-, -, p, hfind, hticket⟩ := RemoteStore.payload_of_retrieve hretrieve
  obtain ⟨hdecode, hvalid⟩ := RemoteStore.ticketOf_eq_some hticket
  obtain ⟨content, hlast, hcontent⟩ := h key p hfind
  refine ⟨?_, hvalid⟩
  cases content with
  | ticket t =>
    rw [hcontent, ServiceTicket.decode_encode] at hdecode
    cases hdecode
    exact .inl hlast
  | raw bytes =>
    rw [hcontent] at hdecode
    exact .inr ⟨bytes, hlast, hdecode⟩

/-- No ticket is served under a key that was removed last, and where the cache can be reached none is
reported. -/
theorem retrieve_removed (h : Sound log c) (now : Instant)
    (hlast : lastEffect PayloadCall.effect? log key = some .removal) :
    (∀ answer, ((remoteStore limit).retrieve key now c).1 = .ok answer → answer = none) ∧
      (key ≠ "" → RemoteStore.Reaches limit c →
        ((remoteStore limit).retrieve key now c).1 = .ok none) := by
  have hfind : c.entries.find? key = none := Traced.eq_none h hlast
  constructor
  · intro answer hanswer
    cases answer with
    | none => rfl
    | some ticket =>
      obtain ⟨-, -, p, hp, -⟩ := RemoteStore.payload_of_retrieve hanswer
      cases hfind.symm.trans hp
  · intro hkey hreaches
    rw [RemoteStore.retrieve_eq hreaches hkey, hfind]

end PayloadCache.Sound

end SessionTickets
