import SessionTickets.Proofs.Store.PayloadTrace
import SessionTickets.Proofs.Store.SharedCache

namespace SessionTickets

open Time

namespace BoundedCache

variable {α : Type} {c : BoundedCache α}

/-- To put a value at a key would push out another entry, although expired ones have made room. -/
def PushesOut (now : Instant) (key : String) (c : BoundedCache α) : Prop :=
  c.capacity ≤ ((c.makeRoom now key).others [key]).length

/-- Putting a value where it pushes nothing out drops expired entries at most. -/
theorem Consistent.held?_set_of_not_pushesOut (h : c.Consistent) {now : Instant} {key k : String}
    (value : α) (deadline : Option Instant) (hne : k ≠ key) (hfits : ¬ c.PushesOut now key) :
    (c.set now key value deadline).held? k = c.held? k ∨
      (c.set now key value deadline).held? k = (c.held? k).filter (·.isLive now) := by
  rw [PushesOut, Nat.not_le, ← c.capacity_makeRoom now key] at hfits
  rw [BoundedCache.set, held?_push_of_fits _ hne hfits, BoundedCache.makeRoom]
  split
  · exact .inr (h.held?_sweep now k)
  · exact .inl rfl

end BoundedCache

/-- A call to a cache leaves a key alone and pushes nothing out. An entry may still disappear once its
deadline has come, but no answer shows that. -/
def CacheCall.Spares {α : Type} (key : String) (now : Instant) (c : BoundedCache α) :
    CacheCall α → Prop
  | .set k _ _ => k ≠ key ∧ ¬ c.PushesOut now k
  | .remove k => k ≠ key
  | .get _ | .contains _ | .peek _ | .sweep => True

namespace BoundedCache

variable {α : Type} {c : BoundedCache α} {now : Instant} {key : String} {call : CacheCall α}

/-- What is held at a key stays over a call that spares it, unless it has expired. -/
private theorem Consistent.held?_machine_of_spares (h : c.Consistent) (hspares : call.Spares key now c) :
    (machine now call c).2.held? key = c.held? key ∨
      (machine now call c).2.held? key = (c.held? key).filter (·.isLive now) := by
  cases call with
  | get k =>
    have hget := h.held?_get now k key
    by_cases hk : key = k
    · rw [if_pos hk] at hget
      exact .inr hget
    · rw [if_neg hk] at hget
      exact .inl hget
  | set k value deadline =>
    obtain ⟨hne, hfits⟩ := hspares
    exact h.held?_set_of_not_pushesOut value deadline hne.symm hfits
  | remove k =>
    have hremove := c.held?_remove k key
    rw [if_neg (Ne.symm hspares)] at hremove
    exact .inl hremove
  | contains k => exact .inl rfl
  | peek k => exact .inl rfl
  | sweep => exact .inr (h.held?_sweep now key)

/-- Whatever a call leaves at a key was there before or was put there by the call. -/
theorem Consistent.held?_machine_eq_some (h : c.Consistent) {held : Held α}
    (hheld : (machine now call c).2.held? key = some held) :
    c.held? key = some held ∨ call = .set key held.value held.deadline := by
  cases call with
  | get k =>
    change (c.get now k).2.held? key = _ at hheld
    rw [h.held?_get] at hheld
    split at hheld
    · exact .inl (Option.filter_eq_some_iff.1 hheld).1
    · exact .inl hheld
  | set k value deadline =>
    change (c.set now k value deadline).held? key = _ at hheld
    by_cases hk : key = k
    · rw [hk, held?_set_self, Option.some.injEq] at hheld
      subst hk hheld
      exact .inr rfl
    · rcases h.held?_set_of_ne now value deadline hk with hsame | hnone
      · exact .inl (hsame ▸ hheld)
      · rw [hnone] at hheld
        cases hheld
  | remove k =>
    change (c.remove k).2.held? key = _ at hheld
    rw [held?_remove] at hheld
    split at hheld
    · cases hheld
    · exact .inl hheld
  | contains k => exact .inl hheld
  | peek k => exact .inl hheld
  | sweep =>
    change (c.sweep now).2.held? key = _ at hheld
    rw [h.held?_sweep] at hheld
    exact .inl (Option.filter_eq_some_iff.1 hheld).1

end BoundedCache

namespace LocalStore

variable {keyPrefix key : String} {now later : Instant} {c c' : SharedCache}

/-- A store answers with the ticket that is held and has not expired. -/
theorem retrieve_eq (h : c.Consistent) (hkey : key ≠ "") (now : Instant) :
    ((localStore keyPrefix).retrieve key now c).1 =
      ticketOf key (((c.held? (keyPrefix ++ key)).filter (·.isLive now)).map (·.value)) := by
  simp only [localStore, withKey, if_neg hkey, h.get_value]

/-- The loss of an expired entry does not show later. -/
theorem retrieve_eq_of_held? (h : c.Consistent) (h' : c'.Consistent) (hle : now ≤ later)
    (hheld : c'.held? (keyPrefix ++ key) = c.held? (keyPrefix ++ key) ∨
      c'.held? (keyPrefix ++ key) = (c.held? (keyPrefix ++ key)).filter (·.isLive now)) :
    ((localStore keyPrefix).retrieve key later c').1 =
      ((localStore keyPrefix).retrieve key later c).1 := by
  by_cases hkey : key = ""
  · simp only [localStore, withKey, if_pos hkey]
  · rw [retrieve_eq h hkey, retrieve_eq h' hkey]
    rcases hheld with hsame | hlive
    · rw [hsame]
    · rw [hlive, Option.filter_filter]
      congr 3
      funext held
      cases hlater : held.isLive later with
      | false => exact Bool.and_false _
      | true => simp [Held.isLive_of_le hle hlater]

/-- What a store answers for a key stays over every call of a user that spares it. -/
theorem retrieve_sharedMachine (h : c.Consistent) {call : SharedCall}
    (hspares : ∀ cacheCall ∈ call.cacheCall?, cacheCall.Spares (keyPrefix ++ key) now c)
    (hle : now ≤ later) :
    ((localStore keyPrefix).retrieve key later (SharedCache.machine now call c).2).1 =
      ((localStore keyPrefix).retrieve key later c).1 := by
  apply retrieve_eq_of_held? h (h.sharedStep now call) hle
  rw [SharedCache.machine_eq_cacheCall]
  cases hcall : call.cacheCall? with
  | none => exact .inl rfl
  | some cacheCall => exact h.held?_machine_of_spares (hspares cacheCall hcall)

/-- A ticket that is served now is served later, or nothing is. -/
theorem retrieve_later (h : c.Consistent) (hle : now ≤ later) {ticket : ServiceTicket}
    (hserved : ((localStore keyPrefix).retrieve key now c).1 = .ok (some ticket)) :
    ((localStore keyPrefix).retrieve key later c).1 = .ok (some ticket) ∨
      ((localStore keyPrefix).retrieve key later c).1 = .ok none := by
  by_cases hkey : key = ""
  · simp only [localStore, withKey, if_pos hkey] at hserved
    cases hserved
  · rw [retrieve_eq h hkey] at hserved ⊢
    cases hheld : c.held? (keyPrefix ++ key) with
    | none => exact .inr rfl
    | some held =>
      rw [hheld, Option.filter_some] at hserved
      rw [Option.filter_some]
      cases hlater : held.isLive later with
      | false => exact .inr rfl
      | true =>
        rw [if_pos (Held.isLive_of_le hle hlater)] at hserved
        exact .inl hserved

end LocalStore

namespace PayloadCache

variable {c c' c'' : PayloadCache} {now later : Instant} {key k : String}

private theorem isExpired_of_le (hle : now ≤ later) {p : Payload} (h : c.isExpired now p) :
    c.isExpired later p := by
  rw [isExpired, Bool.and_eq_true] at h ⊢
  refine ⟨h.1, ?_⟩
  obtain ⟨deadline, hdeadline, hpast⟩ := (Option.any_eq_true _ _).1 h.2
  exact (Option.any_eq_true _ _).2
    ⟨deadline, hdeadline, decide_eq_true (Instant.le_trans (of_decide_eq_true hpast) hle)⟩

/-- A cache is left as it was at a key, but for a payload that has expired. -/
structure SameAt (key : String) (now : Instant) (c c' : PayloadCache) : Prop where
  honorsDeadlines : c'.honorsDeadlines = c.honorsDeadlines
  failing : c'.failing = c.failing
  latency : c'.latency = c.latency
  entry : c'.entries.find? key = c.entries.find? key ∨
    c'.entries.find? key = none ∧ (c.entries.find? key).any (c.isExpired now)

private theorem SameAt.refl (c : PayloadCache) : SameAt key now c c :=
  ⟨rfl, rfl, rfl, .inl rfl⟩

private theorem sameAt_insert (hne : k ≠ key) (p : Payload) :
    SameAt key now c { c with entries := c.entries.insert k p } := by
  refine ⟨rfl, rfl, rfl, .inl ?_⟩
  rw [SortedMap.find?_insert, if_neg hne.symm]

private theorem sameAt_erase (hne : k ≠ key) : SameAt key now c { c with entries := c.entries.erase k } := by
  refine ⟨rfl, rfl, rfl, .inl ?_⟩
  rw [SortedMap.find?_erase, if_neg hne.symm]

/-- To drop a payload that has expired leaves every key as it was. -/
private theorem sameAt_drop (k : String) {p : Payload} (hfind : c.entries.find? k = some p)
    (hexpired : c.isExpired now p) :
    SameAt key now c { c with entries := c.entries.erase k } := by
  by_cases hk : key = k
  · refine ⟨rfl, rfl, rfl, .inr ⟨?_, ?_⟩⟩
    · rw [SortedMap.find?_erase, if_pos hk]
    · rw [hk, hfind, Option.any_some, hexpired]
  · exact sameAt_erase (Ne.symm hk)

end PayloadCache

/-- A call to a ticket store leaves a key alone. -/
def StoreCall.Spares (key : String) : StoreCall → Prop
  | .store ticket => ticket.id ≠ key
  | .retrieve _ => True
  | .renew k _ | .remove k => k ≠ key

private theorem StoreCall.Spares.ne {key k : String} {call : StoreCall} (h : call.Spares key) {answer : StoreAnswer}
    {effect : Effect ServiceTicket} (heffect : call.effect? answer = some (k, effect)) : k ≠ key := by
  unfold effect? at heffect
  split at heffect
  · cases heffect
    exact h
  · cases heffect
    exact h
  · cases heffect
    exact h
  · cases heffect

/-- A call to a cache of payloads leaves a key alone, and calls fail after it if they did before. -/
def PayloadCall.Spares (key : String) (c : PayloadCache) : PayloadCall → Prop
  | .store call => call.Spares key
  | .signOut _ k | .plant k _ => k ≠ key
  | .fail failing => failing = c.failing

namespace RemoteStore

variable {limit : Option Span} {c c' : PayloadCache} {now later : Instant} {key : String}

/-- A ticket is kept as it is written. -/
theorem state_store (limit : Option Span) (ticket : ServiceTicket) (now : Instant) (c : PayloadCache) :
    ((remoteStore limit).store ticket now c).2 = (write limit ticket.id ticket c).2 := by
  simp only [remoteStore]
  split <;> simp [*]

/-- To look for a ticket does to the cache what it does to look for its payload. -/
theorem state_retrieve (limit : Option Span) (hkey : key ≠ "") (now : Instant) (c : PayloadCache) :
    ((remoteStore limit).retrieve key now c).2 = (bounded limit (PayloadCache.get now key) c).2 := by
  simp only [remoteStore, withKey, if_neg hkey]
  split <;> simp [*]

/-- A call to a store that spares a key leaves the key as it was. -/
private theorem sameAt_machine {call : StoreCall} (h : call.Spares key) :
    c.SameAt key now ((remoteStore limit).machine now call c).2 := by
  have houtcome := outcome limit now call c
  generalize (remoteStore limit).machine now call c = result at houtcome
  cases houtcome with
  | failed => exact .refl c
  | written hreaches heffect => exact PayloadCache.sameAt_insert (h.ne heffect) _
  | removed heffect => exact PayloadCache.sameAt_erase (h.ne heffect)
  | dropped hfind hexpired => exact PayloadCache.sameAt_drop _ hfind hexpired
  | looked => exact .refl c

end RemoteStore

/-- A call to a cache of payloads that spares a key leaves the key as it was. -/
theorem PayloadCache.sameAt_machine {limit : Option Span} {c : PayloadCache} {now : Instant}
    {key : String} {call : PayloadCall} (h : call.Spares key c) :
    c.SameAt key now (machine limit now call c).2 := by
  cases call with
  | store call => exact RemoteStore.sameAt_machine h
  | signOut settings k =>
    simp only [machine, SessionStore.signOut_remote]
    have hremove : (StoreCall.remove k).Spares key := h
    exact RemoteStore.sameAt_machine hremove
  | plant k bytes => exact sameAt_insert h _
  | fail failing => exact ⟨rfl, h, rfl, .inl rfl⟩

namespace RemoteStore

variable {limit : Option Span} {c c' : PayloadCache} {now later : Instant} {key : String}

/-- A cache that is left as it was can still be reached. -/
theorem reaches_of_sameAt (h : Reaches limit c) (hsame : c.SameAt key now c') : Reaches limit c' := by
  refine ⟨hsame.failing.trans h.working, ?_⟩
  rw [hsame.latency]
  exact h.patient

/-- The loss of an expired payload does not show later. -/
theorem retrieve_eq_of_sameAt (h : Reaches limit c) (hle : now ≤ later)
    (hsame : c.SameAt key now c') :
    ((remoteStore limit).retrieve key later c').1 = ((remoteStore limit).retrieve key later c).1 := by
  by_cases hkey : key = ""
  · simp only [remoteStore, withKey, if_pos hkey]
  · rw [retrieve_eq h hkey, retrieve_eq (reaches_of_sameAt h hsame) hkey]
    rcases hsame.entry with hentry | ⟨hnone, hexpired⟩
    · have hexpired : ∀ p, c'.isExpired later p = c.isExpired later p := by
        intro p
        rw [PayloadCache.isExpired, hsame.honorsDeadlines, PayloadCache.isExpired]
      simp only [hentry, hexpired]
    · obtain ⟨p, hfind, hp⟩ := (Option.any_eq_true _ _).1 hexpired
      rw [hnone, hfind]
      simp only [PayloadCache.isExpired_of_le hle hp, if_true]

/-- A ticket that is served at one time is served at another, or nothing is. -/
theorem retrieve_later (later : Instant) {ticket : ServiceTicket}
    (hserved : ((remoteStore limit).retrieve key now c).1 = .ok (some ticket)) :
    ((remoteStore limit).retrieve key later c).1 = .ok (some ticket) ∨
      ((remoteStore limit).retrieve key later c).1 = .ok none := by
  obtain ⟨hreaches, hkey, p, hfind, hticket⟩ := payload_of_retrieve hserved
  have hdecode := (ticketOf_eq_some hticket).1
  simp only [retrieve_eq hreaches hkey, hfind, ticketOf, hdecode]
  split
  · exact .inr rfl
  · split
    · exact .inr rfl
    · exact .inl rfl

/-- A ticket is taken from its own bytes until its deadline. -/
theorem ticketOf_encode_eq (ticket : ServiceTicket) (now : Instant) :
    ticketOf now (Portable.encode ticket) = .ok (if ticket.isExpiredAt now then none else some ticket) := by
  rw [ticketOf, ServiceTicket.decode_encode]

end RemoteStore

end SessionTickets
