import SessionTickets.Proofs.Cache.Eager
import SessionTickets.Proofs.Store.Effects
import SessionTickets.Session.Store
import SessionTickets.Store.Local

namespace SessionTickets

open Time

/-- To sign a session out is to remove its ticket. -/
theorem SessionStore.signOut_local (keyPrefix : String) (settings : SessionSettings) (key : String) :
    SessionStore.signOut ⟨localStore keyPrefix, settings⟩ key = (localStore keyPrefix).remove key :=
  withKey_withKey key _

/-- A call of one of the users of a shared cache: of a ticket store with some prefix, of a session
store over one, or of someone who knows the cache itself. -/
inductive SharedCall where
  | store (keyPrefix : String) (call : StoreCall)
  | signOut (keyPrefix : String) (settings : SessionSettings) (key : String)
  | raw (call : CacheCall SharedValue)

inductive SharedAnswer where
  | store (answer : StoreAnswer)
  | raw (answer : Option (CacheAnswer SharedValue))

/-- Calls to a shared cache. -/
def SharedCache.machine : Machine SharedCache SharedCall SharedAnswer := fun now call c =>
  match call with
  | .store keyPrefix call =>
    (.store ((localStore keyPrefix).machine now call c).1,
      ((localStore keyPrefix).machine now call c).2)
  | .signOut keyPrefix settings key =>
    (.store (.done (SessionStore.signOut ⟨localStore keyPrefix, settings⟩ key now c).1),
      (SessionStore.signOut ⟨localStore keyPrefix, settings⟩ key now c).2)
  | .raw call => (.raw (BoundedCache.machine now call c).1, (BoundedCache.machine now call c).2)

/-- What is written to a shared cache: a ticket by a ticket store, or any value with any deadline. -/
inductive SharedContent where
  | ticket (ticket : ServiceTicket)
  | raw (value : SharedValue) (deadline : Option Instant)

/-- A cache holds what was written. -/
def SharedContent.IsHeld (content : SharedContent) (held : Held SharedValue) : Prop :=
  match content with
  | .ticket t => held.value = .ticket t ∧ held.deadline = t.assertion.validUntil
  | .raw value deadline => held.value = value ∧ held.deadline = deadline

/-- The effect of a call of a ticket store with a prefix. -/
def SharedCall.storeEffect? (keyPrefix : String) (call : StoreCall) (answer : StoreAnswer) :
    Option (String × Effect SharedContent) :=
  (call.effect? answer).map fun e => (keyPrefix ++ e.1, e.2.map .ticket)

/-- The cache key that a call addresses and what the call does to it, if it succeeds. -/
def SharedCall.effect? : SharedCall × SharedAnswer → Option (String × Effect SharedContent)
  | (.store keyPrefix call, .store answer) => storeEffect? keyPrefix call answer
  | (.signOut keyPrefix _ key, .store answer) => storeEffect? keyPrefix (.remove key) answer
  | (.raw (.set key value deadline), _) => some (key, .write (.raw value deadline))
  | (.raw (.remove key), _) => some (key, .removal)
  | _ => none

/-- What a shared cache holds is what was written last. -/
structure SharedCache.Sound (log : List (SharedCall × SharedAnswer)) (c : SharedCache) : Prop where
  consistent : c.Consistent
  traced : Traced SharedCall.effect? SharedContent.IsHeld log c.held?

namespace SharedCache.Sound

variable {log : List (SharedCall × SharedAnswer)} {c : SharedCache} {entry : SharedCall × SharedAnswer}
  {key : String}

private theorem skip (h : Sound log c) (hentry : SharedCall.effect? entry = none) :
    Sound (log ++ [entry]) c :=
  ⟨h.consistent, h.traced.skip hentry fun _ _ hheld => hheld⟩

private theorem get (h : Sound log c) (now : Instant) (key : String)
    (hentry : SharedCall.effect? entry = none) : Sound (log ++ [entry]) (c.get now key).2 := by
  refine ⟨h.consistent.get now key, h.traced.skip hentry ?_⟩
  intro k held hheld
  rw [h.consistent.held?_get] at hheld
  split at hheld
  · exact (Option.filter_eq_some_iff.1 hheld).1
  · exact hheld

/-- An entry that holds what a call wrote is traced to the call. What it pushes out is only lost. -/
private theorem set (h : Sound log c) (now : Instant) {content : SharedContent} {value : SharedValue}
    {deadline : Option Instant} (hentry : SharedCall.effect? entry = some (key, .write content))
    (hcontent : content.IsHeld ⟨value, now, deadline⟩) :
    Sound (log ++ [entry]) (c.set now key value deadline) := by
  refine ⟨h.consistent.set now key value deadline, h.traced.write hentry ?_ ?_⟩
  · intro held hheld
    rw [BoundedCache.held?_set_self] at hheld
    cases hheld
    exact hcontent
  · intro k held hk hheld
    rcases h.consistent.held?_set_of_ne now value deadline hk with hsame | hnone
    · rw [← hsame]
      exact hheld
    · rw [hnone] at hheld
      cases hheld

private theorem remove (h : Sound log c) (hentry : SharedCall.effect? entry = some (key, .removal)) :
    Sound (log ++ [entry]) (c.remove key).2 := by
  refine ⟨h.consistent.remove key, h.traced.removal hentry ?_ ?_⟩
  · rw [BoundedCache.held?_remove, if_pos rfl]
  · intro k held hk hheld
    rw [BoundedCache.held?_remove, if_neg hk] at hheld
    exact hheld

private theorem sweep (h : Sound log c) (now : Instant) (hentry : SharedCall.effect? entry = none) :
    Sound (log ++ [entry]) (c.sweep now).2 := by
  refine ⟨h.consistent.sweep now, h.traced.skip hentry ?_⟩
  intro k held hheld
  rw [h.consistent.held?_sweep] at hheld
  exact (Option.filter_eq_some_iff.1 hheld).1

/-- A call of a ticket store does to the cache what its effect says. -/
private theorem store (h : Sound log c) (now : Instant) (keyPrefix : String) (call : StoreCall)
    (hentry : SharedCall.effect? entry =
      SharedCall.storeEffect? keyPrefix call ((localStore keyPrefix).machine now call c).1) :
    Sound (log ++ [entry]) ((localStore keyPrefix).machine now call c).2 := by
  cases call with
  | store ticket =>
    have hwrite : SharedCall.effect? entry =
        some (keyPrefix ++ ticket.id, .write (.ticket ticket)) := hentry
    exact h.set now hwrite ⟨rfl, rfl⟩
  | retrieve key =>
    have hnone : SharedCall.effect? entry = none := hentry
    by_cases hkey : key = ""
    · simp only [TicketStore.machine, localStore, withKey, if_pos hkey]
      exact h.skip hnone
    · simp only [TicketStore.machine, localStore, withKey, if_neg hkey]
      exact h.get now _ hnone
  | renew key ticket =>
    by_cases hkey : key = ""
    · simp only [TicketStore.machine, localStore, withKey, if_pos hkey] at hentry ⊢
      exact h.skip hentry
    · simp only [TicketStore.machine, localStore, withKey, if_neg hkey] at hentry ⊢
      have hwrite : SharedCall.effect? entry =
          some (keyPrefix ++ key, .write (.ticket ticket)) := hentry
      exact h.set now hwrite ⟨rfl, rfl⟩
  | remove key =>
    by_cases hkey : key = ""
    · simp only [TicketStore.machine, localStore, withKey, if_pos hkey] at hentry ⊢
      exact h.skip hentry
    · simp only [TicketStore.machine, localStore, withKey, if_neg hkey] at hentry ⊢
      exact h.remove hentry

/-- Every call keeps a cache sound. -/
theorem step (h : Sound log c) (now : Instant) (call : SharedCall) :
    Sound (log ++ [(call, (machine now call c).1)]) (machine now call c).2 := by
  cases call with
  | store keyPrefix call => exact h.store now keyPrefix call rfl
  | signOut keyPrefix settings key =>
    simp only [machine, SessionStore.signOut_local]
    exact h.store now keyPrefix (.remove key) rfl
  | raw call =>
    cases call with
    | get key => exact h.get now key rfl
    | set key value deadline =>
      have hwrite : SharedCall.effect? (.raw (.set key value deadline), .raw none) =
          some (key, .write (.raw value deadline)) := rfl
      exact h.set now hwrite ⟨rfl, rfl⟩
    | remove key => exact h.remove rfl
    | contains key => exact h.skip rfl
    | peek key => exact h.skip rfl
    | sweep => exact h.sweep now rfl

/-- After every run, whatever a shared cache holds was written last. -/
theorem run (capacity : Nat) (calls : Calls SharedCall) :
    Sound (machine.run (.empty capacity) calls).1 (machine.run (.empty capacity) calls).2 := by
  apply Machine.run_invariant
  · refine ⟨BoundedCache.consistent_empty capacity, ?_⟩
    intro key held hheld
    cases hheld
  · exact fun _ _ now call h => h.step now call

/-- A ticket that a store serves was written last, and its deadline is still to come. -/
theorem retrieve_eq_some (h : Sound log c) {keyPrefix : String} {now : Instant} {ticket : ServiceTicket}
    (hretrieve : ((localStore keyPrefix).retrieve key now c).1 = .ok (some ticket)) :
    (lastEffect SharedCall.effect? log (keyPrefix ++ key) = some (.write (.ticket ticket)) ∧
      ticket.assertion.validUntil.all (now < ·)) ∨
    ∃ deadline, lastEffect SharedCall.effect? log (keyPrefix ++ key) =
      some (.write (.raw (.ticket ticket) deadline)) ∧ deadline.all (now < ·) := by
  by_cases hkey : key = ""
  · simp only [localStore, withKey, if_pos hkey] at hretrieve
    cases hretrieve
  · simp only [localStore, withKey, if_neg hkey, h.consistent.get_value] at hretrieve
    cases hlive : (c.held? (keyPrefix ++ key)).filter (·.isLive now) with
    | none =>
      rw [hlive] at hretrieve
      cases hretrieve
    | some held =>
      obtain ⟨hheld, hdeadline⟩ := Option.filter_eq_some_iff.1 hlive
      obtain ⟨content, hlast, hcontent⟩ := h.traced _ held hheld
      rw [hlive, Option.map_some] at hretrieve
      have hvalue : held.value = .ticket ticket := by
        cases hvalue : held.value with
        | ticket t =>
          rw [hvalue] at hretrieve
          cases hretrieve
          rfl
        | text text =>
          rw [hvalue] at hretrieve
          cases hretrieve
      cases content with
      | ticket t =>
        obtain ⟨ht, hd⟩ := hcontent
        rw [hvalue] at ht
        cases ht
        rw [Held.isLive, hd] at hdeadline
        exact .inl ⟨hlast, hdeadline⟩
      | raw value deadline =>
        obtain ⟨rfl, rfl⟩ := hcontent
        rw [hvalue] at hlast
        exact .inr ⟨_, hlast, hdeadline⟩

/-- No ticket is served under a key that was removed last. -/
theorem retrieve_removed (h : Sound log c) {keyPrefix : String} (now : Instant) (hkey : key ≠ "")
    (hlast : lastEffect SharedCall.effect? log (keyPrefix ++ key) = some .removal) :
    ((localStore keyPrefix).retrieve key now c).1 = .ok none := by
  simp only [localStore, withKey, if_neg hkey]
  rw [h.consistent.get_value, h.traced.eq_none hlast]
  rfl

end SharedCache.Sound

end SessionTickets
