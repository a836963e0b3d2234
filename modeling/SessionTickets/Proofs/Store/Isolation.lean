import Mathlib.Data.List.Dedup
import SessionTickets.Proofs.Store.Held

namespace SessionTickets

open Time

/-- A text begins with another. -/
def BeginsWith (text start : String) : Prop :=
  start.toList <+: text.toList

instance (text start : String) : Decidable (BeginsWith text start) :=
  inferInstanceAs (Decidable (_ <+: _))

variable {p q : String}

private theorem beginsWith_iff {text start : String} : BeginsWith text start ↔ ∃ rest, start ++ rest = text := by
  constructor
  · rintro ⟨rest, hrest⟩
    refine ⟨String.ofList rest, ?_⟩
    rw [← String.toList_inj, String.toList_append, String.toList_ofList, hrest]
  · rintro ⟨rest, rfl⟩
    exact ⟨rest.toList, String.toList_append.symm⟩

private theorem beginsWith_append (start rest : String) : BeginsWith (start ++ rest) start :=
  beginsWith_iff.2 ⟨rest, rfl⟩

/-- Two prefixes of one text: one of them begins with the other. -/
theorem beginsWith_or_of_append {rest : String} (h : BeginsWith (q ++ rest) p) :
    BeginsWith q p ∨ BeginsWith p q :=
  List.prefix_or_prefix_of_prefix h (beginsWith_append q rest)

/-- Where one of two prefixes begins with the other, two ids that are not empty have one key. -/
theorem exists_append_eq (h : BeginsWith q p ∨ BeginsWith p q) :
    ∃ i j, i ≠ "" ∧ j ≠ "" ∧ p ++ i = q ++ j := by
  have hid : ∀ rest, rest ++ "ST-1" ≠ "" := by
    intro rest hempty
    have hlength := congrArg String.length hempty
    rw [String.length_append] at hlength
    exact absurd hlength (by simp)
  rcases h with h | h
  · obtain ⟨rest, rfl⟩ := beginsWith_iff.1 h
    exact ⟨rest ++ "ST-1", "ST-1", hid rest, by decide, String.append_assoc.symm⟩
  · obtain ⟨rest, rfl⟩ := beginsWith_iff.1 h
    exact ⟨"ST-1", rest ++ "ST-1", by decide, hid rest, String.append_assoc⟩

namespace CacheCall

variable {α : Type}

/-- The key of a call, if it has one. -/
def key? : CacheCall α → Option String
  | .get key | .set key _ _ | .remove key | .contains key | .peek key => some key
  | .sweep => none

/-- The key that a call writes, if it writes one. -/
def written? : CacheCall α → Option String
  | .set key _ _ => some key
  | _ => none

/-- What is at a key after a call, if the call pushes nothing out. -/
def after (now : Instant) (key : String) (held? : Option (Held α)) : CacheCall α → Option (Held α)
  | .get k => if key = k then held?.filter (·.isLive now) else held?
  | .set k value deadline => if key = k then some ⟨value, now, deadline⟩ else held?
  | .remove k => if key = k then none else held?
  | .contains _ | .peek _ => held?
  | .sweep => held?.filter (·.isLive now)

/-- A call leaves all keys but its own. -/
private theorem after_of_ne {now : Instant} {key k : String} {held? : Option (Held α)} {call : CacheCall α}
    (hcall : call.key? = some k) (hne : key ≠ k) : call.after now key held? = held? := by
  cases call with
  | sweep => cases hcall
  | contains k' => rfl
  | peek k' => rfl
  | get k' | set k' value deadline | remove k' =>
    cases hcall
    exact if_neg hne

end CacheCall

namespace BoundedCache

variable {α : Type} {c : BoundedCache α} {written : List String} {now : Instant} {call : CacheCall α}

/-- A cache has room for all keys that are written, and holds no others. So it is no more than a map whose
entries end at their deadlines, and what happens at one key never shows at another. -/
structure Roomy (written : List String) (c : BoundedCache α) : Prop where
  consistent : c.Consistent
  room : written.length ≤ c.capacity
  keys : ∀ key, (c.held? key).isSome → key ∈ written

private theorem roomy_empty {capacity : Nat} (h : written.length ≤ max capacity 1) :
    Roomy written (empty capacity : BoundedCache α) :=
  ⟨consistent_empty capacity, h, nofun⟩

/-- A call to a cache with room for its key works on each key for itself. -/
theorem Roomy.held?_machine (h : Roomy written c) (hcall : ∀ key ∈ call.written?, key ∈ written)
    (key : String) : (machine now call c).2.held? key = call.after now key (c.held? key) := by
  cases call with
  | get k => exact h.consistent.held?_get now k key
  | set k value deadline =>
    have hroom := h.consistent.size_lt_of_held h.keys h.room (hcall k rfl)
    change (c.set now k value deadline).held? key = _
    by_cases hk : key = k
    · rw [hk, held?_set_self, CacheCall.after, if_pos rfl]
    · rw [h.consistent.held?_set_of_room now value deadline hroom hk, CacheCall.after, if_neg hk]
  | remove k => exact held?_remove c k key
  | contains k => rfl
  | peek k => rfl
  | sweep => exact h.consistent.held?_sweep now key

private theorem Roomy.machine (h : Roomy written c) (hcall : ∀ key ∈ call.written?, key ∈ written) :
    Roomy written (machine now call c).2 := by
  refine ⟨h.consistent.step now call, ?_, ?_⟩
  · rw [capacity_machine]
    exact h.room
  · intro key hheld
    obtain ⟨held, hheld⟩ := Option.isSome_iff_exists.1 hheld
    rcases h.consistent.held?_machine_eq_some hheld with hbefore | hset
    · exact h.keys key (Option.isSome_of_eq_some hbefore)
    · rw [hset] at hcall
      exact hcall key rfl

end BoundedCache

namespace SharedCall

/-- A call goes through the store with a prefix. -/
def isOf (keyPrefix : String) : SharedCall → Bool
  | .store k _ | .signOut k _ _ => k = keyPrefix
  | .raw _ => false

/-- A call stays when the calls of all users but one store are deleted: it goes through that store, or
is a sweep. -/
def staysFor (keyPrefix : String) : SharedCall → Bool
  | .store k _ | .signOut k _ _ => k = keyPrefix
  | .raw call => call.isSweep

/-- A call goes through one of two stores, or past both, but then at no key of the first. -/
def Beside (p q : String) : SharedCall → Prop
  | .store k _ | .signOut k _ _ => k = p ∨ k = q
  | .raw call => ∀ key ∈ call.key?, ¬ BeginsWith key p

/-- The key that a call writes in the cache, if it writes one. -/
def written? (call : SharedCall) : Option String :=
  call.cacheCall?.bind CacheCall.written?

end SharedCall

/-- The keys that are written in a cache, each once. -/
def writtenCacheKeys (calls : Calls SharedCall) : List String :=
  (calls.filterMap (·.2.written?)).dedup

/-- A store only comes to keys that begin with its prefix. -/
private theorem StoreCall.key?_cacheCall {keyPrefix : String} {call : StoreCall} {cacheCall : CacheCall SharedValue}
    (h : call.cacheCall? keyPrefix = some cacheCall) : ∃ key, cacheCall.key? = some (keyPrefix ++ key) := by
  cases call with
  | store ticket =>
    cases h
    exact ⟨ticket.id, rfl⟩
  | retrieve key | renew key ticket | remove key =>
    rw [StoreCall.cacheCall?] at h
    split at h
    · cases h
    · cases h
      exact ⟨key, rfl⟩

/-- A call that does not stay for a store is made at no key of it, if the prefix of the other store does
not meet that of the first. -/
theorem SharedCall.Beside.key?_cacheCall {call : SharedCall} (h : call.Beside p q)
    (hpq : ¬ BeginsWith q p) (hqp : ¬ BeginsWith p q) (hstays : call.staysFor p = false)
    {cacheCall : CacheCall SharedValue} (hcall : call.cacheCall? = some cacheCall) :
    ∃ key, cacheCall.key? = some key ∧ ¬ BeginsWith key p := by
  have hother : ∀ {k} {storeCall : StoreCall}, k = p ∨ k = q → decide (k = p) = false →
      storeCall.cacheCall? k = some cacheCall → ∃ key, cacheCall.key? = some key ∧ ¬ BeginsWith key p := by
    intro k storeCall hk hne hcall
    obtain rfl : k = q := hk.resolve_left (of_decide_eq_false hne)
    obtain ⟨key, hkey⟩ := StoreCall.key?_cacheCall hcall
    exact ⟨_, hkey, fun hbegins => (beginsWith_or_of_append hbegins).elim hpq hqp⟩
  cases call with
  | store k storeCall => exact hother h hstays hcall
  | signOut k settings key =>
    have hremove : (StoreCall.remove key).cacheCall? k = some cacheCall := hcall
    exact hother h hstays hremove
  | raw call =>
    obtain rfl : call = cacheCall := Option.some.inj hcall
    cases call with
    | sweep => cases hstays
    | get key | set key value deadline | remove key | contains key | peek key =>
      exact ⟨key, rfl, h key rfl⟩

namespace LocalStore

/-- A store sees no more of a cache than what is held at its keys. -/
theorem machine_answer_eq {c d : SharedCache} (hc : c.Consistent) (hd : d.Consistent)
    (hsame : ∀ key, c.held? (p ++ key) = d.held? (p ++ key)) (now : Instant) (call : StoreCall) :
    ((localStore p).machine now call c).1 = ((localStore p).machine now call d).1 := by
  cases call with
  | store ticket => rfl
  | retrieve key =>
    by_cases hkey : key = ""
    · simp only [TicketStore.machine, localStore, withKey, if_pos hkey]
    · simp only [TicketStore.machine, retrieve_eq hc hkey, retrieve_eq hd hkey, hsame]
  | renew key ticket | remove key =>
    by_cases hkey : key = "" <;> simp only [TicketStore.machine, localStore, withKey, hkey, if_true, if_false]

end LocalStore

namespace SharedCache

variable {written : List String} {c d : SharedCache} {now : Instant} {call : SharedCall}

/-- Two caches have room for all keys that are written, and hold the same for the store with a
prefix. -/
structure AlikeFor (p : String) (written : List String) (c d : SharedCache) : Prop where
  left : BoundedCache.Roomy written c
  right : BoundedCache.Roomy written d
  same : ∀ key, c.held? (p ++ key) = d.held? (p ++ key)

/-- The machine of all users works on a roomy cache key by key. -/
theorem held?_machine (h : BoundedCache.Roomy written c) (hcall : ∀ key ∈ call.written?, key ∈ written)
    (now : Instant) (key : String) :
    (machine now call c).2.held? key = call.cacheCall?.elim (c.held? key) (·.after now key (c.held? key)) ∧
      BoundedCache.Roomy written (machine now call c).2 := by
  rw [machine_eq_cacheCall]
  cases hcacheCall : call.cacheCall? with
  | none => exact ⟨rfl, h⟩
  | some cacheCall =>
    have hwritten : ∀ k ∈ cacheCall.written?, k ∈ written := by
      intro k hk
      apply hcall
      rw [SharedCall.written?, hcacheCall, Option.bind_some]
      exact hk
    exact ⟨h.held?_machine hwritten key, h.machine hwritten⟩

/-- A call that stays does the same on both sides, and the store of the prefix cannot tell them apart. -/
theorem AlikeFor.both (h : AlikeFor p written c d) (hcall : ∀ key ∈ call.written?, key ∈ written) :
    (call.isOf p → (machine now call c).1 = (machine now call d).1) ∧
      AlikeFor p written (machine now call c).2 (machine now call d).2 := by
  constructor
  · intro hof
    have hanswer := LocalStore.machine_answer_eq h.left.consistent h.right.consistent h.same now
    cases call with
    | store k storeCall =>
      obtain rfl : k = p := of_decide_eq_true hof
      exact congrArg SharedAnswer.store (hanswer storeCall)
    | signOut k settings key =>
      obtain rfl : k = p := of_decide_eq_true hof
      simp only [machine, SessionStore.signOut_local]
      exact congrArg SharedAnswer.store (hanswer (.remove key))
    | raw call => cases hof
  · have hleft := held?_machine h.left hcall now
    have hright := held?_machine h.right hcall now
    refine ⟨(hleft p).2, (hright p).2, ?_⟩
    intro key
    rw [(hleft _).1, (hright _).1, h.same]

/-- A call at no key of the store leaves what it sees. -/
theorem AlikeFor.left_only (h : AlikeFor p written c d) (hcall : ∀ key ∈ call.written?, key ∈ written)
    (hkey : ∀ cacheCall, call.cacheCall? = some cacheCall →
      ∃ key, cacheCall.key? = some key ∧ ¬ BeginsWith key p) :
    AlikeFor p written (machine now call c).2 d := by
  refine ⟨(held?_machine h.left hcall now p).2, h.right, ?_⟩
  intro key
  rw [(held?_machine h.left hcall now _).1, ← h.same]
  cases hcacheCall : call.cacheCall? with
  | none => rfl
  | some cacheCall =>
    obtain ⟨k, hk, hbegins⟩ := hkey cacheCall hcacheCall
    refine CacheCall.after_of_ne hk ?_
    rintro rfl
    exact hbegins (beginsWith_append p key)

end SharedCache

/-- At any time a ticket can be stored through one store and is served by another under some id. -/
def TicketStore.Leaks (capacity : Nat) (writer reader : String) : Prop :=
  ∃ ticket key, key ≠ "" ∧ ∀ now,
    (SharedCache.machine.run (.empty capacity)
      [(now, .store writer (.store ticket)), (now, .store reader (.retrieve key))]).1.map (·.2) =
      [.store (.key (.ok ticket.id)), .store (.ticket (.ok (some ticket)))]

/-- Stores whose prefixes meet in one key of the cache serve each other's tickets under it. -/
private theorem TicketStore.leaks_of_append_eq (capacity : Nat) {i j : String} (hi : i ≠ "") (hj : j ≠ "")
    (h : p ++ i = q ++ j) : Leaks capacity p q := by
  refine ⟨.lasting none i hi, j, hj, ?_⟩
  intro now
  let ticket := ServiceTicket.lasting none i hi
  let stored := LocalStore.put p i ticket now (.empty capacity)
  have hheld : LocalStore.Holds q stored j ticket := by
    rw [LocalStore.Holds, ← h]
    exact LocalStore.holds_put p i ticket now (.empty capacity)
  have hconsistent : stored.Consistent :=
    (BoundedCache.consistent_empty capacity).set now _ _ _
  have hserved : ((localStore q).retrieve j now stored).1 = .ok (some ticket) :=
    hheld.retrieve hconsistent hj now
  change [SharedAnswer.store (.key (.ok i)), .store (.ticket ((localStore q).retrieve j now stored).1)] = _
  rw [hserved]
  rfl

/-- Stores in one cache are kept apart exactly by their prefixes. While neither of two prefixes begins
with the other, and there is room for all keys that are written, no answer of the one store tells what
is done through the other, or past both at no key of the first, whatever the clock does. As soon as one
prefix begins with the other, each store can be made to serve a ticket of the other. -/
theorem TicketStore.isolated_by_prefixes (p q : String) (capacity : Nat) :
    (¬ BeginsWith q p → ¬ BeginsWith p q → ∀ calls : Calls SharedCall, (∀ c ∈ calls, c.2.Beside p q) →
      (writtenCacheKeys calls).length ≤ max capacity 1 →
      (SharedCache.machine.run (.empty capacity) calls).1.filter (fun e => e.1.isOf p) =
        (SharedCache.machine.run (.empty capacity) (calls.filter fun c => c.2.staysFor p)).1.filter
          (fun e => e.1.isOf p)) ∧
    (BeginsWith q p ∨ BeginsWith p q → Leaks capacity p q ∧ Leaks capacity q p) := by
  constructor
  · intro hpq hqp calls hcalls hroom
    apply Machine.run_filter (SharedCache.AlikeFor p (writtenCacheKeys calls))
      (fun call => call.Beside p q ∧ ∀ key ∈ call.written?, key ∈ writtenCacheKeys calls)
    · intro call hof
      cases call with
      | store k storeCall => exact hof
      | signOut k settings key => exact hof
      | raw call => cases hof
    · exact fun _ _ _ _ hcall _ h => h.both hcall.2
    · exact fun _ _ _ _ hcall hstays h =>
        h.left_only hcall.2 fun _ => hcall.1.key?_cacheCall hpq hqp hstays
    · intro call hcall
      refine ⟨hcalls call hcall, ?_⟩
      intro key hkey
      exact List.mem_dedup.2 (List.mem_filterMap.2 ⟨call, hcall, hkey⟩)
    · have hstart : BoundedCache.Roomy (writtenCacheKeys calls) (.empty capacity : SharedCache) :=
        BoundedCache.roomy_empty hroom
      exact ⟨hstart, hstart, fun _ => rfl⟩
  · intro h
    obtain ⟨i, j, hi, hj, hsame⟩ := exists_append_eq h
    exact ⟨leaks_of_append_eq capacity hi hj hsame, leaks_of_append_eq capacity hj hi hsame.symm⟩

/-- A store serves its ticket while the clock goes back, whatever another one does with a ticket of the
same id, and another user with a key of its own. A store whose prefix goes on where that of another ends
serves the tickets of that one, and the other way round. -/
theorem TicketStore.isolated_by_prefixes_same_id :
    let ticket := ServiceTicket.lasting (some (.onSecond 9)) "ST-1"
    let other := ServiceTicket.lasting (some (.onSecond 4)) "ST-1"
    let calls : Calls SharedCall :=
      [(.onSecond 5, .store "app-a:" (.store ticket)), (.onSecond 5, .store "app-b:" (.store other)),
        (.onSecond 6, .raw (.set "app" (.text "y") none)), (.onSecond 8, .raw .sweep),
        (.onSecond 7, .signOut "app-b:" .standard "ST-1"), (.onSecond 3, .store "app-a:" (.retrieve "ST-1"))]
    let seen := fun (calls : Calls SharedCall) =>
      (SharedCache.machine.run (.empty 3) calls).1.filter fun e => e.1.isOf "app-a:"
    ¬ BeginsWith "app-b:" "app-a:" ∧ ¬ BeginsWith "app-a:" "app-b:" ∧
      (∀ c ∈ calls, c.2.Beside "app-a:" "app-b:") ∧ (writtenCacheKeys calls).length ≤ max 3 1 ∧
      seen calls = seen (calls.filter fun c => c.2.staysFor "app-a:") ∧
      (seen calls).map (·.2) =
        [.store (.key (.ok "ST-1")), .store (.ticket (.ok (some ticket)))] ∧
      BeginsWith "app-a:b:" "app-a:" ∧ Leaks 1 "app-a:" "app-a:b:" ∧ Leaks 1 "app-a:b:" "app-a:" := by
  intro ticket other calls seen
  have hpq : ¬ BeginsWith "app-b:" "app-a:" := by decide
  have hqp : ¬ BeginsWith "app-a:" "app-b:" := by decide
  have hcalls : ∀ c ∈ calls, c.2.Beside "app-a:" "app-b:" := by
    simp [calls, SharedCall.Beside, CacheCall.key?]
    decide
  have hroom : (writtenCacheKeys calls).length ≤ max 3 1 := by decide
  have hbegins : BeginsWith "app-a:b:" "app-a:" := by decide
  have hapart := (TicketStore.isolated_by_prefixes "app-a:" "app-b:" 3).1 hpq hqp calls hcalls hroom
  obtain ⟨hleaks, hleaksBack⟩ := (TicketStore.isolated_by_prefixes "app-a:" "app-a:b:" 1).2 (.inl hbegins)
  have hserved : (seen calls).map (·.2) =
      [.store (.key (.ok "ST-1")), .store (.ticket (.ok (some ticket)))] := by
    simp only [seen, calls, ticket, other]
    rfl
  exact ⟨hpq, hqp, hcalls, hroom, hapart, hserved, hbegins, hleaks, hleaksBack⟩

end SessionTickets
