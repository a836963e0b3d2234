import SessionTickets.Proofs.Store.PayloadTrace
import SessionTickets.Proofs.Store.SharedTrace

namespace SessionTickets

open Time

/-- Whatever the clock does, a ticket that a store serves was written last under its cache key, and
its deadline is still to come: for a ticket that a store wrote the end of its validity, and for one
that was put into a shared cache as it is the deadline that was given with it. Once a key was removed,
and until it is written, a store serves nothing under it; it may still report that it cannot reach its
cache. -/
theorem TicketStore.served_was_written_last :
    (∀ capacity calls keyPrefix key now,
      let run := SharedCache.machine.run (.empty capacity) calls
      (∀ ticket, ((localStore keyPrefix).retrieve key now run.2).1 = .ok (some ticket) →
        (lastEffect SharedCall.effect? run.1 (keyPrefix ++ key) = some (.write (.ticket ticket)) ∧
          ticket.assertion.validUntil.all (now < ·)) ∨
        ∃ deadline, lastEffect SharedCall.effect? run.1 (keyPrefix ++ key) =
          some (.write (.raw (.ticket ticket) deadline)) ∧ deadline.all (now < ·)) ∧
      ∀ before entry later, run.1 = before ++ entry :: later →
        SharedCall.effect? entry = some (keyPrefix ++ key, .removal) →
        (∀ e ∈ later, ∀ content, SharedCall.effect? e ≠ some (keyPrefix ++ key, .write content)) →
        key ≠ "" → ((localStore keyPrefix).retrieve key now run.2).1 = .ok none) ∧
    ∀ limit honorsDeadlines latency calls key now,
      let run := (PayloadCache.machine limit).run (.empty honorsDeadlines latency) calls
      (∀ ticket, ((remoteStore limit).retrieve key now run.2).1 = .ok (some ticket) →
        (lastEffect PayloadCall.effect? run.1 key = some (.write (.ticket ticket)) ∨
          ∃ bytes, lastEffect PayloadCall.effect? run.1 key = some (.write (.raw bytes)) ∧
            Portable.decode bytes = .ok ticket) ∧
        ticket.assertion.validUntil.all (now < ·)) ∧
      ∀ before entry later, run.1 = before ++ entry :: later →
        PayloadCall.effect? entry = some (key, .removal) →
        (∀ e ∈ later, ∀ content, PayloadCall.effect? e ≠ some (key, .write content)) →
        (∀ answer, ((remoteStore limit).retrieve key now run.2).1 = .ok answer → answer = none) ∧
          (key ≠ "" → RemoteStore.Reaches limit run.2 →
            ((remoteStore limit).retrieve key now run.2).1 = .ok none) := by
  constructor
  · intro capacity calls keyPrefix key now run
    have hsound := SharedCache.Sound.run capacity calls
    refine ⟨fun ticket hserved => hsound.retrieve_eq_some hserved, ?_⟩
    intro before entry later hlog hentry hlater hkey
    have hlast := lastEffect_removal before hentry hlater
    rw [← hlog] at hlast
    exact hsound.retrieve_removed now hkey hlast
  · intro limit honorsDeadlines latency calls key now run
    have hsound := PayloadCache.Sound.run limit honorsDeadlines latency calls
    refine ⟨fun ticket hserved => hsound.retrieve_eq_some hserved, ?_⟩
    intro before entry later hlog hentry hlater
    have hlast := lastEffect_removal before hentry hlater
    rw [← hlog] at hlast
    exact hsound.retrieve_removed now hlast

/-- A ticket is served while the clock goes back, and no longer once its session is signed out. -/
theorem TicketStore.served_was_written_last_signed_out :
    let ticket := ServiceTicket.lasting (some (.onSecond 9)) "ST-1"
    let shared := SharedCache.machine.run (.empty 1)
    let sharedCalls : Calls SharedCall :=
      [(.onSecond 5, .store "cas-st:" (.store ticket)), (.onSecond 3, .raw .sweep)]
    let sharedSignOut : Calls SharedCall :=
      [(.onSecond 2, .signOut "cas-st:" .standard "ST-1"), (.onSecond 1, .raw (.get "cas-st:ST-1"))]
    let remote := (PayloadCache.machine none).run (.empty true (.ofSeconds 0))
    let remoteCalls : Calls PayloadCall :=
      [(.onSecond 5, .store (.store ticket)), (.onSecond 3, .fail false)]
    let remoteSignOut : Calls PayloadCall :=
      [(.onSecond 2, .signOut .standard "ST-1"), (.onSecond 1, .store (.retrieve "ST-1"))]
    (((localStore "cas-st:").retrieve "ST-1" (.onSecond 4) (shared sharedCalls).2).1 =
        .ok (some ticket) ∧
      ((lastEffect SharedCall.effect? (shared sharedCalls).1 "cas-st:ST-1" =
          some (.write (.ticket ticket)) ∧ ticket.assertion.validUntil.all (.onSecond 4 < ·)) ∨
        ∃ deadline, lastEffect SharedCall.effect? (shared sharedCalls).1 "cas-st:ST-1" =
          some (.write (.raw (.ticket ticket) deadline)) ∧ deadline.all (.onSecond 4 < ·)) ∧
      ((localStore "cas-st:").retrieve "ST-1" (.onSecond 0)
        (shared (sharedCalls ++ sharedSignOut)).2).1 = .ok none) ∧
    ((remoteStore none).retrieve "ST-1" (.onSecond 4) (remote remoteCalls).2).1 = .ok (some ticket) ∧
      ((lastEffect PayloadCall.effect? (remote remoteCalls).1 "ST-1" =
          some (.write (.ticket ticket)) ∨
        ∃ bytes, lastEffect PayloadCall.effect? (remote remoteCalls).1 "ST-1" =
          some (.write (.raw bytes)) ∧ Portable.decode bytes = .ok ticket) ∧
        ticket.assertion.validUntil.all (.onSecond 4 < ·)) ∧
      ((remoteStore none).retrieve "ST-1" (.onSecond 0)
        (remote (remoteCalls ++ remoteSignOut)).2).1 = .ok none := by
  intro ticket shared sharedCalls sharedSignOut remote remoteCalls remoteSignOut
  obtain ⟨hshared, hremote⟩ := TicketStore.served_was_written_last
  have hsharedServed :
      ((localStore "cas-st:").retrieve "ST-1" (.onSecond 4) (shared sharedCalls).2).1 =
        .ok (some ticket) := rfl
  have hremoteServed :
      ((remoteStore none).retrieve "ST-1" (.onSecond 4) (remote remoteCalls).2).1 =
        .ok (some ticket) := by
    change RemoteStore.ticketOf (.onSecond 4) (Portable.encode ticket) = _
    rw [RemoteStore.ticketOf, ServiceTicket.decode_encode]
    rfl
  have hsharedLater : ∀ e ∈ [((.raw (.get "cas-st:ST-1"), .raw (some (.value none))) :
      SharedCall × SharedAnswer)], ∀ content,
        SharedCall.effect? e ≠ some ("cas-st:" ++ "ST-1", .write content) := by
    intro e he content hwrite
    rw [List.mem_singleton.1 he] at hwrite
    cases hwrite
  have hremoteLater : ∀ e ∈ [((.store (.retrieve "ST-1"), some (.ticket (.ok none))) :
      PayloadCall × Option StoreAnswer)], ∀ content,
        PayloadCall.effect? e ≠ some ("ST-1", .write content) := by
    intro e he content hwrite
    rw [List.mem_singleton.1 he] at hwrite
    cases hwrite
  refine ⟨⟨hsharedServed, ?_, ?_⟩, hremoteServed, ?_, ?_⟩
  · exact (hshared 1 sharedCalls "cas-st:" "ST-1" (.onSecond 4)).1 ticket hsharedServed
  · exact (hshared 1 (sharedCalls ++ sharedSignOut) "cas-st:" "ST-1" (.onSecond 0)).2
      (shared sharedCalls).1 _ _ rfl rfl hsharedLater (by decide)
  · exact (hremote none true (.ofSeconds 0) remoteCalls "ST-1" (.onSecond 4)).1 ticket hremoteServed
  · exact ((hremote none true (.ofSeconds 0) (remoteCalls ++ remoteSignOut) "ST-1" (.onSecond 0)).2
      (remote remoteCalls).1 _ _ rfl rfl hremoteLater).2 (by decide) ⟨rfl, nofun⟩

/-- After a removal a store answers with an error while calls to its cache fail, and a ticket that was
put into a shared cache without a deadline is served after the end of its validity. -/
theorem TicketStore.unreachable_or_invalid :
    let ticket := ServiceTicket.lasting (some (.onSecond 1)) "ST-1"
    let remote := (PayloadCache.machine none).run (.empty true (.ofSeconds 0))
      [(.onSecond 0, .store (.store ticket)), (.onSecond 0, .store (.remove "ST-1")),
        (.onSecond 0, .fail true)]
    let shared := SharedCache.machine.run (.empty 1)
      [(.onSecond 0, .raw (.set "cas-st:ST-1" (.ticket ticket) none))]
    lastEffect PayloadCall.effect? remote.1 "ST-1" = some .removal ∧
      ((remoteStore none).retrieve "ST-1" (.onSecond 0) remote.2).1 =
        .error (.backend "injected cache failure") ∧
      ((localStore "cas-st:").retrieve "ST-1" (.onSecond 2) shared.2).1 = .ok (some ticket) ∧
      ticket.assertion.validUntil.any (· < .onSecond 2) := by
  refine ⟨rfl, rfl, rfl, rfl⟩

end SessionTickets
