import SessionTickets.Proofs.Session.Lawful
import SessionTickets.Proofs.Session.Own

namespace SessionTickets

open Time

section Answers

variable {b : Storage} {η : Type} [HostSession η]

/-- A log has a session among the answers for a key. -/
def Found (key : String) (s : η) (log : List (UserCall b η × UserAnswer b η)) : Prop :=
  ∃ settings, (.session settings (.retrieve key), .session (.session (.ok (some s)))) ∈ log

/-- All that a log has among the answers for a key is one session or none. -/
def OnlyFinds (key : String) (s : η) (log : List (UserCall b η × UserAnswer b η)) : Prop :=
  ∀ settings answer, (.session settings (.retrieve key), .session (.session answer)) ∈ log →
    answer = .ok none ∨ answer = .ok (some s)

/-- A call puts a session back under the key at which it was found, which was at first or since. -/
def UserCall.PutsBack (key : String) (s : η) (log : List (UserCall b η × UserAnswer b η)) :
    UserCall b η → Prop
  | .session _ (.store _ s') => s' = s ∨ Found key s' log
  | .session _ (.renew k s') => k = key ∧ (s' = s ∨ Found key s' log)
  | _ => False

/-- A call leaves a key alone, or puts a session back that was found there. -/
def UserCall.Recirculates (key : String) (s : η) (log : List (UserCall b η × UserAnswer b η))
    (now : Instant) (call : UserCall b η) (c : b.State) : Prop :=
  call.Spares key now c ∨ call.PutsBack key s log

namespace Storage

/-- From a time on, the session store answers for a key with a session until an end. -/
def ServesUntil (b : Storage) (key : String) (s : η) (stop : Option Instant) (now : Instant)
    (c : b.State) : Prop :=
  ∀ settings later, now ≤ later → ((b.sessions settings).retrieve key later c).1 =
    .ok (if stop.any (· ≤ later) then none else some s)

/-- From a time on, calls for a key get through, and the answers are as told. -/
structure Answers (b : Storage) (P : Instant → Option η → Prop) (key : String) (now : Instant)
    (c : b.State) : Prop where
  sound : b.Sound c
  reached : b.Reached c
  answers : ∀ later, now ≤ later → ∃ found : Option ServiceTicket,
    (b.tickets.retrieve key later c).1 = .ok found ∧
      P later (found.map (HostSession.ofTicket key))

variable {c : b.State} {now time : Instant} {key : String} {P : Instant → Option η → Prop}

private theorem Answers.later (h : b.Answers P key now c) (hle : now ≤ time) : b.Answers P key time c :=
  ⟨h.sound, h.reached, fun later hlater => h.answers later (Instant.le_trans hle hlater)⟩

/-- A look for the session gets through, and finds what is told. -/
private theorem Answers.retrieve (h : b.Answers P key now c) (settings : SessionSettings) (hle : now ≤ time) :
    ∃ found : Option η, ((b.sessions settings).retrieve key time c).1 = .ok found ∧ P time found := by
  obtain ⟨found, hfound, hP⟩ := h.answers time hle
  exact ⟨_, SessionStore.retrieve_eq_ok.2 ⟨found, hfound, rfl⟩, hP⟩

/-- What is told of the answers holds on over every call that spares the key. -/
private theorem Answers.spares (h : b.Answers P key now c) {call : UserCall b η}
    (hcall : call.Spares key now c) : b.Answers P key now (b.machine now call c).2 := by
  have hle := Instant.le_refl now
  refine ⟨sound_machine h.sound call, (retrieve_machine h.sound h.reached hcall hle).1, ?_⟩
  intro later hlater
  rw [(retrieve_machine h.sound h.reached hcall hlater).2]
  exact h.answers later hlater

/-- What is told of the answers allows no session but that of a ticket, and allows it until the ticket
ends. -/
structure Allows (P : Instant → Option η → Prop) (key : String) (t : ServiceTicket) : Prop where
  only : ∀ {later s}, P later (some s) → s = HostSession.ofTicket key t
  until_end : ∀ later,
    P later (if t.assertion.validUntil.any (· ≤ later) then none else some (HostSession.ofTicket key t))

/-- While the session of a ticket is back under its key, the answers are as the ticket allows. -/
private theorem Keeps.answers [LawfulSession η] {t : ServiceTicket} {hkey : key ≠ ""}
    (h : b.Keeps key (t.putBack key hkey) c) (hP : Allows P key t) (now : Instant) :
    b.Answers P key now c := by
  refine ⟨h.sound, h.reached, fun later _ => ⟨_, h.served later, ?_⟩⟩
  have hallowed := hP.until_end later
  rw [ServiceTicket.assertion_putBack]
  split
  · next hend =>
    rw [if_pos hend] at hallowed
    exact hallowed
  · next hend =>
    rw [if_neg hend] at hallowed
    rw [Option.map_some, LawfulSession.ofTicket_putBack]
    exact hallowed

/-- A session that is put back is answered with as before. -/
theorem Answers.putsBack [LawfulSession η] {t : ServiceTicket} (h : b.Answers P key now c)
    (hP : Allows P key t) (hkey : key ≠ "") {log : List (UserCall b η × UserAnswer b η)}
    (hlog : OnlyFinds key (HostSession.ofTicket key t) log) {call : UserCall b η}
    (hcall : call.PutsBack key (HostSession.ofTicket key t) log) :
    b.Answers P key now (b.machine now call c).2 := by
  -- Whatever was found since is the session that was found at first.
  have hsame : ∀ {s : η}, s = HostSession.ofTicket key t ∨ Found key s log →
      s = HostSession.ofTicket key t := by
    rintro s (hfirst | ⟨settings, hfound⟩)
    · exact hfirst
    · rcases hlog settings _ hfound with hnone | hsome
      · cases hnone
      · cases hsome
        rfl
  cases call with
  | other use => exact hcall.elim
  | session settings call =>
    cases call with
    | store fresh s =>
      obtain rfl := hsame hcall
      exact (store_ofTicket h.sound h.reached settings fresh hkey t now).2.answers hP now
    | renew k s =>
      obtain ⟨rfl, hfound⟩ := hcall
      obtain rfl := hsame hfound
      exact (renew_ofTicket h.sound h.reached settings hkey t now).2.answers hP now
    | retrieve k => exact hcall.elim
    | remove k => exact hcall.elim
    | signOut k => exact hcall.elim

/-- A call finds no other session at the key than the one that is allowed. -/
private theorem Answers.onlyFinds {t : ServiceTicket} (h : b.Answers P key now c) (hP : Allows P key t)
    {log : List (UserCall b η × UserAnswer b η)}
    (hlog : OnlyFinds key (HostSession.ofTicket key t) log) (call : UserCall b η) :
    OnlyFinds key (HostSession.ofTicket key t) (log ++ [(call, (b.machine now call c).1)]) := by
  intro settings answer hmem
  rcases List.mem_append.1 hmem with hbefore | hlast
  · exact hlog settings answer hbefore
  · obtain ⟨hcall, hanswer⟩ := Prod.mk.inj (List.mem_singleton.1 hlast)
    subst hcall
    cases hanswer
    obtain ⟨found, hfound, hfits⟩ := h.retrieve settings (Instant.le_refl now)
    cases found with
    | none => exact .inl hfound
    | some s =>
      rw [hP.only hfits] at hfound
      exact .inr hfound

/-- However often a session is put back, the answers stay as told. -/
theorem Answers.run [LawfulSession η] {t : ServiceTicket} (h : b.Answers P key now c)
    (hP : Allows P key t) (hkey : key ≠ "") {calls : Calls (UserCall b η)}
    (hclock : ClockForward now calls time)
    (hcalls : b.machine.Throughout (UserCall.Recirculates key (HostSession.ofTicket key t)) [] c calls) :
    OnlyFinds key (HostSession.ofTicket key t) (b.machine.run c calls).1 ∧
      b.Answers P key time (b.machine.run c calls).2 := by
  have hstart : OnlyFinds key (HostSession.ofTicket key t) ([] : List (UserCall b η × UserAnswer b η)) :=
    nofun
  exact b.machine.run_lasts
    (fun now log c => OnlyFinds key (HostSession.ofTicket key t) log ∧ b.Answers P key now c)
    (fun hle h => ⟨h.1, h.2.later hle⟩)
    (fun hcall h => ⟨h.2.onlyFinds hP h.1 _,
      hcall.elim h.2.spares fun hback => h.2.putsBack hP hkey h.1 hback⟩)
    hclock hcalls ⟨hstart, h⟩

/-- One session is found, or none is. -/
def AtMost (s : η) : Instant → Option η → Prop := fun _ found => found = none ∨ found = some s

/-- One session is found until an end. -/
def Until (stop : Option Instant) (s : η) : Instant → Option η → Prop := fun later found =>
  found = if stop.any (· ≤ later) then none else some s

variable {t : ServiceTicket}

private theorem allows_atMost (key : String) (t : ServiceTicket) :
    Allows (AtMost (HostSession.ofTicket key t : η)) key t where
  only h := by
    rcases h with hnone | hsome
    · cases hnone
    · exact Option.some.inj hsome
  until_end later := by
    split
    · exact .inl rfl
    · exact .inr rfl

private theorem allows_until (key : String) (t : ServiceTicket) :
    Allows (Until t.assertion.validUntil (HostSession.ofTicket key t : η)) key t where
  only h := by
    unfold Until at h
    split at h
    · cases h
    · exact Option.some.inj h
  until_end _ := rfl

/-- From the time at which a ticket is served, its session is found or none is. -/
theorem answers_of_retrieve (hsound : b.Sound c)
    (hserved : (b.tickets.retrieve key now c).1 = .ok (some t)) :
    b.Answers (AtMost (HostSession.ofTicket key t : η)) key now c := by
  refine ⟨hsound, reached_of_retrieve hserved, ?_⟩
  intro later hle
  rcases retrieve_later hsound hle hserved with hsame | hnone
  · exact ⟨_, hsame, .inr rfl⟩
  · exact ⟨_, hnone, .inl rfl⟩

/-- One session is told of until an end exactly if it is served until then. -/
private theorem answers_until_iff {stop : Option Instant} {s : η} :
    b.Answers (Until stop s) key now c ↔
      b.Sound c ∧ b.Reached c ∧ b.ServesUntil key s stop now c := by
  constructor
  · intro h
    refine ⟨h.sound, h.reached, ?_⟩
    intro settings later hle
    obtain ⟨found, hfound, rfl⟩ := h.retrieve settings hle
    exact hfound
  · rintro ⟨hsound, hreached, hserves⟩
    exact ⟨hsound, hreached, fun later hle =>
      SessionStore.retrieve_eq_ok.1 (hserves .standard later hle)⟩

/-- A session is back under its key: the ticket there says of it what another ticket does and has the
key as its id, and the session is answered with until that ticket ends, however often it is put back
again. -/
structure PutBack (b : Storage) (key : String) (s : η) (t : ServiceTicket) (now : Instant)
    (c : b.State) : Prop where
  held : ∃ u, b.ticket? c key = some u ∧ u.id = key ∧ t.SameSession u
  served : ∀ calls later, ClockForward now calls later →
    b.machine.Throughout (UserCall.Recirculates key s) [] c calls →
    OnlyFinds key s (b.machine.run c calls).1 ∧
      b.ServesUntil key s t.assertion.validUntil later (b.machine.run c calls).2

/-- A session is back under its key when its ticket is kept there. -/
private theorem Keeps.isPutBack [LawfulSession η] {hkey : key ≠ ""}
    (h : b.Keeps key (t.putBack key hkey) c) (now : Instant) :
    b.PutBack key (HostSession.ofTicket key t : η) t now c where
  held := ⟨_, h.ticket?, rfl, rfl, rfl, rfl⟩
  served calls later hclock hcalls := by
    have hallows := allows_until (η := η) key t
    obtain ⟨hfinds, hanswers⟩ := (h.answers hallows now).run hallows hkey hclock hcalls
    exact ⟨hfinds, (answers_until_iff.1 hanswers).2.2⟩

end Storage

end Answers

/-- A session that is found at a key can always be stored and renewed there, and comes back as it was:
however often the sessions found at the key are put back, even when they have expired, they are one and
the same session, which is found until its assertion ends and at no time after that. And with one session
store alone, every ticket has its key as its id and is found until its own assertion ends. -/
theorem SessionStore.retrieve_putBack (b : Storage) (shape : SessionShape) :
    (∀ settings (before : Calls (UserCall b shape.Session)) key found (s : shape.Session),
      let c := (b.machine.run b.start before).2
      ((b.sessions settings).retrieve key found c).1 = .ok (some s) →
      (HostSession.properties s).ticketId? = some key ∧
      ∃ t, b.ticket? c key = some t ∧ HostSession.assertion? s = some t.assertion ∧
        ∀ calls now, ClockForward found calls now →
          b.machine.Throughout (UserCall.Recirculates key s) [] c calls →
          let after := b.machine.run c calls
          OnlyFinds key s after.1 ∧
          (b.ServesUntil key s t.assertion.validUntil found c →
            b.ServesUntil key s t.assertion.validUntil now after.2) ∧
          ∀ settings fresh,
            let stored := (b.sessions settings).store fresh s now after.2
            let renewed := (b.sessions settings).renew key s now after.2
            (stored.1 = .ok key ∧ b.PutBack key s t now stored.2) ∧
              renewed.1 = .ok () ∧ b.PutBack key s t now renewed.2) ∧
    ∀ settings (calls : Calls (SessionCall shape.Session)) key t,
      let c := ((b.sessions settings).machine.run b.start calls).2
      b.ticket? c key = some t →
        t.id = key ∧ ∀ now, b.ServesUntil key (HostSession.ofTicket key t : shape.Session)
          t.assertion.validUntil now c := by
  constructor
  · intro settings before key found s c hfound
    obtain ⟨ticket, hserved, hticket⟩ := SessionStore.retrieve_eq_ok.1 hfound
    obtain ⟨t, rfl, rfl⟩ := Option.map_eq_some_iff.1 hticket
    have hsound : b.Sound c := Storage.sound_run b before
    have hkey : key ≠ "" := Storage.key_ne_of_retrieve hserved
    refine ⟨ticketId?_ofTicket hkey t, t, Storage.ticket?_of_retrieve hsound hserved,
      LawfulSession.assertion?_ofTicket key t, ?_⟩
    intro calls now hclock hcalls after
    have hanswers := Storage.answers_of_retrieve (η := shape.Session) hsound hserved
    obtain ⟨hfinds, hafter⟩ := hanswers.run (Storage.allows_atMost key t) hkey hclock hcalls
    refine ⟨hfinds, ?_, ?_⟩
    · intro hserves
      have huntil := Storage.answers_until_iff.2 ⟨hsound, hanswers.reached, hserves⟩
      have hlasts := (huntil.run (Storage.allows_until key t) hkey hclock hcalls).2
      exact (Storage.answers_until_iff.1 hlasts).2.2
    · intro settings fresh
      obtain ⟨hstored, hkeepsStored⟩ :=
        Storage.store_ofTicket (η := shape.Session) hafter.sound hafter.reached settings fresh hkey t now
      obtain ⟨hrenewed, hkeepsRenewed⟩ :=
        Storage.renew_ofTicket (η := shape.Session) hafter.sound hafter.reached settings hkey t now
      exact ⟨⟨hstored, hkeepsStored.isPutBack now⟩, hrenewed, hkeepsRenewed.isPutBack now⟩
  · intro settings calls key t c hticket
    obtain ⟨hid, hkeeps⟩ := Storage.keepsOwn_run settings calls key t hticket
    refine ⟨hid, ?_⟩
    intro now settings later _
    refine SessionStore.retrieve_eq_ok.2 ⟨_, hkeeps.served later, ?_⟩
    split <;> rfl

/-- A session of which the own window ends early is found until its assertion ends. It is put back once
before that and once after, and is not found then. -/
theorem SessionStore.retrieve_putBack_expired :
    let a := (ServiceTicket.lasting (some (.onSecond 9)) "ST-1").assertion
    let role := Claim.ofValue "role" "admin"
    let first : SchemeSession :=
      ⟨"Cookies", ⟨[.ofAssertion a "CAS" [role]]⟩, ⟨.empty, none, some (.onSecond 3)⟩⟩
    let s : SchemeSession :=
      ⟨"Cookies", ⟨[.ofAssertion a "Cookies" [role]]⟩,
        ⟨.ofList [("ServiceTicket", "ST-1")], none, some (.onSecond 9)⟩⟩
    let t : ServiceTicket :=
      ⟨"ST-1", "Cookies", a, [role.entry], none, some (.onSecond 3), by decide, by decide⟩
    let b := Storage.bounded "cas-st:" 2
    let c := (b.machine.run b.start [(.onSecond 0, .session .standard (.store "ST-1" first))]).2
    let calls : Calls (UserCall b SchemeSession) :=
      [(.onSecond 2, .session .standard (.retrieve "ST-1")),
        (.onSecond 4, .session .standard (.renew "ST-1" s))]
    let stored := (b.sessions .standard).store "ST-2" s (.onSecond 10) (b.machine.run c calls).2
    let own : Calls (SessionCall SchemeSession) := [(.onSecond 0, .store "ST-1" first)]
    let d := ((b.sessions .standard).machine.run b.start own).2
    (((b.sessions .standard).retrieve "ST-1" (.onSecond 2) c).1 = .ok (some s) ∧
      ClockForward (.onSecond 2) calls (.onSecond 10) ∧
      b.machine.Throughout (UserCall.Recirculates "ST-1" s) [] c calls ∧
      OnlyFinds "ST-1" s (b.machine.run c calls).1 ∧ stored.1 = .ok "ST-1" ∧
      ((b.sessions .standard).retrieve "ST-1" (.onSecond 10) stored.2).1 =
        .ok (none : Option SchemeSession)) ∧
    b.ticket? d "ST-1" = some t ∧
      ((b.sessions .standard).retrieve "ST-1" (.onSecond 8) d).1 = .ok (some s) := by
  intro a role first s t b c calls stored own d
  have hfound : ((b.sessions .standard).retrieve "ST-1" (.onSecond 2) c).1 = .ok (some s) := rfl
  have hclock : ClockForward (.onSecond 2) calls (.onSecond 10) := by decide
  have hcalls : b.machine.Throughout (UserCall.Recirculates "ST-1" s) [] c calls := by
    refine ⟨.inl ?_, .inr ⟨rfl, .inr ⟨.standard, .head _⟩⟩, trivial⟩
    intro use huse call hcall
    cases huse
    cases hcall
    trivial
  obtain ⟨hputBack, halone⟩ := SessionStore.retrieve_putBack b .scheme
  obtain ⟨-, u, -, hassertion, hputs⟩ := hputBack .standard
    [(.onSecond 0, .session .standard (.store "ST-1" first))] "ST-1" (.onSecond 2) s hfound
  obtain ⟨hfinds, -, hback⟩ := hputs calls (.onSecond 10) hclock hcalls
  obtain ⟨⟨hstored, hput⟩, -⟩ := hback .standard "ST-2"
  have hends : ((b.sessions .standard).retrieve "ST-1" (.onSecond 10) stored.2).1 =
      .ok (if u.assertion.validUntil.any (· ≤ .onSecond 10) then none else some s) :=
    (hput.served [] (.onSecond 10) (by decide) trivial).2 .standard (.onSecond 10) (by decide)
  have ha : a = u.assertion := Option.some.inj hassertion
  rw [← ha] at hends
  have hticket : b.ticket? d "ST-1" = some t := rfl
  have hserves := (halone .standard own "ST-1" t hticket).2 (.onSecond 0)
  exact ⟨⟨hfound, hclock, hcalls, hfinds, hstored, hends⟩, hticket,
    hserves .standard (.onSecond 8) (by decide)⟩

end SessionTickets
