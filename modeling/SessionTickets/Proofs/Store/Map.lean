import SessionTickets.Proofs.Store.Calls

namespace SessionTickets

open Time

/-- The ticket store that is a map from keys to tickets. It forgets nothing, and shows a ticket while
its assertion is valid. No key is empty. -/
def mapStore : TicketStore (SortedMap ServiceTicket) where
  store ticket := fun _ m => (.ok ticket.id, m.insert ticket.id ticket)
  retrieve key := fun now m =>
    if key = "" then (.error .emptyKey, m)
    else (.ok ((m.find? key).filter fun t => t.assertion.validUntil.all (now < ·)), m)
  renew key ticket := fun _ m =>
    if key = "" then (.error .emptyKey, m) else (.ok (), m.insert key ticket)
  remove key := fun _ m =>
    if key = "" then (.error .emptyKey, m) else (.ok (), m.erase key)

private theorem ServiceTicket.isExpiredAt_of_le {t : ServiceTicket} {now later : Instant} (hle : now ≤ later)
    (h : t.isExpiredAt now) : t.isExpiredAt later := by
  unfold isExpiredAt at h ⊢
  cases hdeadline : t.deadline with
  | none => simp [hdeadline] at h
  | some deadline =>
    simp only [hdeadline, Option.any_some, decide_eq_true_eq] at h ⊢
    exact Instant.le_trans h hle

/-- At each key a view shows the ticket of a map, or nothing once that has expired. -/
def Shows {β : Type} (image : ServiceTicket → β) (now : Instant) (view : String → Option β)
    (m : SortedMap ServiceTicket) : Prop :=
  ∀ key, view key = (m.find? key).map image ∨
    view key = none ∧ (m.find? key).any (·.isExpiredAt now)

namespace Shows

variable {β : Type} {image : ServiceTicket → β} {now : Instant} {view view' : String → Option β}
  {m : SortedMap ServiceTicket} {key : String}

/-- A view goes on to show the tickets while the clock moves on. -/
theorem later {later : Instant} (hle : now ≤ later) (h : Shows image now view m) :
    Shows image later view m := by
  intro k
  rcases h k with hsame | ⟨hnone, hexpired⟩
  · exact .inl hsame
  · obtain ⟨t, hfind, ht⟩ := (Option.any_eq_true _ _).1 hexpired
    have hlater := ServiceTicket.isExpiredAt_of_le hle ht
    exact .inr ⟨hnone, (Option.any_eq_true _ _).2 ⟨t, hfind, hlater⟩⟩

/-- A view shows a ticket more after that was put into both. -/
theorem insert (h : Shows image now view m) {ticket : ServiceTicket}
    (hself : view' key = some (image ticket)) (hothers : ∀ k, k ≠ key → view' k = view k) :
    Shows image now view' (m.insert key ticket) := by
  intro k
  rw [SortedMap.find?_insert]
  by_cases hk : k = key
  · rw [if_pos hk, hk, hself]
    exact .inl rfl
  · rw [if_neg hk, hothers k hk]
    exact h k

/-- A view shows a ticket less after that was taken from both. -/
theorem erase (h : Shows image now view m) (hself : view' key = none)
    (hothers : ∀ k, k ≠ key → view' k = view k) : Shows image now view' (m.erase key) := by
  intro k
  rw [SortedMap.find?_erase]
  by_cases hk : k = key
  · rw [if_pos hk, hk, hself]
    exact .inl rfl
  · rw [if_neg hk, hothers k hk]
    exact h k

/-- A view may lose a ticket that has expired. -/
theorem drop (h : Shows image now view m) (hself : view' key = none)
    (hexpired : (m.find? key).any (·.isExpiredAt now)) (hothers : ∀ k, k ≠ key → view' k = view k) :
    Shows image now view' m := by
  intro k
  by_cases hk : k = key
  · rw [hk]
    exact .inr ⟨hself, hexpired⟩
  · rw [hothers k hk]
    exact h k

/-- At each key a view shows the ticket of the map, or nothing while the map shows nothing. -/
theorem cases (h : Shows image now view m) (key : String) :
    (∃ ticket, m.find? key = some ticket ∧ view key = some (image ticket)) ∨
      view key = none ∧
        (m.find? key).filter (fun t => t.assertion.validUntil.all (now < ·)) = none := by
  rcases h key with hsame | ⟨hnone, hexpired⟩
  · cases hfind : m.find? key with
    | none =>
      rw [hfind, Option.map_none] at hsame
      exact .inr ⟨hsame, Option.filter_none _⟩
    | some ticket =>
      rw [hfind, Option.map_some] at hsame
      exact .inl ⟨ticket, rfl, hsame⟩
  · obtain ⟨ticket, hfind, hticket⟩ := (Option.any_eq_true _ _).1 hexpired
    rw [ServiceTicket.isExpiredAt_eq, Bool.not_eq_true'] at hticket
    rw [hfind, Option.filter_some, hticket]
    exact .inr ⟨hnone, rfl⟩

end Shows

/-- Two operations answer alike and end in related states. -/
def Agree {σ τ α : Type} (R : σ → τ → Prop) (x : Except StoreError α × σ)
    (y : Except StoreError α × τ) : Prop :=
  x.1 = y.1 ∧ R x.2 y.2

/-- An operation on a key agrees with what is refused for an empty key, if it does at all other keys. -/
theorem withKey_agree_if {σ τ α : Type} {R : σ → τ → Prop} {key : String} {operation : Operation σ α}
    {now : Instant} {s : σ} {t : τ} {result : Except StoreError α × τ} (h : R s t)
    (hresult : key ≠ "" → Agree R (operation now s) result) :
    Agree R (withKey key operation now s) (if key = "" then (.error .emptyKey, t) else result) := by
  unfold withKey
  by_cases hkey : key = ""
  · rw [if_pos hkey, if_pos hkey]
    exact ⟨rfl, h⟩
  · rw [if_neg hkey, if_neg hkey]
    exact hresult hkey

/-- Operations on one key agree if they do when the key is not empty. -/
theorem withKey_agree {σ τ α : Type} {R : σ → τ → Prop} {key : String} {operation : Operation σ α}
    {operation' : Operation τ α} {now : Instant} {s : σ} {t : τ} (h : R s t)
    (hoperation : key ≠ "" → Agree R (operation now s) (operation' now t)) :
    Agree R (withKey key operation now s) (withKey key operation' now t) :=
  withKey_agree_if h hoperation

/-- Ticket stores whose operations agree answer each call alike. -/
theorem TicketStore.machine_agree {σ τ : Type} {R : σ → τ → Prop} {tickets : TicketStore σ}
    {tickets' : TicketStore τ} {now : Instant} {s : σ} {t : τ}
    (hstore : ∀ ticket, Agree R (tickets.store ticket now s) (tickets'.store ticket now t))
    (hretrieve : ∀ key, Agree R (tickets.retrieve key now s) (tickets'.retrieve key now t))
    (hrenew : ∀ key ticket, Agree R (tickets.renew key ticket now s) (tickets'.renew key ticket now t))
    (hremove : ∀ key, Agree R (tickets.remove key now s) (tickets'.remove key now t)) (call : StoreCall) :
    (tickets.machine now call s).1 = (tickets'.machine now call t).1 ∧
      R (tickets.machine now call s).2 (tickets'.machine now call t).2 := by
  cases call with
  | store ticket => exact ⟨congrArg StoreAnswer.key (hstore ticket).1, (hstore ticket).2⟩
  | retrieve key => exact ⟨congrArg StoreAnswer.ticket (hretrieve key).1, (hretrieve key).2⟩
  | renew key ticket => exact ⟨congrArg StoreAnswer.done (hrenew key ticket).1, (hrenew key ticket).2⟩
  | remove key => exact ⟨congrArg StoreAnswer.done (hremove key).1, (hremove key).2⟩

end SessionTickets
