import SessionTickets.Proofs.Store.Calls

namespace SessionTickets

/-- What a call does to a key: it puts something there, or takes away what is there. -/
inductive Effect (α : Type) where
  | write (content : α)
  | removal

def Effect.map {α β : Type} (f : α → β) : Effect α → Effect β
  | .write content => .write (f content)
  | .removal => .removal

variable {κ α β : Type} {effectOf : κ → Option (String × Effect α)} {log : List κ} {entry : κ}
  {key : String}

/-- What a log did to a key last. -/
def lastEffect (effectOf : κ → Option (String × Effect α)) (log : List κ) (key : String) :
    Option (Effect α) :=
  (log.filterMap effectOf).reverse.lookup key

private theorem lastEffect_of_none (h : effectOf entry = none) (key : String) :
    lastEffect effectOf (log ++ [entry]) key = lastEffect effectOf log key := by
  rw [lastEffect, List.filterMap_append, List.filterMap_cons_none h, List.filterMap_nil,
    List.append_nil, lastEffect]

/-- What a call does to its key was done to it last, and at the other keys it changes nothing. -/
private theorem lastEffect_of_some {effect : Effect α} (h : effectOf entry = some (key, effect)) (k : String) :
    lastEffect effectOf (log ++ [entry]) k =
      if k = key then some effect else lastEffect effectOf log k := by
  rw [lastEffect, List.filterMap_append, List.filterMap_cons_some h, List.filterMap_nil,
    List.reverse_append, List.reverse_singleton, List.singleton_append, SortedMap.lookup_cons_if,
    lastEffect]

/-- Once a key was removed, and until it is written, a removal is what was done to it last. -/
theorem lastEffect_removal (log : List κ) (hentry : effectOf entry = some (key, .removal)) {later : List κ}
    (hlater : ∀ e ∈ later, ∀ content, effectOf e ≠ some (key, .write content)) :
    lastEffect effectOf (log ++ entry :: later) key = some .removal := by
  rw [lastEffect, List.filterMap_append, List.filterMap_cons_some hentry, List.reverse_append,
    List.reverse_cons, List.append_assoc, List.lookup_append, List.singleton_append,
    SortedMap.lookup_cons_if, if_pos rfl]
  cases hlast : (later.filterMap effectOf).reverse.lookup key with
  | none => rfl
  | some effect =>
    obtain ⟨newer, older, hsplit, _⟩ := List.lookup_eq_some_iff.1 hlast
    have hmem : (key, effect) ∈ (later.filterMap effectOf).reverse := by
      rw [hsplit]
      exact List.mem_append_right _ (.head _)
    obtain ⟨e, he, heffect⟩ := List.mem_filterMap.1 (List.mem_reverse.1 hmem)
    cases effect with
    | write content => exact absurd heffect (hlater e he content)
    | removal => rfl

/-- Whatever a view shows was put there by what was done to its key last. -/
def Traced (effectOf : κ → Option (String × Effect α)) (shows : α → β → Prop) (log : List κ)
    (view : String → Option β) : Prop :=
  ∀ key x, view key = some x →
    ∃ content, lastEffect effectOf log key = some (.write content) ∧ shows content x

namespace Traced

variable {shows : α → β → Prop} {view view' : String → Option β}

/-- Over a call that does nothing to the keys, a view may only lose what it shows. -/
theorem skip (h : Traced effectOf shows log view) (hentry : effectOf entry = none)
    (hview : ∀ k x, view' k = some x → view k = some x) :
    Traced effectOf shows (log ++ [entry]) view' := by
  intro k x hx
  rw [lastEffect_of_none hentry]
  exact h k x (hview k x hx)

/-- A view that shows at a key no more than a call wrote there is traced to the call. -/
theorem write (h : Traced effectOf shows log view) {content : α}
    (hentry : effectOf entry = some (key, .write content))
    (hself : ∀ x, view' key = some x → shows content x)
    (hothers : ∀ k x, k ≠ key → view' k = some x → view k = some x) :
    Traced effectOf shows (log ++ [entry]) view' := by
  intro k x hx
  rw [lastEffect_of_some hentry]
  by_cases hk : k = key
  · rw [if_pos hk]
    rw [hk] at hx
    exact ⟨content, rfl, hself x hx⟩
  · rw [if_neg hk]
    exact h k x (hothers k x hk hx)

/-- A view that shows nothing at a key that a call removed is traced to the call. -/
theorem removal (h : Traced effectOf shows log view) (hentry : effectOf entry = some (key, .removal))
    (hself : view' key = none) (hothers : ∀ k x, k ≠ key → view' k = some x → view k = some x) :
    Traced effectOf shows (log ++ [entry]) view' := by
  intro k x hx
  rw [lastEffect_of_some hentry]
  by_cases hk : k = key
  · rw [hk, hself] at hx
    cases hx
  · rw [if_neg hk]
    exact h k x (hothers k x hk hx)

/-- Nothing is shown at a key that was removed last. -/
theorem eq_none (h : Traced effectOf shows log view)
    (hlast : lastEffect effectOf log key = some .removal) : view key = none := by
  cases hview : view key with
  | none => rfl
  | some x =>
    obtain ⟨content, hwrite, _⟩ := h key x hview
    rw [hlast] at hwrite
    cases hwrite

end Traced

/-- What a call to a ticket store does to its keys. -/
def StoreCall.effect? : StoreCall → StoreAnswer → Option (String × Effect ServiceTicket)
  | .store ticket, .key (.ok _) => some (ticket.id, .write ticket)
  | .renew key ticket, .done (.ok _) => some (key, .write ticket)
  | .remove key, .done (.ok _) => some (key, .removal)
  | _, _ => none

/-- A call that fails does nothing to its keys. -/
theorem StoreCall.effect?_of_error? {call : StoreCall} {answer : StoreAnswer} {e : StoreError}
    (h : answer.error? = some e) : call.effect? answer = none := by
  unfold effect?
  split
  · cases h
  · cases h
  · cases h
  · rfl

end SessionTickets
