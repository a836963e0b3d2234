import SessionTickets.Time.Instant

namespace SessionTickets

namespace Time.Instant

/-- No instant is later than itself. -/
theorem le_refl (t : Instant) : t ≤ t :=
  le_iff_ticks.2 (Int.le_refl _)

/-- The order of instants is transitive. -/
theorem le_trans {a b c : Instant} (hab : a ≤ b) (hbc : b ≤ c) : a ≤ c :=
  le_iff_ticks.2 (Int.le_trans (le_iff_ticks.1 hab) (le_iff_ticks.1 hbc))

/-- The strict order of instants goes with the other one. -/
theorem lt_of_le_of_lt {a b c : Instant} (hab : a ≤ b) (hbc : b < c) : a < c :=
  lt_iff_ticks.2 (Int.lt_of_le_of_lt (le_iff_ticks.1 hab) (lt_iff_ticks.1 hbc))

/-- The start of a second. -/
def onSecond (seconds : Int) (h : InRange seconds := by decide) : Instant :=
  ⟨seconds, 0, h, by decide, fun hleap => absurd hleap (by decide)⟩

end Time.Instant

open Time

variable {σ τ ι ω : Type}

/-- Calls that are made one after the other, each at a time of its own. -/
abbrev Calls (ι : Type) := List (Instant × ι)

/-- The clock does not go backwards between the calls. -/
def Forward (calls : Calls ι) : Prop :=
  calls.Pairwise (·.1 ≤ ·.1)

instance (calls : Calls ι) : Decidable (Forward calls) :=
  inferInstanceAs (Decidable (List.Pairwise _ _))

/-- The clock does not go backwards from one time, over calls, to another time. -/
def ClockForward (start : Instant) (calls : Calls ι) (stop : Instant) : Prop :=
  (start :: (calls.map (·.1) ++ [stop])).Pairwise (· ≤ ·)

instance (start : Instant) (calls : Calls ι) (stop : Instant) :
    Decidable (ClockForward start calls stop) :=
  inferInstanceAs (Decidable (List.Pairwise _ _))

namespace ClockForward

variable {start now stop : Instant} {call : ι} {calls : Calls ι}

private theorem le (h : ClockForward start calls stop) : start ≤ stop :=
  (List.pairwise_cons.1 h).1 stop (List.mem_append_right _ (.head _))

private theorem head_le (h : ClockForward start ((now, call) :: calls) stop) : start ≤ now :=
  (List.pairwise_cons.1 h).1 now (.head _)

private theorem tail (h : ClockForward start ((now, call) :: calls) stop) : ClockForward now calls stop :=
  (List.pairwise_cons.1 h).2

end ClockForward

/-- How a call at a time is answered in a state, and the state after it. -/
abbrev Machine (σ ι ω : Type) := Instant → ι → σ → ω × σ

namespace Machine

/-- The log of a run, which holds each call with its answer, and the state after the run. -/
def run (step : Machine σ ι ω) (s : σ) : Calls ι → List (ι × ω) × σ
  | [] => ([], s)
  | (now, call) :: rest =>
    let (answer, s) := step now call s
    let (log, s) := run step s rest
    ((call, answer) :: log, s)

/-- A run makes its first call, and then the others in the state that the first call leaves. -/
theorem run_cons (step : Machine σ ι ω) (s : σ) (now : Instant) (call : ι) (rest : Calls ι) :
    step.run s ((now, call) :: rest) =
      ((call, (step now call s).1) :: (step.run (step now call s).2 rest).1,
        (step.run (step now call s).2 rest).2) :=
  rfl

/-- What each call keeps, with what the log says so far, a whole run keeps. -/
theorem run_invariant {step : Machine σ ι ω} {P : List (ι × ω) → σ → Prop} {s : σ} (hstart : P [] s)
    (hstep : ∀ log s now call, P log s →
      P (log ++ [(call, (step now call s).1)]) (step now call s).2) (calls : Calls ι) :
    P (step.run s calls).1 (step.run s calls).2 := by
  have hgeneral : ∀ log s, P log s → P (log ++ (step.run s calls).1) (step.run s calls).2 := by
    induction calls with
    | nil =>
      intro log s h
      rw [run, List.append_nil]
      exact h
    | cons call rest ih =>
      intro log s h
      have hrest := ih _ _ (hstep log s call.1 call.2 h)
      rw [List.append_assoc, List.singleton_append] at hrest
      exact hrest
  exact hgeneral [] s hstart

/-- Two machines answer alike over a whole run in which the clock does not go backwards, if a
relation between their states lasts while the clock moves on and over every allowed call, and if
the answers to an allowed call in related states are equal. -/
theorem run_log_eq {step : Machine σ ι ω} {step' : Machine τ ι ω} (R : Instant → σ → τ → Prop)
    (Allowed : ι → Prop) (hlater : ∀ now later s t, now ≤ later → R now s t → R later s t)
    (hstep : ∀ now s t call, Allowed call → R now s t →
      (step now call s).1 = (step' now call t).1 ∧ R now (step now call s).2 (step' now call t).2)
    {calls : Calls ι} (hforward : Forward calls) (hcalls : ∀ c ∈ calls, Allowed c.2) {s : σ} {t : τ}
    (hstart : ∀ now, R now s t) : (step.run s calls).1 = (step'.run t calls).1 := by
  have hgeneral : ∀ s t, (∀ c ∈ calls, R c.1 s t) → (step.run s calls).1 = (step'.run t calls).1 := by
    clear hstart s t
    induction calls with
    | nil => exact fun _ _ _ => rfl
    | cons call rest ih =>
      intro s t hrel
      obtain ⟨now, call⟩ := call
      obtain ⟨hhead, hrest⟩ := List.pairwise_cons.1 hforward
      obtain ⟨hanswer, hnext⟩ := hstep now s t call (hcalls _ (.head _)) (hrel _ (.head _))
      have hlog := ih hrest (fun c hc => hcalls c (.tail _ hc)) _ _
        fun c hc => hlater now c.1 _ _ (hhead c hc) hnext
      rw [run_cons, run_cons, hanswer, hlog]
  exact hgeneral s t fun c _ => hstart c.1

/-- Calls that are not kept can be deleted from a run without a change of the answers that are seen, if
a relation between the states lasts over every kept call on both sides, which answer alike where that
is seen, and over every other call on one side. -/
theorem run_filter {step : Machine σ ι ω} (R : σ → σ → Prop) (Allowed : ι → Prop) {kept seen : ι → Bool}
    (hseen : ∀ call, seen call → kept call)
    (hkept : ∀ now s t call, Allowed call → kept call → R s t →
      (seen call → (step now call s).1 = (step now call t).1) ∧
        R (step now call s).2 (step now call t).2)
    (hdeleted : ∀ now s t call, Allowed call → kept call = false → R s t → R (step now call s).2 t)
    {calls : Calls ι} (hcalls : ∀ c ∈ calls, Allowed c.2) {s t : σ} (hstart : R s t) :
    (step.run s calls).1.filter (fun e => seen e.1) =
      (step.run t (calls.filter fun c => kept c.2)).1.filter (fun e => seen e.1) := by
  induction calls generalizing s t with
  | nil => rfl
  | cons call rest ih =>
    obtain ⟨now, call⟩ := call
    have hallowed : Allowed call := hcalls _ (.head _)
    have hrest : ∀ c ∈ rest, Allowed c.2 := fun c hc => hcalls c (.tail _ hc)
    cases hkeep : kept call with
    | true =>
      obtain ⟨hanswer, hnext⟩ := hkept now s t call hallowed hkeep hstart
      rw [List.filter_cons_of_pos (by exact hkeep), run_cons, run_cons, List.filter_cons,
        List.filter_cons, ih hrest hnext]
      split
      · next hsees => rw [hanswer hsees]
      · rfl
    | false =>
      have hunseen : ¬ seen call := fun hsees => Bool.false_ne_true (hkeep.symm.trans (hseen _ hsees))
      rw [List.filter_cons_of_neg (by simp [hkeep]), run_cons, List.filter_cons_of_neg (by exact hunseen)]
      exact ih hrest (hdeleted now s t call hallowed hkeep hstart)

/-- Where the calls of one machine stand for the calls of another, with the same states and with
answers that stand for its answers, so do its runs. -/
theorem run_map {κ χ : Type} {step : Machine σ ι ω} {step' : Machine σ κ χ} {f : ι → κ} {g : ω → χ}
    (h : ∀ now call s, step' now (f call) s = ((g (step now call s).1), (step now call s).2))
    (calls : Calls ι) (s : σ) :
    step'.run s (calls.map (Prod.map id f)) =
      ((step.run s calls).1.map (Prod.map f g), (step.run s calls).2) := by
  induction calls generalizing s with
  | nil => rfl
  | cons call rest ih =>
    obtain ⟨now, call⟩ := call
    rw [List.map_cons, Prod.map_apply, run_cons, run_cons, id_eq, h, ih]
    rfl

/-- What holds of each call of a run, of the log before it and of the state in which it is made. -/
def Throughout (step : Machine σ ι ω) (P : List (ι × ω) → Instant → ι → σ → Prop)
    (log : List (ι × ω)) (s : σ) : Calls ι → Prop
  | [] => True
  | (now, call) :: rest =>
    P log now call s ∧
      step.Throughout P (log ++ [(call, (step now call s).1)]) (step now call s).2 rest

/-- What lasts while the clock moves on, and over each call with some property, lasts from one time
to another over a run of such calls in between. -/
theorem run_lasts (step : Machine σ ι ω) {P : List (ι × ω) → Instant → ι → σ → Prop}
    (R : Instant → List (ι × ω) → σ → Prop)
    (hlater : ∀ {now later log s}, now ≤ later → R now log s → R later log s)
    (hstep : ∀ {now log s call}, P log now call s → R now log s →
      R now (log ++ [(call, (step now call s).1)]) (step now call s).2)
    {start stop : Instant} {calls : Calls ι} (hclock : ClockForward start calls stop)
    {log : List (ι × ω)} {s : σ} (hcalls : step.Throughout P log s calls) (hstart : R start log s) :
    R stop (log ++ (step.run s calls).1) (step.run s calls).2 := by
  induction calls generalizing start log s with
  | nil =>
    rw [run, List.append_nil]
    exact hlater hclock.le hstart
  | cons call rest ih =>
    obtain ⟨now, call⟩ := call
    obtain ⟨hcall, hrest⟩ := hcalls
    have hnext := ih hclock.tail hrest (hstep hcall (hlater hclock.head_le hstart))
    rw [List.append_assoc, List.singleton_append] at hnext
    exact hnext

/-- What lasts over each call with some property lasts over a run of such calls, whatever the clock
does. -/
theorem run_keeps (step : Machine σ ι ω) {P : List (ι × ω) → Instant → ι → σ → Prop}
    (R : List (ι × ω) → σ → Prop)
    (hstep : ∀ {log now s call}, P log now call s → R log s →
      R (log ++ [(call, (step now call s).1)]) (step now call s).2)
    {calls : Calls ι} {log : List (ι × ω)} {s : σ} (hcalls : step.Throughout P log s calls)
    (hstart : R log s) : R (log ++ (step.run s calls).1) (step.run s calls).2 := by
  induction calls generalizing log s with
  | nil =>
    rw [run, List.append_nil]
    exact hstart
  | cons call rest ih =>
    obtain ⟨now, call⟩ := call
    obtain ⟨hcall, hrest⟩ := hcalls
    have hnext := ih hrest (hstep hcall hstart)
    rw [List.append_assoc, List.singleton_append] at hnext
    exact hnext

/-- The calls of a run whose answers are of some kind. -/
def answered (step : Machine σ ι ω) (kind : ω → Bool) (s : σ) : Calls ι → Calls ι
  | [] => []
  | (now, call) :: rest =>
    if kind (step now call s).1 then (now, call) :: answered step kind (step now call s).2 rest
    else answered step kind (step now call s).2 rest

/-- If calls with other answers do nothing, they can be deleted from a run. -/
theorem run_answered {step : Machine σ ι ω} {kind : ω → Bool}
    (h : ∀ now call s, kind (step now call s).1 = false → (step now call s).2 = s) (s : σ)
    (calls : Calls ι) :
    step.run s (step.answered kind s calls) =
      ((step.run s calls).1.filter fun e => kind e.2, (step.run s calls).2) := by
  induction calls generalizing s with
  | nil => rfl
  | cons call rest ih =>
    obtain ⟨now, call⟩ := call
    have hrest := ih (step now call s).2
    rw [answered, run_cons]
    cases hkind : kind (step now call s).1 with
    | true => rw [if_pos rfl, run_cons, hrest, List.filter_cons_of_pos (by exact hkind)]
    | false =>
      have hsame := h now call s hkind
      rw [hsame] at hrest
      rw [if_neg Bool.false_ne_true, List.filter_cons_of_neg (by simp [hkind]), hsame, hrest]

/-- Two machines side by side, which take the same calls. -/
def beside {χ : Type} (step : Machine σ ι ω) (step' : Machine τ ι χ) :
    Machine (σ × τ) ι (ω × χ) := fun now call s =>
  (((step now call s.1).1, (step' now call s.2).1), (step now call s.1).2, (step' now call s.2).2)

/-- Machines side by side end where each of them ends alone. -/
theorem run_beside {χ : Type} (step : Machine σ ι ω) (step' : Machine τ ι χ) (s : σ) (t : τ)
    (calls : Calls ι) :
    ((step.beside step').run (s, t) calls).2 = ((step.run s calls).2, (step'.run t calls).2) := by
  induction calls generalizing s t with
  | nil => rfl
  | cons call rest ih => exact ih _ _

/-- What holds of all calls in all states holds of each call of a run. -/
theorem throughout_of_forall (step : Machine σ ι ω) {P : List (ι × ω) → Instant → ι → σ → Prop}
    (h : ∀ log now call s, P log now call s) (log : List (ι × ω)) (s : σ) (calls : Calls ι) :
    step.Throughout P log s calls := by
  induction calls generalizing log s with
  | nil => trivial
  | cons call rest ih => exact ⟨h _ _ _ _, ih _ _⟩

/-- The calls that other calls come to, at the same times. -/
def callsBelow {κ : Type} (below? : ι → Option κ) (calls : Calls ι) : Calls κ :=
  calls.filterMap fun c => (below? c.2).map (c.1, ·)

/-- The calls that others come to do not take the clock back either. -/
theorem clockForward_callsBelow {κ : Type} (below? : ι → Option κ) {start stop : Instant}
    {calls : Calls ι} (h : ClockForward start calls stop) :
    ClockForward start (callsBelow below? calls) stop := by
  have htimes : ((callsBelow below? calls).map (·.1)).Sublist (calls.map (·.1)) := by
    induction calls with
    | nil => exact .slnil
    | cons call rest ih =>
      have hrest := ih (h.sublist ((List.sublist_cons_self _ _).cons_cons start))
      rw [callsBelow, List.filterMap_cons]
      cases below? call.2 with
      | none => exact hrest.cons _
      | some c => exact hrest.cons_cons _
  exact h.sublist ((htimes.append_right [stop]).cons_cons start)

/-- Where each call comes to one call of another machine or to none, a run ends as the run of those
calls does. -/
theorem run_callsBelow {κ χ : Type} {step : Machine σ ι ω} {step' : Machine σ κ χ}
    {below? : ι → Option κ}
    (h : ∀ now call s, (step now call s).2 = (below? call).elim s fun c => (step' now c s).2)
    (calls : Calls ι) (s : σ) :
    (step.run s calls).2 = (step'.run s (callsBelow below? calls)).2 := by
  induction calls generalizing s with
  | nil => rfl
  | cons call rest ih =>
    obtain ⟨now, call⟩ := call
    have hstep := h now call s
    rw [run_cons]
    cases hbelow : below? call with
    | none =>
      rw [hbelow] at hstep
      rw [hstep, ih, callsBelow, callsBelow, List.filterMap_cons_none (by rw [hbelow, Option.map_none])]
      rfl
    | some c =>
      rw [hbelow] at hstep
      rw [hstep, ih, callsBelow, callsBelow,
        List.filterMap_cons_some (by rw [hbelow, Option.map_some]), run_cons]
      rfl

end Machine

end SessionTickets
