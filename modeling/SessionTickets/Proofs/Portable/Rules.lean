import SessionTickets.Proofs.Portable.RoundTrip
import SessionTickets.Proofs.Store.Calls

namespace SessionTickets

open Time

/-- A rule, and what is reported if it is broken. -/
structure Rule where
  Broken : Prop
  fault : TicketError

/-- No rule is broken. -/
def Kept (rules : List Rule) : Prop :=
  ∀ rule ∈ rules, ¬ rule.Broken

/-- The first broken rule, which has a fault to report. -/
inductive FirstBroken : List Rule → TicketError → Prop
  | head {rule : Rule} {rules : List Rule} (hbroken : rule.Broken) : FirstBroken (rule :: rules) rule.fault
  | tail {rule : Rule} {rules : List Rule} {fault : TicketError} (hkept : ¬ rule.Broken)
    (h : FirstBroken rules fault) : FirstBroken (rule :: rules) fault

namespace FirstBroken

variable {rules more : List Rule} {fault fault' : TicketError}

private theorem not_kept (h : FirstBroken rules fault) : ¬ Kept rules := by
  induction h with
  | head hbroken => exact fun hkept => hkept _ (.head _) hbroken
  | tail _ _ ih => exact fun hkept => ih fun rule hrule => hkept rule (.tail _ hrule)

private theorem unique (h : FirstBroken rules fault) (h' : FirstBroken rules fault') : fault = fault' := by
  induction h with
  | head hbroken =>
    cases h' with
    | head => rfl
    | tail hkept _ => exact absurd hbroken hkept
  | tail hkept _ ih =>
    cases h' with
    | head hbroken => exact absurd hbroken hkept
    | tail _ h' => exact ih h'

/-- Rules that come later do not count. -/
private theorem append_left (h : FirstBroken rules fault) (more : List Rule) : FirstBroken (rules ++ more) fault := by
  induction h with
  | head hbroken => exact .head hbroken
  | tail hkept _ ih => exact .tail hkept ih

/-- Rules that are kept do not count. -/
private theorem append_right (hkept : Kept rules) (h : FirstBroken more fault) :
    FirstBroken (rules ++ more) fault := by
  induction rules with
  | nil => exact h
  | cons rule rules ih =>
    exact .tail (hkept rule (.head _)) (ih fun r hr => hkept r (.tail _ hr))

end FirstBroken

/-- A check finds the first broken rule, or a value of some kind if there is none. -/
inductive Checks {α : Type} (rules : List Rule) (Good : α → Prop) : Except TicketError α → Prop
  | ok {v : α} (hkept : Kept rules) (hgood : Good v) : Checks rules Good (.ok v)
  | error {fault : TicketError} (h : FirstBroken rules fault) : Checks rules Good (.error fault)

namespace Checks

variable {α β : Type} {rules more : List Rule} {Good : α → Prop} {Good' : β → Prop}
  {result : Except TicketError α}

/-- A rule that is kept is looked at first. -/
theorem cons {rule : Rule} (hkept : ¬ rule.Broken) (h : Checks rules Good result) :
    Checks (rule :: rules) Good result := by
  cases h with
  | ok hrest hgood => exact .ok (List.forall_mem_cons.2 ⟨hkept, hrest⟩) hgood
  | error h => exact .error (.tail hkept h)

/-- Two checks, one after the other. -/
theorem bind {next : α → Except TicketError β} (h : Checks rules Good result)
    (hnext : ∀ v, Good v → Checks more Good' (next v)) : Checks (rules ++ more) Good' (result >>= next) := by
  cases h with
  | error h => exact .error (h.append_left more)
  | @ok v hkept hgood =>
    change Checks _ _ (next v)
    have hmore := hnext v hgood
    generalize next v = found at hmore
    cases hmore with
    | ok hkept' hgood' => exact .ok (List.forall_mem_append.2 ⟨hkept, hkept'⟩) hgood'
    | error h => exact .error (.append_right hkept h)

/-- A value that is made of what a check comes to breaks no more rules. -/
private theorem map {f : α → β} (h : Checks rules Good result) (hf : ∀ v, Good v → Good' (f v)) :
    Checks rules Good' (result >>= fun v => .ok (f v)) := by
  have hdone : ∀ v, Good v → Checks [] Good' (.ok (f v)) := fun v hgood => .ok nofun (hf v hgood)
  have hbind := h.bind hdone
  rwa [List.append_nil] at hbind

/-- A check comes to a value exactly if all rules are kept. -/
private theorem exists_ok_iff (h : Checks rules Good result) : (∃ v, result = .ok v) ↔ Kept rules := by
  cases h with
  | ok hkept _ => exact ⟨fun _ => hkept, fun _ => ⟨_, rfl⟩⟩
  | error h => exact ⟨nofun, fun hkept => absurd hkept h.not_kept⟩

/-- A check reports exactly the first broken rule. -/
private theorem eq_error_iff (h : Checks rules Good result) (fault : TicketError) :
    result = .error fault ↔ FirstBroken rules fault := by
  cases h with
  | ok hkept _ => exact ⟨nofun, fun h => absurd hkept h.not_kept⟩
  | error h => exact ⟨fun heq => Except.error.inj heq ▸ h, fun h' => congrArg _ (h.unique h')⟩

private theorem good {v : α} (h : Checks rules Good result) (hv : result = .ok v) : Good v := by
  cases h with
  | ok hkept hgood => exact Except.ok.inj hv ▸ hgood
  | error h => cases hv

end Checks

/-- A window with both ends does not end before it starts, whatever the offsets of the two clocks. -/
def windowRules : Option Stamp → Option Stamp → List Rule
  | some start, some stop =>
    [⟨stop.instant < start.instant,
      .invalidWindow start.instant.textWithDigits stop.instant.textWithDigits⟩]
  | _, _ => []

/-- An assertion names its principal, and its window is in order. -/
def AssertionRecord.rules (r : AssertionRecord) : List Rule :=
  ⟨r.principalName = "", .emptyPrincipalName⟩ :: windowRules r.validFrom r.validUntil

/-- The rules of the assertion come first. -/
def TicketRecord.rules (r : TicketRecord) : List Rule :=
  r.assertion.rules ++ [⟨r.id = "", .emptyTicketId⟩, ⟨r.authenticationType = "", .emptyAuthenticationType⟩]

/-- Only the assertion of an identity has rules. -/
def IdentityRecord.rules (r : IdentityRecord) : List Rule :=
  r.assertion.elim [] AssertionRecord.rules

/-- The rules of the identities come last, in the order of the identities. -/
def SchemeRecord.rules (r : SchemeRecord) : List Rule :=
  ⟨r.scheme = "", .emptyAuthenticationType⟩ :: r.identities.flatMap IdentityRecord.rules

/-- Only the identity of a session has rules. -/
def SessionRecord.rules (r : SessionRecord) : List Rule :=
  r.identity.rules

/-- The same instant on a clock without an offset. -/
def Time.Stamp.inUtc (s : Stamp) : Stamp :=
  .utc s.instant

def AssertionRecord.inUtc (r : AssertionRecord) : AssertionRecord :=
  { r with validFrom := r.validFrom.map Stamp.inUtc, validUntil := r.validUntil.map Stamp.inUtc }

def TicketRecord.inUtc (r : TicketRecord) : TicketRecord :=
  { r with
    assertion := r.assertion.inUtc, issued := r.issued.map Stamp.inUtc, expires := r.expires.map Stamp.inUtc }

def IdentityRecord.inUtc (r : IdentityRecord) : IdentityRecord :=
  { r with assertion := r.assertion.map AssertionRecord.inUtc }

def PropertiesRecord.inUtc (r : PropertiesRecord) : PropertiesRecord :=
  { r with issued := r.issued.map Stamp.inUtc, expires := r.expires.map Stamp.inUtc }

def SchemeRecord.inUtc (r : SchemeRecord) : SchemeRecord :=
  { r with identities := r.identities.map IdentityRecord.inUtc, properties := r.properties.inUtc }

def SessionRecord.inUtc (r : SessionRecord) : SessionRecord :=
  ⟨r.identity.inUtc, r.properties.inUtc⟩

private theorem stampOf_instantOf (s : Option Stamp) : stampOf (instantOf s) = s.map Stamp.inUtc := by
  cases s <;> rfl

/-- The check of a window finds the one rule that it breaks, if it does. -/
private theorem windowFault?_checks (validFrom validUntil : Option Stamp) :
    (∃ fault, windowFault? (instantOf validFrom) (instantOf validUntil) = some fault ∧
      FirstBroken (windowRules validFrom validUntil) fault) ∨
    windowFault? (instantOf validFrom) (instantOf validUntil) = none ∧
      Kept (windowRules validFrom validUntil) := by
  cases validFrom with
  | none => exact .inr ⟨rfl, nofun⟩
  | some start =>
    cases validUntil with
    | none => exact .inr ⟨rfl, nofun⟩
    | some stop =>
      by_cases hle : start.instant ≤ stop.instant
      · refine .inr ⟨if_pos hle, ?_⟩
        intro rule hrule
        rw [List.mem_singleton.1 hrule]
        exact fun hlt => Instant.not_le.2 hlt hle
      · exact .inl ⟨_, if_neg hle, .head (Instant.not_le.1 hle)⟩

private theorem Assertion.ofRecord_checks (r : AssertionRecord) :
    Checks r.rules (fun a : Assertion => a.toRecord = r.inUtc) (ofRecord r) := by
  unfold ofRecord create
  by_cases hname : r.principalName = ""
  · rw [dif_pos hname]
    exact .error (.head hname)
  · rw [dif_neg hname]
    refine .cons hname ?_
    obtain ⟨fault, hfault, hbroken⟩ | ⟨hfault, hkept⟩ := windowFault?_checks r.validFrom r.validUntil
    · split
      · next hsome => exact .error (Option.some.inj (hfault.symm.trans hsome) ▸ hbroken)
      · next hnone => cases hfault.symm.trans hnone
    · split
      · next hsome => cases hfault.symm.trans hsome
      · refine .ok hkept ?_
        simp only [toRecord, stampOf_instantOf, AssertionRecord.inUtc]

/-- To make a ticket of a record checks the rules in their order, those of the assertion first. -/
private theorem ServiceTicket.ofRecord_checks (r : TicketRecord) :
    Checks r.rules (fun t : ServiceTicket => t.toRecord = r.inUtc) (ofRecord r) := by
  refine (Assertion.ofRecord_checks r.assertion).bind fun a ha => ?_
  unfold create
  by_cases hid : r.id = ""
  · rw [dif_pos hid]
    exact .error (.head hid)
  · rw [dif_neg hid]
    refine .cons hid ?_
    by_cases htype : r.authenticationType = ""
    · rw [dif_pos htype]
      exact .error (.head htype)
    · rw [dif_neg htype]
      refine .cons htype (.ok nofun ?_)
      simp only [toRecord, ha, stampOf_instantOf, TicketRecord.inUtc]

private theorem Identity.ofRecord_checks (r : IdentityRecord) :
    Checks r.rules (fun i : Identity => i.toRecord = r.inUtc) (ofRecord r) := by
  have hassertion : Checks r.rules
      (fun a : Option Assertion => a.map Assertion.toRecord = r.assertion.map AssertionRecord.inUtc)
      (r.assertion.mapM Assertion.ofRecord) := by
    rw [IdentityRecord.rules]
    cases r.assertion with
    | none => exact .ok nofun rfl
    | some a => exact (Assertion.ofRecord_checks a).map fun _ h => congrArg some h
  refine hassertion.map fun a ha => ?_
  simp only [toRecord, ha, List.map_map, IdentityRecord.inUtc]
  congr
  exact List.map_id _

/-- To make identities of records checks the rules of one after the other. -/
private theorem Identity.mapM_ofRecord_checks (records : List IdentityRecord) :
    Checks (records.flatMap IdentityRecord.rules)
      (fun identities : List Identity => identities.map toRecord = records.map IdentityRecord.inUtc)
      (records.mapM ofRecord) := by
  induction records with
  | nil => exact .ok nofun rfl
  | cons r rest ih =>
    rw [List.mapM_cons, List.flatMap_cons]
    refine (ofRecord_checks r).bind fun i hi => ih.map fun identities hidentities => ?_
    rw [List.map_cons, List.map_cons, hi, hidentities]

/-- Properties lose nothing of their record but the offsets of its times. -/
private theorem Properties.toRecord_ofRecord (r : PropertiesRecord) : (ofRecord r).toRecord = r.inUtc := by
  simp only [ofRecord, toRecord, stampOf_instantOf, PropertiesRecord.inUtc]

/-- To make a scheme session of a record checks its scheme first, and its identities next. -/
private theorem SchemeSession.ofRecord_checks (r : SchemeRecord) :
    Checks r.rules (fun s : SchemeSession => s.toRecord = r.inUtc) (ofRecord r) := by
  unfold ofRecord
  by_cases hscheme : r.scheme = ""
  · rw [if_pos hscheme]
    exact .error (.head hscheme)
  · rw [if_neg hscheme]
    refine .cons hscheme ((Identity.mapM_ofRecord_checks r.identities).map fun identities h => ?_)
    simp only [toRecord, h, Properties.toRecord_ofRecord, SchemeRecord.inUtc]

private theorem IdentitySession.ofRecord_checks (r : SessionRecord) :
    Checks r.rules (fun s : IdentitySession => s.toRecord = r.inUtc) (ofRecord r) := by
  refine (Identity.ofRecord_checks r.identity).map fun i hi => ?_
  simp only [toRecord, hi, Properties.toRecord_ofRecord, SessionRecord.inUtc]

namespace Portable

/-- The text of the document that is written for a record. -/
def written {α : Type} [Portable α] (r : Record α) : List UInt8 :=
  (format.write r).write

variable {α : Type} [Portable α] [LawfulPortable α]

/-- Bytes are the text of a document that stands for a record, with blanks between its tokens. -/
def SpellsRecord (r : Record α) (bs : List UInt8) : Prop :=
  ∃ j : Json, (LawfulPortable.spelling (α := α)).Allows r j ∧ Json.Spaced j.tokens bs

/-- The text of a record spells it. -/
theorem spellsRecord_written (r : Record α) : SpellsRecord r (written r) := by
  refine ⟨format.write r, LawfulPortable.spelling.allows_write r, ?_⟩
  rw [written, ← Json.flatten_tokens]
  exact Json.spaced_flatten _

/-- Whatever bytes spell a record, they are decoded to what the record makes. -/
theorem decode_of_spellsRecord {r : Record α} {bs : List UInt8} (h : SpellsRecord r bs) :
    decode bs = (ofRecord r).mapError .invalid := by
  obtain ⟨j, hj, hspaced⟩ := h
  have hrecord : record? bs = some r := by
    rw [record?, (LawfulPortable.spelling.wellFormed hj).ofBytes?_spaced hspaced, Option.bind_some]
    exact LawfulPortable.spelling.read?_eq hj
  rw [decode, hrecord]
  simp only
  cases ofRecord r <;> rfl

/-- The text of a record is decoded exactly if all rules are kept, and then to a value that has the fields of
the record and its times on a clock without an offset. Otherwise the first broken rule is reported. -/
structure RebuildsInOrder (α : Type) [Portable α] [LawfulPortable α] (rules : Record α → List Rule)
    (inUtc : Record α → Record α) : Prop where
  spelled : ∀ r : Record α, SpellsRecord r (written r)
  exists_ok_iff : ∀ (r : Record α) bs, SpellsRecord r bs →
    ((∃ v, decode (α := α) bs = .ok v) ↔ Kept (rules r))
  eq_invalid_iff : ∀ (r : Record α) bs, SpellsRecord r bs → ∀ fault,
    decode (α := α) bs = .error (.invalid fault) ↔ FirstBroken (rules r) fault
  kept_or_broken : ∀ r, Kept (rules r) ∨ ∃ fault, FirstBroken (rules r) fault
  toRecord_eq : ∀ (r : Record α) bs, SpellsRecord r bs → ∀ v : α, decode bs = .ok v → toRecord v = inUtc r

/-- It is enough that a record is checked in the order of its rules. -/
theorem rebuildsInOrder {rules : Record α → List Rule} {inUtc : Record α → Record α}
    (h : ∀ r : Record α, Checks (rules r) (fun v : α => toRecord v = inUtc r) (ofRecord r)) :
    RebuildsInOrder α rules inUtc := by
  have hok : ∀ {r : Record α} {bs} (v : α), SpellsRecord r bs → (decode bs = .ok v ↔ ofRecord r = .ok v) := by
    intro r bs v hbs
    rw [decode_of_spellsRecord hbs]
    cases ofRecord r <;> simp [Except.mapError]
  refine ⟨spellsRecord_written, ?_, ?_, ?_, ?_⟩
  · intro r bs hbs
    rw [← (h r).exists_ok_iff]
    exact exists_congr fun v => hok v hbs
  · intro r bs hbs fault
    rw [← (h r).eq_error_iff, decode_of_spellsRecord hbs]
    cases ofRecord r <;> simp [Except.mapError]
  · intro r
    have hchecks := h r
    generalize ofRecord r = result at hchecks
    cases hchecks with
    | ok hkept => exact .inl hkept
    | error hbroken => exact .inr ⟨_, hbroken⟩
  · intro r bs hbs v hv
    exact (h r).good ((hok v hbs).1 hv)

end Portable

open Portable

/-- Every portable type is rebuilt in the order of its rules, and properties have none. A remote store that
holds the text of a ticket's record answers with the ticket if it keeps its rules and has not expired, and
otherwise reports the first broken rule by the message for that. -/
theorem Portable.rebuilds_in_order :
    RebuildsInOrder Assertion AssertionRecord.rules AssertionRecord.inUtc ∧
    RebuildsInOrder ServiceTicket TicketRecord.rules TicketRecord.inUtc ∧
    RebuildsInOrder Properties (fun _ => []) PropertiesRecord.inUtc ∧
    RebuildsInOrder Identity IdentityRecord.rules IdentityRecord.inUtc ∧
    RebuildsInOrder SchemeSession SchemeRecord.rules SchemeRecord.inUtc ∧
    RebuildsInOrder IdentitySession SessionRecord.rules SessionRecord.inUtc ∧
    ∀ limit (c : PayloadCache) key p (r : TicketRecord) now, RemoteStore.Reaches limit c → key ≠ "" →
      c.payload? key = some p → SpellsRecord (α := ServiceTicket) r p.bytes → c.isExpired now p = false →
      (∀ fault, FirstBroken r.rules fault →
        (remoteStore limit).retrieve key now c = (.error (.corrupt (.invalid fault)), c) ∧
        (StoreError.corrupt (.invalid fault)).message = "Deserialization error: " ++ fault.message) ∧
      (Kept r.rules → ∃ t : ServiceTicket, t.toRecord = r.inUtc ∧
        (remoteStore limit).retrieve key now c = (.ok (if t.isExpiredAt now then none else some t), c)) := by
  have hticket : RebuildsInOrder ServiceTicket TicketRecord.rules TicketRecord.inUtc :=
    rebuildsInOrder ServiceTicket.ofRecord_checks
  refine ⟨rebuildsInOrder Assertion.ofRecord_checks, hticket,
    rebuildsInOrder fun r => .ok nofun (Properties.toRecord_ofRecord r),
    rebuildsInOrder Identity.ofRecord_checks, rebuildsInOrder SchemeSession.ofRecord_checks,
    rebuildsInOrder IdentitySession.ofRecord_checks, ?_⟩
  intro limit c key p r now hreaches hkey hheld hbs hlive
  have hretrieve : (remoteStore limit).retrieve key now c = (RemoteStore.ticketOf now p.bytes, c) := by
    have hget : RemoteStore.bounded limit (PayloadCache.get now key) c = _ := hreaches.bounded_call _
    rw [PayloadCache.payload?] at hheld
    simp only [remoteStore, withKey, if_neg hkey, hget, hheld, hlive, Bool.false_eq_true, if_false]
  rw [hretrieve, RemoteStore.ticketOf]
  refine ⟨fun fault hfault => ⟨?_, rfl⟩, fun hkept => ?_⟩
  · rw [(hticket.eq_invalid_iff r p.bytes hbs fault).2 hfault]
    rfl
  · obtain ⟨t, ht⟩ := (hticket.exists_ok_iff r p.bytes hbs).2 hkept
    exact ⟨t, hticket.toRecord_eq r p.bytes hbs t ht, by rw [ht]⟩

/-- A window that is reversed although the two clocks show it in order is reported before the missing id, and
one that is in order although they show it reversed is accepted. -/
theorem Portable.rebuilds_in_order_offsets :
    let early : Stamp := ⟨.onSecond 3600, ⟨120, by decide⟩, by decide⟩
    let late : Stamp := .utc (.onSecond 7200)
    let record (id : String) (start stop : Stamp) : TicketRecord :=
      ⟨id, "CAS", ⟨"user", .empty, some start, some stop⟩, [], none, none⟩
    let holding (r : TicketRecord) : PayloadCache :=
      (PayloadCache.empty true (.ofMillis 5)).plant "ST-1" (written (α := ServiceTicket) r)
    let reversed := record "" late early
    let ordered := record "ST-1" early late
    let fault := TicketError.invalidWindow late.instant.textWithDigits early.instant.textWithDigits
    (FirstBroken reversed.rules fault ∧
      (remoteStore none).retrieve "ST-1" (.onSecond 0) (holding reversed) =
        (.error (.corrupt (.invalid fault)), holding reversed)) ∧
    Kept ordered.rules ∧ ∃ t : ServiceTicket, t.toRecord = ordered.inUtc ∧
      (remoteStore none).retrieve "ST-1" (.onSecond 7199) (holding ordered) =
        (.ok (if t.isExpiredAt (.onSecond 7199) then none else some t), holding ordered) := by
  intro early late record holding reversed ordered fault
  obtain ⟨-, -, -, -, -, -, hremote⟩ := rebuilds_in_order
  have hreaches : ∀ r, RemoteStore.Reaches none (holding r) := fun r => ⟨rfl, nofun⟩
  have hreversed : FirstBroken reversed.rules fault := .tail (by decide) (.head (by decide))
  have hordered : Kept ordered.rules := by
    refine List.forall_mem_cons.2 ⟨by decide, List.forall_mem_cons.2 ⟨by decide, ?_⟩⟩
    exact List.forall_mem_cons.2 ⟨by decide, List.forall_mem_singleton.2 (by decide)⟩
  obtain ⟨hreported, -⟩ := hremote none (holding reversed) "ST-1" ⟨written (α := ServiceTicket) reversed, none⟩
    reversed (.onSecond 0) (hreaches reversed) (by decide) rfl (spellsRecord_written _) rfl
  obtain ⟨-, hserved⟩ := hremote none (holding ordered) "ST-1" ⟨written (α := ServiceTicket) ordered, none⟩
    ordered (.onSecond 7199) (hreaches ordered) (by decide) rfl (spellsRecord_written _) rfl
  exact ⟨⟨hreversed, (hreported fault hreversed).1⟩, hordered, hserved hordered⟩

end SessionTickets
