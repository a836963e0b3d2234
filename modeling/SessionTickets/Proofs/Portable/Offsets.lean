import SessionTickets.Proofs.Portable.LaidOut
import SessionTickets.Proofs.Store.Calls

namespace SessionTickets

open Time Json Layout

/-- What some clock shows is replaced by what is written for the same instant. -/
inductive InUtc : Layout → Json → Json → Prop
  | intro {t : Instant} {o : Offset} {text : String} {token : List UInt8}
    (hrange : Instant.InRange (t.seconds + 60 * o.minutes))
    (hshows : Stamp.Shows (t.seconds + 60 * o.minutes) t.nanos o text.toList)
    (htoken : Quoted.read? token = some text) : InUtc .time (.text token) (ofStamp (.utc t))

/-- What some clock shows although there is no such instant. -/
inductive OutOfRange : Json → Prop
  | intro {seconds : Int} {nanos : Nat} {o : Offset} {text : String} {token : List UInt8}
    (hnanos : nanos < 2 * Instant.nanosPerSecond) (hleap : Instant.nanosPerSecond ≤ nanos → seconds % 60 = 59)
    (hlocal : Instant.InRange seconds) (hrange : ¬ Instant.InRange (seconds - 60 * o.minutes))
    (hshows : Stamp.Shows seconds nanos o text.toList) (htoken : Quoted.read? token = some text) :
    OutOfRange (.text token)

/-- What a clock shows says the same as what is written for its instant. -/
private theorem InUtc.read?_eq {l : Layout} {p p' : Json} (h : InUtc l p p') :
    p ≠ .null ∧ p' ≠ .null ∧ l.read? p = l.read? p' := by
  cases h with
  | @intro t o text token hrange hshows htoken =>
    have hstamp : stamp? (.text token) = some ⟨t, o, hrange⟩ := by
      rw [stamp?, string?, htoken, Option.bind_some, Stamp.ofText?_of_shows_instant hshows hrange]
    refine ⟨by simp, Spelling.stamp.ne_null rfl, ?_⟩
    rw [read?, read?, hstamp, Spelling.stamp?_ofStamp]
    rfl

/-- What is no instant says nothing. -/
private theorem OutOfRange.read?_eq_none {p : Json} (h : OutOfRange p) :
    p ≠ .null ∧ Layout.time.read? p = none := by
  cases h with
  | @intro seconds nanos o text token hnanos hleap hlocal hrange hshows htoken =>
    have hnone : Instant.ofParts? (seconds - 60 * o.minutes) nanos = none := dif_neg fun h => hrange h.1
    have hstamp : stamp? (.text token) = none := by
      rw [stamp?, string?, htoken, Option.bind_some, Stamp.ofText?_of_shows hshows hnanos hleap, Stamp.ofLocal?, hnone]
    exact ⟨by simp, congrArg _ hstamp⟩

namespace Portable

/-- Times are read as instants, whatever clock they were written by. What a value is decoded to again is
given. -/
structure ReadsInstants (α : Type) [Portable α] [LaidOut α] (decoded : α → Except CodecError α) : Prop where
  decode_eq : ∀ bs bs' j j', Json.ofBytes? bs = some j → Json.ofBytes? bs' = some j' →
    Rewrites InUtc (LaidOut.layout α) j j' → decode (α := α) bs = decode bs'
  decode_eq_decoded : ∀ bs j (v : α), Json.ofBytes? bs = some j →
    Rewrites InUtc (LaidOut.layout α) j (toJson v) → decode bs = decoded v
  unreadable : ∀ bs around p, Json.ofBytes? bs = some (around p) → Place (LaidOut.layout α) around .time →
    OutOfRange p → Unreadable α bs

/-- Times are read as instants by every portable type, since of a time its layout reads the instant alone. -/
private theorem readsInstants {α : Type} [Portable α] [LawfulPortable α] [LaidOut α]
    {decoded : α → Except CodecError α} (hdecoded : ∀ v : α, decode (encode v) = decoded v) :
    ReadsInstants α decoded := by
  have heq : ∀ bs bs' j j', Json.ofBytes? bs = some j → Json.ofBytes? bs' = some j' →
      Rewrites InUtc (LaidOut.layout α) j j' → decode (α := α) bs = decode bs' := by
    intro bs bs' j j' hj hj' h
    exact decode_eq_of_read?_eq hj hj' (h.read?_eq InUtc.read?_eq)
  refine ⟨heq, ?_, ?_⟩
  · intro bs j v hj h
    exact (heq bs (encode v) j (toJson v) hj (ofBytes?_encode v) h).trans (hdecoded v)
  · intro bs around p hj hplace hout
    obtain ⟨hp, hread⟩ := hout.read?_eq_none
    exact unreadable_of_read?_eq_none hj (hplace.read?_eq_none hp hread)

end Portable

open Portable

/-- The times of every portable type are read as instants, and whether a ticket has expired that a remote store
holds depends on its instants alone, whatever clocks they were written by. -/
theorem Portable.reads_instants :
    ReadsInstants Assertion .ok ∧ ReadsInstants ServiceTicket .ok ∧ ReadsInstants Properties .ok ∧
    ReadsInstants Identity (fun i => .ok i.bare) ∧ ReadsInstants IdentitySession (fun s => .ok s.bare) ∧
    (ReadsInstants SchemeSession fun s =>
      if s.scheme = "" then .error (.invalid .emptyAuthenticationType) else .ok s.bare) ∧
    ∀ limit (c : PayloadCache) key p j (t : ServiceTicket) now, RemoteStore.Reaches limit c → key ≠ "" →
      c.payload? key = some p → c.isExpired now p = false → Json.ofBytes? p.bytes = some j →
      Rewrites InUtc TicketRecord.layout j (toJson t) →
      ((remoteStore limit).retrieve key now c).1 = .ok (if t.isExpiredAt now then none else some t) := by
  have hticket : ReadsInstants ServiceTicket .ok := readsInstants ServiceTicket.decode_encode
  refine ⟨readsInstants Assertion.decode_encode, hticket, readsInstants Properties.decode_encode,
    readsInstants Identity.decode_encode, readsInstants IdentitySession.decode_encode,
    readsInstants SchemeSession.decode_encode, ?_⟩
  intro limit c key p j t now hreaches hkey hheld hlive hj h
  rw [PayloadCache.payload?] at hheld
  simp only [RemoteStore.retrieve_eq hreaches hkey, hheld, hlive, Bool.false_eq_true, if_false,
    RemoteStore.ticketOf, hticket.decode_eq_decoded p.bytes j t hj h]

/-- A ticket lasts until the middle of a leap second, shown by a clock that is ahead, in another year, with more
zeros than are needed. It is served when that second starts, but not any more at its middle. The last second of
the last year is no instant on a clock that is behind. -/
theorem Portable.reads_instants_leap_second :
    let field (name : String) (j : Json) : List UInt8 × Json := (Quoted.write name, j)
    let payload (j : Json) : Json := .object [
      field "ticket_id" (ofString "ST-1"), field "authentication_type" (ofString "CAS"),
      field "assertion" (.object [
        field "principal_name" (ofString "user"), field "attributes" (.object []), field "valid_until" j]),
      field "claims" (.array [])]
    let start : Instant := ⟨1483228799, 1000000000, by decide, by decide, by decide⟩
    let middle : Instant := ⟨1483228799, 1500000000, by decide, by decide, by decide⟩
    let ticket := ServiceTicket.lasting middle "ST-1"
    let foreign := payload (ofString "2017-01-01T05:29:60.500000000000+05:30")
    let c := (PayloadCache.empty true (.ofMillis 5)).plant "ST-1" foreign.write
    decode foreign.write = .ok ticket ∧
    ((remoteStore none).retrieve "ST-1" start c).1 = .ok (some ticket) ∧
    ((remoteStore none).retrieve "ST-1" middle c).1 = .ok none ∧
    Unreadable ServiceTicket (payload (ofString "+262142-12-31T23:59:59-00:01")).write := by
  intro field payload start middle ticket foreign c
  let ahead : Offset := ⟨330, by decide⟩
  let behind : Offset := ⟨-1, by decide⟩
  obtain ⟨-, hticket, -, -, -, -, hremote⟩ := reads_instants
  have hname : ∀ name, Quoted.read? (Quoted.write name) = some name := Quoted.read?_write
  have hassertion : Place AssertionRecord.layout (fun j => .object [
      field "principal_name" (ofString "user"), field "attributes" (.object []), field "valid_until" j]) .time :=
    .field [field "principal_name" (ofString "user"), field "attributes" (.object [])] [] rfl
      (hname "valid_until") (.here _)
  have hplace : Place TicketRecord.layout payload .time :=
    .field [field "ticket_id" (ofString "ST-1"), field "authentication_type" (ofString "CAS")]
      [field "claims" (.array [])] rfl (hname "assertion") hassertion
  have hahead : InUtc .time (ofString "2017-01-01T05:29:60.500000000000+05:30") (ofStamp (.utc middle)) := by
    have hfraction : Stamp.Fraction (middle.nanos % Instant.nanosPerSecond) ".500000000000".toList :=
      .digits (by decide) (List.all_eq_true.1 rfl) (by decide)
    have hzone : Stamp.Names ahead "+05:30".toList := @Stamp.Names.ahead _ 5 30 (by decide) (by decide) rfl
    have htext : "2017-01-01T05:29:60.500000000000+05:30".toList =
        Stamp.secondText (middle.seconds + 60 * ahead.minutes) middle.nanos ++ ".500000000000".toList ++
          "+05:30".toList := by decide
    exact .intro (o := ahead) (by decide) (htext ▸ .intro hfraction hzone) (hname _)
  have hbehind : OutOfRange (ofString "+262142-12-31T23:59:59-00:01") := by
    have hzone : Stamp.Names behind "-00:01".toList := @Stamp.Names.behind _ 0 1 (by decide) (by decide) rfl
    have htext : "+262142-12-31T23:59:59-00:01".toList =
        Stamp.secondText Instant.lastSecond 0 ++ [] ++ "-00:01".toList := by decide +kernel
    have hshows : Stamp.Shows Instant.lastSecond 0 behind "+262142-12-31T23:59:59-00:01".toList :=
      htext ▸ .intro (.whole rfl) hzone
    exact .intro (by decide) (by decide) (by decide) (by decide) hshows (hname _)
  have hforeign : Json.ofBytes? foreign.write = some foreign := by rfl
  have hutc : Rewrites InUtc TicketRecord.layout foreign (toJson ticket) := .step hplace hahead (.refl _)
  have hserved : ∀ now, ((remoteStore none).retrieve "ST-1" now c).1 =
      .ok (if ticket.isExpiredAt now then none else some ticket) := fun now =>
    hremote none c "ST-1" ⟨foreign.write, none⟩ foreign ticket now ⟨rfl, nofun⟩ (by decide) rfl rfl
      hforeign hutc
  refine ⟨hticket.decode_eq_decoded _ foreign ticket hforeign hutc, hserved start, hserved middle, ?_⟩
  exact hticket.unreadable _ _ _ (by rfl) hplace hbehind

end SessionTickets
