import SessionTickets.Proofs.Json.Tokens

namespace SessionTickets.Json

/-- Between two tokens a blank changes nothing. -/
def Phase.Idle : Phase → Prop
  | .value | .firstItem | .firstKey | .key _ | .colon _ _ | .after _ => True
  | .keyText _ _ _ | .text _ _ | .number _ _ | .word _ _ => False

namespace Reader

/-- The first byte is read first. -/
theorem run?_cons (r : Reader) (b : UInt8) (rest : List UInt8) :
    r.run? (b :: rest) = (r.step? b).bind fun r => r.run? rest := by
  rw [run?]
  cases r.step? b <;> rfl

/-- Bytes may be read in two parts. -/
theorem run?_append (r : Reader) (s t : List UInt8) :
    r.run? (s ++ t) = (r.run? s).bind fun r => r.run? t := by
  induction s generalizing r with
  | nil => rfl
  | cons b s ih =>
    rw [List.cons_append, run?_cons, run?_cons]
    cases r.step? b with
    | none => rfl
    | some next => exact ih next

/-- A reader that has read a value. The value may be a number that could still go on. -/
inductive Holds (stack : List Frame) : Json → Reader → Prop
  | after (value : Json) : Holds stack value ⟨stack, .after value⟩
  | number {numeral : Numeral} {token : List UInt8} (h : numeral.complete) :
    Holds stack (.number token.reverse) ⟨stack, .number numeral token⟩

private theorem Holds.result? {value : Json} {r : Reader} (h : Holds [] value r) :
    r.result? = some value := by
  cases h with
  | after => rfl
  | number h => simp [Reader.result?, h]

/-- A blank between two tokens is passed over. -/
theorem step?_blank {r : Reader} {b : UInt8} (hb : isBlank b) (hr : r.phase.Idle) :
    r.step? b = some r := by
  obtain ⟨stack, phase⟩ := r
  cases phase with
  | value => simp only [step?, openValue?, if_pos hb]
  | firstItem => simp only [step?, if_pos hb]
  | firstKey => simp only [step?, if_pos hb]
  | key before => simp only [step?, openKey?, if_pos hb]
  | colon before key => simp only [step?, if_pos hb]
  | after value =>
    simp only [step?]
    rw [afterValue?.eq_def, if_pos hb]
  | keyText | text | number | word => cases hr

/-- Between two tokens the next one is read whatever blanks are before it. -/
theorem run?_token {r : Reader} (hr : r.phase.Idle) {t : List UInt8} {ts : List (List UInt8)}
    {bs : List UInt8} (h : Spaced (t :: ts) bs) :
    ∃ rest, r.run? bs = (r.run? t).bind (·.run? rest) ∧ Spaced ts rest := by
  generalize hall : t :: ts = all at h
  induction h with
  | nil => cases hall
  | blank hb h ih =>
    obtain ⟨rest, hrun, hrest⟩ := ih hall
    refine ⟨rest, ?_, hrest⟩
    rw [run?_cons, step?_blank hb hr, Option.bind_some, hrun]
  | token t h =>
    cases hall
    exact ⟨_, run?_append _ _ _, h⟩

/-- What is read is the same in two states in which blanks change nothing, if the first other byte
leads to the same state. -/
theorem run?_congr {r r' : Reader} {b : UInt8} (hstep : r.step? b = r'.step? b) {t : List UInt8}
    {ts : List (List UInt8)} {bs : List UInt8} (h : Spaced ((b :: t) :: ts) bs) (hr : r.phase.Idle)
    (hr' : r'.phase.Idle) : r.run? bs = r'.run? bs := by
  generalize hall : (b :: t) :: ts = all at h
  induction h with
  | nil => cases hall
  | blank hb h ih =>
    rw [run?_cons, run?_cons, step?_blank hb hr, step?_blank hb hr', Option.bind_some, Option.bind_some,
      ih hall]
  | token t h =>
    cases hall
    rw [List.cons_append, run?_cons, run?_cons, hstep]

/-- A blank or a mark that may follow a value ends a number. -/
theorem next?_end {b : UInt8} (h : isBlank b ∨ b = byte ',' ∨ b = byte ']' ∨ b = byte '}') (n : Numeral) :
    n.next? b = none := by
  simp only [isBlank, Bool.or_eq_true, decide_eq_true_eq] at h
  obtain (((rfl | rfl) | rfl) | rfl) | rfl | rfl | rfl := h <;> cases n <;> decide

/-- A number is read as far as it goes, and then it is a value like others. -/
private theorem Holds.step? {stack : List Frame} {value : Json} {r : Reader} (h : Holds stack value r)
    {b : UInt8} (hb : isBlank b ∨ b = byte ',' ∨ b = byte ']' ∨ b = byte '}') :
    r.step? b = afterValue? stack value b := by
  cases h with
  | after => rfl
  | number h => simp [Reader.step?, next?_end hb, h]

/-- What follows a value is read whatever blanks are before it, also if the value is a number. -/
theorem Holds.run?_token {stack : List Frame} {value : Json} {r : Reader} (h : Holds stack value r)
    {b : UInt8} (hb : b = byte ',' ∨ b = byte ']' ∨ b = byte '}') {ts : List (List UInt8)}
    {bs : List UInt8} (hbs : Spaced ([b] :: ts) bs) :
    ∃ rest, r.run? bs = (afterValue? stack value b).bind (·.run? rest) ∧ Spaced ts rest := by
  cases hbs with
  | token t hrest =>
    refine ⟨_, ?_, hrest⟩
    rw [List.singleton_append, run?_cons, h.step? (.inr hb)]
  | @blank c _ bs hc hbs =>
    have hafter : r.step? c = some ⟨stack, .after value⟩ := by
      rw [h.step? (.inl hc), afterValue?.eq_def, if_pos hc]
    obtain ⟨rest, hrun, hrest⟩ := Reader.run?_token (r := ⟨stack, .after value⟩) trivial hbs
    refine ⟨rest, ?_, hrest⟩
    rw [run?_cons, hafter, Option.bind_some, hrun, run?_cons]
    exact congrArg (Option.bind · _) (Option.bind_fun_some _)

/-- Blanks may follow a document. -/
theorem Holds.run?_blanks {value : Json} {r : Reader} (h : Holds [] value r) {bs : List UInt8}
    (hbs : Spaced [] bs) : (r.run? bs).bind Reader.result? = some value := by
  generalize hall : ([] : List (List UInt8)) = all at hbs
  induction hbs generalizing r with
  | nil => exact h.result?
  | blank hc hbs ih =>
    rw [run?_cons, h.step? (.inl hc), afterValue?.eq_def, if_pos hc, Option.bind_some]
    exact ih (.after value) hall
  | token t hbs => cases hall

/-- Keys and texts are read alike. Here `during` is the phase inside the quotes and `done` the one
after them. -/
theorem run?_quoted {stack : List Frame} (during : Escape → List UInt8 → Phase)
    (done : List UInt8 → Phase)
    (hstep : ∀ e before b, step? ⟨stack, during e before⟩ b =
      if e = .none ∧ b = byte '"' then some ⟨stack, done before.reverse⟩
      else (e.next? b).map fun e => ⟨stack, during e (b :: before)⟩)
    {e : Escape} {token : List UInt8} (h : e.run? token = some .none) (before : List UInt8) :
    run? ⟨stack, during e before⟩ (token ++ [byte '"']) =
      some ⟨stack, done (before.reverse ++ token)⟩ := by
  induction token generalizing e before with
  | nil =>
    cases h
    simp [run?_cons, hstep, run?]
  | cons b token ih =>
    rw [Escape.run?] at h
    split at h
    · cases h
    · next hquote =>
      obtain ⟨next, hnext, hrest⟩ := Option.bind_eq_some_iff.1 h
      rw [List.cons_append, run?_cons, hstep, if_neg hquote, hnext]
      simpa using ih hrest (b :: before)

private theorem run?_text {token : List UInt8} (h : IsToken token) (stack : List Frame) :
    run? ⟨stack, .text .none []⟩ (token ++ [byte '"']) = some ⟨stack, .after (.text token)⟩ :=
  run?_quoted .text (fun token => .after (.text token)) (fun _ _ _ => rfl) h []

private theorem run?_keyText {token : List UInt8} (h : IsToken token) (stack : List Frame)
    (before : Members) :
    run? ⟨stack, .keyText before .none []⟩ (token ++ [byte '"']) =
      some ⟨stack, .colon before token⟩ :=
  run?_quoted (.keyText before) (.colon before) (fun _ _ _ => rfl) h []

private theorem run?_number {n last : Numeral} {token : List UInt8} (h : n.run? token = some last)
    (stack : List Frame) (before : List UInt8) :
    run? ⟨stack, .number n before⟩ token = some ⟨stack, .number last (token.reverse ++ before)⟩ := by
  induction token generalizing n before with
  | nil =>
    cases h
    rfl
  | cons b token ih =>
    obtain ⟨next, hnext, hrest⟩ := Option.bind_eq_some_iff.1 h
    rw [run?_cons, Reader.step?]
    simp only [hnext, Option.bind_some]
    simpa using ih hrest (b :: before)

end Reader

/-- A number begins with a byte that begins nothing else. -/
theorem Numeral.first?_distinct {b : UInt8} {n : Numeral} (h : Numeral.first? b = some n) :
    isBlank b = false ∧ ∀ c ∈ ['"', '[', '{', 'n', 't', 'f', ']'], b ≠ byte c := by
  have hall : ∀ b : UInt8, !(Numeral.first? b).isSome ||
      !isBlank b && ['"', '[', '{', 'n', 't', 'f', ']'].all (b != byte ·) :=
    forall_byte (by decide +kernel)
  have hb := hall b
  simp only [h, Option.isSome_some, Bool.not_true, Bool.false_or, Bool.and_eq_true,
    Bool.not_eq_true', List.all_eq_true, bne_iff_ne] at hb
  exact hb

/-- Reading the tokens of a document gives the document, whatever is open around it. -/
def ReadsSpaced (j : Json) : Prop :=
  ∀ stack ts bs, Spaced (tokens j ++ ts) bs →
    ∃ (r : Reader) (rest : List UInt8), (⟨stack, .value⟩ : Reader).run? bs = r.run? rest ∧
      r.Holds stack j ∧ Spaced ts rest

/-- It is enough that a document of one token is read from that. -/
theorem readsSpaced_of_token {j : Json} {t : List UInt8} (htokens : tokens j = [t])
    (h : ∀ stack, ∃ r, (⟨stack, .value⟩ : Reader).run? t = some r ∧ r.Holds stack j) : ReadsSpaced j := by
  intro stack ts bs hbs
  rw [htokens] at hbs
  obtain ⟨rest, hrun, hrest⟩ := Reader.run?_token (r := ⟨stack, .value⟩) trivial hbs
  obtain ⟨r, hr, hholds⟩ := h stack
  refine ⟨r, rest, ?_, hholds, hrest⟩
  rw [hrun, hr, Option.bind_some]

/-- The first byte of the first token of a document ends no array. -/
theorem WellFormed.tokens_eq_cons {j : Json} (h : WellFormed j) :
    ∃ b t ts, tokens j = (b :: t) :: ts ∧ isBlank b = false ∧ b ≠ byte ']' := by
  cases h with
  | null => exact ⟨_, _, _, rfl, by decide, by decide⟩
  | bool value => cases value <;> exact ⟨_, _, _, rfl, by decide, by decide⟩
  | @number numeral h =>
    cases numeral with
    | nil => cases h
    | cons b rest =>
      obtain ⟨first, _, hfirst, _⟩ := h
      obtain ⟨hblank, hother⟩ := Numeral.first?_distinct hfirst
      exact ⟨b, rest, [], rfl, hblank, hother ']' (by simp)⟩
  | text h => exact ⟨_, _, _, rfl, by decide, by decide⟩
  | array h => exact ⟨_, _, _, rfl, by decide, by decide⟩
  | object hkeys hvalues => exact ⟨_, _, _, rfl, by decide, by decide⟩

namespace Reader

private theorem run?_numeral {numeral : List UInt8} (h : IsNumeral numeral) (stack : List Frame) :
    ∃ r, run? ⟨stack, .value⟩ numeral = some r ∧ Holds stack (.number numeral) r := by
  cases numeral with
  | nil => cases h
  | cons b rest =>
    obtain ⟨first, last, hfirst, hrest, hlast⟩ := h
    obtain ⟨hblank, hother⟩ := Numeral.first?_distinct hfirst
    have hopen : openValue? stack b = some ⟨stack, .number first [b]⟩ := by
      simp only [List.mem_cons, forall_eq_or_imp] at hother
      simp [openValue?, hblank, hother, hfirst]
    have hholds : Holds stack (.number (rest.reverse ++ [b]).reverse)
        ⟨stack, .number last (rest.reverse ++ [b])⟩ := .number hlast
    rw [List.reverse_append, List.reverse_reverse] at hholds
    exact ⟨_, by rw [run?_cons, step?, hopen, Option.bind_some, run?_number hrest], hholds⟩

/-- The items that are left of an array, up to the bracket that ends it. -/
theorem run?_items {items : List Json} (hitems : ∀ item ∈ items, ReadsSpaced item) (hne : items ≠ [])
    (stack : List Frame) (before : List Json) {ts : List (List UInt8)} {bs : List UInt8}
    (hbs : Spaced (itemTokens items ++ [byte ']'] :: ts) bs) :
    ∃ rest, run? ⟨.array before :: stack, .value⟩ bs =
      run? ⟨stack, .after (.array (before.reverse ++ items))⟩ rest ∧ Spaced ts rest := by
  induction items generalizing before bs with
  | nil => cases hne rfl
  | cons item others ih =>
    cases others with
    | nil =>
      obtain ⟨r, more, hrun, hholds, hmore⟩ := hitems item (.head _) (.array before :: stack) _ bs hbs
      obtain ⟨rest, hend, hrest⟩ := hholds.run?_token (by simp) hmore
      have hclose : afterValue? (.array before :: stack) item (byte ']') =
          some ⟨stack, .after (.array (item :: before).reverse)⟩ := rfl
      refine ⟨rest, ?_, hrest⟩
      rw [hrun, hend, hclose, Option.bind_some, List.reverse_cons]
    | cons next others =>
      rw [itemTokens, List.append_assoc] at hbs
      obtain ⟨r, more, hrun, hholds, hmore⟩ := hitems item (.head _) (.array before :: stack) _ bs hbs
      obtain ⟨rest, hcomma, hrest⟩ := hholds.run?_token (by simp) hmore
      have hopen : afterValue? (.array before :: stack) item (byte ',') =
          some ⟨.array (item :: before) :: stack, .value⟩ := rfl
      obtain ⟨last, hothers, hlast⟩ :=
        ih (fun item h => hitems item (.tail _ h)) (by simp) (item :: before) hrest
      refine ⟨last, ?_, hlast⟩
      rw [hrun, hcomma, hopen, Option.bind_some, hothers, List.reverse_cons, List.append_assoc,
        List.singleton_append]

/-- A key, the colon and a value. -/
theorem run?_member {key : List UInt8} {value : Json} (hkey : IsToken key) (hvalue : ReadsSpaced value)
    (stack : List Frame) (before : Members) {ts : List (List UInt8)} {bs : List UInt8}
    (hbs : Spaced (quote key :: [byte ':'] :: tokens value ++ ts) bs) :
    ∃ (r : Reader) (rest : List UInt8), run? ⟨stack, .key before⟩ bs = r.run? rest ∧
      r.Holds (.object before key :: stack) value ∧ Spaced ts rest := by
  obtain ⟨more, hquoted, hmore⟩ := run?_token (r := ⟨stack, .key before⟩) trivial hbs
  obtain ⟨text, hcolon, htext⟩ := run?_token (r := ⟨stack, .colon before key⟩) trivial hmore
  obtain ⟨r, rest, hrun, hholds, hrest⟩ := hvalue (.object before key :: stack) ts text htext
  have hopen : step? ⟨stack, .key before⟩ (byte '"') = some ⟨stack, .keyText before .none []⟩ := rfl
  have hcolonstep : run? ⟨stack, .colon before key⟩ [byte ':'] =
      some ⟨.object before key :: stack, .value⟩ := rfl
  refine ⟨r, rest, ?_, hholds, hrest⟩
  rw [hquoted, quote, List.cons_append, run?_cons, hopen, Option.bind_some, run?_keyText hkey,
    Option.bind_some, hcolon, hcolonstep, Option.bind_some, hrun]

/-- The members that are left of an object, up to the brace that ends it. -/
theorem run?_members {members : Members} (hkeys : ∀ m ∈ members, IsToken m.1)
    (hvalues : ∀ m ∈ members, ReadsSpaced m.2) (hne : members ≠ []) (stack : List Frame)
    (before : Members) {ts : List (List UInt8)} {bs : List UInt8}
    (hbs : Spaced (memberTokens members ++ [byte '}'] :: ts) bs) :
    ∃ rest, run? ⟨stack, .key before⟩ bs =
      run? ⟨stack, .after (.object (before.reverse ++ members))⟩ rest ∧ Spaced ts rest := by
  induction members generalizing before bs with
  | nil => cases hne rfl
  | cons member others ih =>
    obtain ⟨key, value⟩ := member
    have hkey : IsToken key := hkeys _ (.head _)
    have hvalue : ReadsSpaced value := hvalues _ (.head _)
    cases others with
    | nil =>
      obtain ⟨r, more, hrun, hholds, hmore⟩ := run?_member hkey hvalue stack before hbs
      obtain ⟨rest, hend, hrest⟩ := hholds.run?_token (by simp) hmore
      have hclose : afterValue? (.object before key :: stack) value (byte '}') =
          some ⟨stack, .after (.object ((key, value) :: before).reverse)⟩ := rfl
      refine ⟨rest, ?_, hrest⟩
      rw [hrun, hend, hclose, Option.bind_some, List.reverse_cons]
    | cons next others =>
      rw [memberTokens, List.append_assoc] at hbs
      obtain ⟨r, more, hrun, hholds, hmore⟩ := run?_member hkey hvalue stack before hbs
      obtain ⟨rest, hcomma, hrest⟩ := hholds.run?_token (by simp) hmore
      have hopen : afterValue? (.object before key :: stack) value (byte ',') =
          some ⟨stack, .key ((key, value) :: before)⟩ := rfl
      obtain ⟨last, hothers, hlast⟩ := ih (fun m h => hkeys m (.tail _ h))
        (fun m h => hvalues m (.tail _ h)) (by simp) ((key, value) :: before) hrest
      refine ⟨last, ?_, hlast⟩
      rw [hrun, hcomma, hopen, Option.bind_some, hothers, List.reverse_cons, List.append_assoc,
        List.singleton_append]

end Reader

/-- Every well-formed document is read from its tokens. The induction is on the document, and the stack
of what is open around it varies. -/
theorem WellFormed.readsSpaced {j : Json} (h : WellFormed j) : ReadsSpaced j := by
  induction h with
  | null => exact readsSpaced_of_token rfl fun stack => ⟨_, rfl, .after _⟩
  | bool value => exact readsSpaced_of_token rfl fun stack => by cases value <;> exact ⟨_, rfl, .after _⟩
  | number h => exact readsSpaced_of_token rfl (Reader.run?_numeral h)
  | @text token h =>
    refine readsSpaced_of_token rfl fun stack => ⟨⟨stack, .after (.text token)⟩, ?_, .after _⟩
    have hopen : Reader.step? ⟨stack, .value⟩ (byte '"') = some ⟨stack, .text .none []⟩ := rfl
    rw [quote, List.cons_append, Reader.run?_cons, hopen, Option.bind_some, Reader.run?_text h]
  | @array items h ih =>
    intro stack ts bs hbs
    rw [tokens, List.append_assoc, List.singleton_append] at hbs
    obtain ⟨more, hopen, hmore⟩ := Reader.run?_token (r := ⟨stack, .value⟩) trivial hbs
    have hfirst : Reader.run? ⟨stack, .value⟩ [byte '['] = some ⟨.array [] :: stack, .firstItem⟩ := rfl
    rw [hopen, hfirst, Option.bind_some]
    cases items with
    | nil =>
      obtain ⟨rest, hclose, hrest⟩ := Reader.run?_token (r := ⟨.array [] :: stack, .firstItem⟩) trivial hmore
      exact ⟨_, rest, hclose, .after _, hrest⟩
    | cons item others =>
      -- Where an array may end, an item is read as anywhere else.
      obtain ⟨b, t, us, htokens, hblank, hbracket⟩ := (h item (.head _)).tokens_eq_cons
      obtain ⟨us, hitems⟩ : ∃ us, itemTokens (item :: others) = (b :: t) :: us := by
        cases others <;> simp [itemTokens, htokens]
      have hstep : Reader.step? ⟨.array [] :: stack, .firstItem⟩ b =
          Reader.step? ⟨.array [] :: stack, .value⟩ b := by
        simp [Reader.step?, hblank, hbracket]
      obtain ⟨rest, hrun, hrest⟩ := Reader.run?_items ih (by simp) stack [] hmore
      rw [hitems] at hmore
      rw [Reader.run?_congr hstep hmore trivial trivial, hrun]
      exact ⟨_, rest, rfl, .after _, hrest⟩
  | @object members hkeys hvalues ih =>
    intro stack ts bs hbs
    rw [tokens, List.append_assoc, List.singleton_append] at hbs
    obtain ⟨more, hopen, hmore⟩ := Reader.run?_token (r := ⟨stack, .value⟩) trivial hbs
    have hfirst : Reader.run? ⟨stack, .value⟩ [byte '{'] = some ⟨stack, .firstKey⟩ := rfl
    rw [hopen, hfirst, Option.bind_some]
    cases members with
    | nil =>
      obtain ⟨rest, hclose, hrest⟩ := Reader.run?_token (r := ⟨stack, .firstKey⟩) trivial hmore
      exact ⟨_, rest, hclose, .after _, hrest⟩
    | cons member others =>
      -- Where an object may end, a key is read as anywhere else.
      obtain ⟨t, us, hmembers⟩ : ∃ t us, memberTokens (member :: others) = (byte '"' :: t) :: us := by
        cases others <;> exact ⟨_, _, rfl⟩
      have hstep : Reader.step? ⟨stack, .firstKey⟩ (byte '"') = Reader.step? ⟨stack, .key []⟩ (byte '"') := rfl
      obtain ⟨rest, hrun, hrest⟩ := Reader.run?_members hkeys ih (by simp) stack [] hmore
      rw [hmembers] at hmore
      rw [Reader.run?_congr hstep hmore trivial trivial, hrun]
      exact ⟨_, rest, rfl, .after _, hrest⟩

/-- A document is read from each text of its tokens with blanks in between. -/
theorem WellFormed.ofBytes?_spaced {j : Json} (h : WellFormed j) {bs : List UInt8}
    (hbs : Spaced (tokens j) bs) : ofBytes? bs = some j := by
  rw [← List.append_nil (tokens j)] at hbs
  obtain ⟨r, rest, hrun, hholds, hrest⟩ := h.readsSpaced [] [] bs hbs
  rw [ofBytes?, Reader.start, hrun]
  exact hholds.run?_blanks hrest

/-- Reading undoes writing. -/
theorem WellFormed.ofBytes?_write {j : Json} (h : WellFormed j) : ofBytes? j.write = some j := by
  rw [← flatten_tokens]
  exact h.ofBytes?_spaced (spaced_flatten _)

end SessionTickets.Json
