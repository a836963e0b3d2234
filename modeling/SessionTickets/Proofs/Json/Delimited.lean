import SessionTickets.Proofs.Json.Document

namespace SessionTickets.Json

/-- What is left of a word that has begun has no blanks. -/
def Phase.Worded : Phase → Prop
  | .word rest _ => rest.any isBlank = false
  | _ => True

namespace Reader

variable {r next : Reader} {stack : List Frame} {b : UInt8}

private theorem worded_openValue? (h : openValue? stack b = some next) : next.phase.Worded := by
  revert h
  fun_cases openValue? stack b with
  | case1 | case2 | case3 | case4 =>
    rintro ⟨⟩
    trivial
  | case5 | case6 | case7 =>
    rintro ⟨⟩
    rfl
  | case8 =>
    intro h
    obtain ⟨numeral, -, rfl⟩ := Option.map_eq_some_iff.1 h
    trivial

private theorem worded_openKey? {before : Members} (h : openKey? stack before b = some next) :
    next.phase.Worded := by
  unfold openKey? at h
  split at h
  · cases h
    trivial
  · split at h
    · cases h
      trivial
    · cases h

private theorem worded_afterValue? {value : Json} (h : afterValue? stack value b = some next) :
    next.phase.Worded := by
  revert h
  fun_cases afterValue? stack value b <;> rintro ⟨⟩ <;> trivial

/-- A byte of a word leaves less of it, and no other byte begins one with blanks. -/
private theorem worded_step? (hr : r.phase.Worded) (h : r.step? b = some next) : next.phase.Worded := by
  obtain ⟨stack, phase⟩ := r
  cases phase with
  | value => exact worded_openValue? h
  | firstItem =>
    simp only [step?] at h
    split at h
    · cases h
      trivial
    · split at h
      · split at h
        · cases h
          trivial
        · cases h
      · exact worded_openValue? h
  | firstKey =>
    simp only [step?] at h
    split at h
    · cases h
      trivial
    · split at h
      · cases h
        trivial
      · exact worded_openKey? h
  | key before => exact worded_openKey? h
  | keyText before escape token =>
    simp only [step?] at h
    split at h
    · cases h
      trivial
    · obtain ⟨e, -, rfl⟩ := Option.map_eq_some_iff.1 h
      trivial
  | colon before key =>
    simp only [step?] at h
    split at h
    · cases h
      trivial
    · split at h
      · cases h
        trivial
      · cases h
  | text escape token =>
    simp only [step?] at h
    split at h
    · cases h
      trivial
    · obtain ⟨e, -, rfl⟩ := Option.map_eq_some_iff.1 h
      trivial
  | number numeral token =>
    simp only [step?] at h
    split at h
    · cases h
      trivial
    · split at h
      · exact worded_afterValue? h
      · cases h
  | word rest value =>
    cases rest with
    | nil => cases h
    | cons c rest =>
      simp only [step?] at h
      split at h
      · cases h
        cases rest with
        | nil => trivial
        | cons d rest =>
          rw [Phase.Worded, List.any_cons, Bool.or_eq_false_iff] at hr
          exact hr.2
      · cases h
  | after value => exact worded_afterValue? h

/-- Whatever was read, what is left of a word has no blanks. -/
private theorem worded_run? {bs : List UInt8} (hr : r.phase.Worded) (h : r.run? bs = some next) :
    next.phase.Worded := by
  induction bs generalizing r with
  | nil =>
    cases h
    exact hr
  | cons b bs ih =>
    rw [run?_cons] at h
    obtain ⟨between, hstep, hrest⟩ := Option.bind_eq_some_iff.1 h
    exact ih (worded_step? hr hstep) hrest

/-- A number may end with a blank. -/
theorem step?_blank_number {numeral : Numeral} (hb : isBlank b) (stack : List Frame) (token : List UInt8) :
    step? ⟨stack, .number numeral token⟩ b =
      if numeral.complete then some ⟨stack, .after (.number token.reverse)⟩ else none := by
  simp only [step?, next?_end (.inl hb)]
  rw [afterValue?.eq_def, if_pos hb]

/-- A blank after a document does not count, and makes no document of what was none. -/
theorem result?_step?_blank (hr : r.phase.Worded) (hb : isBlank b) :
    (r.step? b).bind result? = r.result? := by
  obtain ⟨stack, phase⟩ := r
  cases phase with
  | value | firstItem | firstKey | key | colon | after =>
    rw [step?_blank hb, Option.bind_some]
    trivial
  | keyText before escape token =>
    have hquote : b ≠ byte '"' := by
      rintro rfl
      cases hb
    simp only [step?, hquote, and_false, if_false]
    cases stack <;> cases escape.next? b <;> rfl
  | text escape token =>
    have hquote : b ≠ byte '"' := by
      rintro rfl
      cases hb
    simp only [step?, hquote, and_false, if_false]
    cases stack <;> cases escape.next? b <;> rfl
  | number numeral token =>
    rw [step?_blank_number hb]
    cases stack <;> cases hcomplete : numeral.complete <;> simp [result?, hcomplete]
  | word rest value =>
    cases rest with
    | nil => cases stack <;> rfl
    | cons c rest =>
      -- A reader in the middle of a word would go on where the word had a blank.
      rw [Phase.Worded, List.any_cons, Bool.or_eq_false_iff] at hr
      have hne : b ≠ c := by
        rintro rfl
        cases hr.1.symm.trans hb
      simp only [step?, if_neg hne]
      cases stack <;> rfl

/-- Only numbers can go on. -/
theorem eq_after_of_result? {j : Json} (h : r.result? = some j) (hj : ∀ numeral, j ≠ .number numeral) :
    r = ⟨[], .after j⟩ := by
  revert h
  fun_cases result? r with
  | case1 value hstack hphase =>
    rintro ⟨⟩
    obtain ⟨stack, phase⟩ := r
    cases hstack
    cases hphase
    rfl
  | case2 numeral token hstack hphase hcomplete => rintro ⟨⟩; cases hj _ rfl
  | case3 => nofun
  | case4 => nofun

/-- After a document there may be nothing but blanks. -/
theorem run?_after (j : Json) {s : List UInt8} (h : run? ⟨[], .after j⟩ s = some r) :
    ∀ b ∈ s, isBlank b := by
  induction s with
  | nil => nofun
  | cons b s ih =>
    rw [run?_cons] at h
    obtain ⟨next, hstep, hrest⟩ := Option.bind_eq_some_iff.1 h
    simp only [step?, afterValue?] at hstep
    split at hstep
    · next hb =>
      cases hstep
      exact List.forall_mem_cons.2 ⟨hb, ih hrest⟩
    · cases hstep

end Reader

variable {p s : List UInt8} {j : Json}

private theorem ofBytes?_append (p s : List UInt8) :
    ofBytes? (p ++ s) = (Reader.start.run? p).bind fun r => (r.run? s).bind Reader.result? := by
  rw [ofBytes?, Reader.run?_append, Option.bind_assoc]

private theorem ofBytes?_append_blank (p : List UInt8) {b : UInt8} (hb : isBlank b) :
    ofBytes? (p ++ [b]) = ofBytes? p := by
  rw [ofBytes?_append, ofBytes?]
  cases hrun : Reader.start.run? p with
  | none => rfl
  | some r =>
    have hworded : r.phase.Worded := Reader.worded_run? (r := .start) trivial hrun
    have hlast : r.run? [b] = r.step? b := by
      rw [Reader.run?_cons]
      exact Option.bind_fun_some _
    rw [Option.bind_some, Option.bind_some, hlast, Reader.result?_step?_blank hworded hb]

/-- Blanks after a document do not count. -/
theorem ofBytes?_append_blanks (p : List UInt8) (hs : ∀ b ∈ s, isBlank b) :
    ofBytes? (p ++ s) = ofBytes? p := by
  induction s generalizing p with
  | nil => rw [List.append_nil]
  | cons b s ih =>
    obtain ⟨hb, hblanks⟩ := List.forall_mem_cons.1 hs
    rw [List.append_cons, ih _ hblanks, ofBytes?_append_blank p hb]

/-- Where a text and its beginning are both texts of documents, and that of the beginning is no number, the
rest is blank. So a text of such a document cannot be continued to the text of another one. -/
theorem blanks_of_ofBytes?_append {k : Json} (hp : ofBytes? p = some j) (hj : ∀ numeral, j ≠ .number numeral)
    (hps : ofBytes? (p ++ s) = some k) : ∀ b ∈ s, isBlank b := by
  obtain ⟨r, hrun, hresult⟩ := Option.bind_eq_some_iff.1 hp
  cases Reader.eq_after_of_result? hresult hj
  rw [ofBytes?_append, hrun, Option.bind_some] at hps
  obtain ⟨last, hlast, -⟩ := Option.bind_eq_some_iff.1 hps
  exact Reader.run?_after j hlast

end SessionTickets.Json
