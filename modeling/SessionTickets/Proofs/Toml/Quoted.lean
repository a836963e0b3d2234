import SessionTickets.Toml.Quoted

namespace SessionTickets.Toml.Quoted

@[simp] private theorem Reading.cons_some (c : Char) (text rest : List Char) :
    Reading.cons c (some (text, rest)) = some (c :: text, rest) :=
  rfl

private theorem hexValue?_hexDigit {n : Nat} (h : n < 16) : hexValue? (hexDigit n) = some n := by
  have hall : ∀ n : Fin 16, hexValue? (hexDigit n.val) = some n.val := by decide
  exact hall ⟨n, h⟩

private theorem scalar?_hexDigits {c : Char} (h : c.toNat < 256) :
    scalar? ['0', '0', hexDigit (c.toNat / 16), hexDigit (c.toNat % 16)] = some c := by
  have hzero : hexValue? '0' = some 0 := rfl
  have hhigh : hexValue? (hexDigit (c.toNat / 16)) = some (c.toNat / 16) := hexValue?_hexDigit (by omega)
  have hlow : hexValue? (hexDigit (c.toNat % 16)) = some (c.toNat % 16) := hexValue?_hexDigit (by omega)
  have hvalue : 16 * (c.toNat / 16) + c.toNat % 16 = c.toNat := by omega
  have hvalid : c.toNat.isValidChar := c.valid
  simp [scalar?, hzero, hhigh, hlow, hvalue, hvalid]

/-- A character is escaped by a letter or by its code point. -/
theorem escaped_cases {c : Char} (h : c.toNat < 256) :
    (∃ letter, escaped c = ['\\', letter] ∧ named? letter = some c) ∨
      ∃ a b, escaped c = ['\\', 'u', '0', '0', a, b] ∧ scalar? ['0', '0', a, b] = some c := by
  unfold escaped
  split
  case h_8 => exact .inr ⟨_, _, rfl, scalar?_hexDigits h⟩
  all_goals exact .inl ⟨_, rfl, rfl⟩

private theorem basic?_escaped {c : Char} (h : c.toNat < 256) (rest : List Char) :
    basic? (escaped c ++ rest) = (basic? rest).cons c := by
  obtain ⟨letter, hescaped, hnamed⟩ | ⟨a, b, hescaped, hscalar⟩ := escaped_cases h
  · rw [hescaped]
    unfold named? at hnamed
    split at hnamed <;> cases hnamed <;> rfl
  · rw [hescaped]
    change (scalar? _).bind _ = _
    rw [hscalar]
    rfl

private theorem longBasic?_escaped {c : Char} (h : c.toNat < 256) (rest : List Char) :
    longBasic? false (escaped c ++ rest) = (longBasic? false rest).cons c := by
  obtain ⟨letter, hescaped, hnamed⟩ | ⟨a, b, hescaped, hscalar⟩ := escaped_cases h
  · rw [hescaped]
    unfold named? at hnamed
    split at hnamed <;> cases hnamed <;> rfl
  · rw [hescaped]
    change (scalar? _).bind _ = _
    rw [hscalar]
    rfl

private theorem isPlain_of_le {c : Char} (h : 256 ≤ c.toNat) : isPlain c := by
  have hspace : ' ' ≤ c := by
    rw [Char.le_def, UInt32.le_iff_toNat_le]
    change 32 ≤ c.toNat
    omega
  have hdelete : c ≠ '\x7f' := by
    rintro rfl
    exact absurd h (by decide)
  simp [isPlain, hspace, hdelete]

private theorem toNat_lt_of_needsEscape {c : Char} (h : needsEscape c) : c.toNat < 256 := by
  refine Nat.lt_of_not_le fun hle => ?_
  simp [needsEscape, isPlain_of_le hle] at h

/-- A plain character of a basic text stands for itself, unless it is a backslash or the closing quote. -/
private theorem basic?_plain {c : Char} (h : isPlain c) (hslash : c ≠ '\\') (hquote : c ≠ '"') (rest : List Char) :
    basic? (c :: rest) = (basic? rest).cons c := by
  rw [basic?.eq_def]
  simp [h, hslash]

private theorem literal?_plain {c : Char} (h : isPlain c) (hquote : c ≠ '\'') (rest : List Char) :
    literal? (c :: rest) = (literal? rest).cons c := by
  rw [literal?.eq_def]
  simp [h]

private theorem ne_return {c : Char} (h : c = '\n' ∨ isPlain c) : c ≠ '\r' := by
  rintro rfl
  exact absurd h (by decide)

/-- A text that begins with two quotes. -/
def Doubled (quote : Char) (text : List Char) : Prop :=
  ∃ rest, text = quote :: quote :: rest

/-- A quote in a long basic text stands for itself, unless two more follow it. -/
private theorem longBasic?_plain {c : Char} (h : c = '\n' ∨ isPlain c) (hslash : c ≠ '\\') {rest : List Char}
    (hquote : c = '"' → ¬ Doubled '"' rest) : longBasic? false (c :: rest) = (longBasic? false rest).cons c := by
  have hreturn := ne_return h
  rw [longBasic?.eq_def]
  split
  case h_2 more hmore =>
    obtain ⟨rfl, hrest⟩ := List.cons.inj hmore
    exact absurd ⟨more, hrest⟩ (hquote rfl)
  case h_7 heq =>
    cases heq
    have hstands : c = '\n' ∨ isPlain c ∧ c ≠ '\\' := h.imp id fun hplain => ⟨hplain, hslash⟩
    rw [if_neg (by simp), if_pos hstands]
  all_goals simp_all

private theorem longLiteral?_plain {c : Char} (h : c = '\n' ∨ isPlain c) {rest : List Char}
    (hquote : c = '\'' → ¬ Doubled '\'' rest) : longLiteral? (c :: rest) = (longLiteral? rest).cons c := by
  have hreturn := ne_return h
  rw [longLiteral?.eq_def]
  split
  case h_2 more hmore =>
    obtain ⟨rfl, hrest⟩ := List.cons.inj hmore
    exact absurd ⟨more, hrest⟩ (hquote rfl)
  case h_4 heq =>
    cases heq
    exact if_pos h
  all_goals simp_all

private theorem escaped_eq_cons {c : Char} (h : c.toNat < 256) : ∃ rest, escaped c = '\\' :: rest := by
  obtain ⟨letter, hescaped, -⟩ | ⟨a, b, hescaped, -⟩ := escaped_cases h
  · exact ⟨_, hescaped⟩
  · exact ⟨_, hescaped⟩

/-- How one character is written, unless it is a quote that stands as it is. -/
inductive Piece (long : Bool) (c : Char) : List Char → Prop
  | escaped (h : c.toNat < 256) : Piece long c (escaped c)
  | plain (h : c = '\n' ∧ long ∨ isPlain c) (hquote : c ≠ '"') (hslash : c ≠ '\\') : Piece long c [c]

/-- A character is written as one piece, unless it is a quote that stands as it is. -/
private theorem writeBasic_cons (long : Bool) {free run : Nat} {c : Char} (h : c = '"' → free ≤ run)
    (text : List Char) :
    ∃ piece, Piece long c piece ∧ writeBasic long free run (c :: text) = piece ++ writeBasic long free 0 text := by
  by_cases hquote : c = '"'
  · subst hquote
    refine ⟨escaped '"', .escaped (by decide), ?_⟩
    rw [writeBasic, if_neg (Nat.not_lt.2 (h rfl))]
  · by_cases hline : c = '\n'
    · subst hline
      refine ⟨_, ?_, rfl⟩
      cases long with
      | false => exact .escaped (by decide)
      | true => exact .plain (.inl ⟨rfl, rfl⟩) (by decide) (by decide)
    · have hwrite : writeBasic long free run (c :: text) =
          (if needsEscape c ∨ c = '\t' ∨ c = '\\' then escaped c else [c]) ++ writeBasic long free 0 text := by
        rw [writeBasic]
        · exact hquote
        · exact hline
      refine ⟨_, ?_, hwrite⟩
      by_cases hescape : needsEscape c ∨ c = '\t' ∨ c = '\\'
      · rw [if_pos hescape]
        obtain hescape | rfl | rfl := hescape
        · exact .escaped (toNat_lt_of_needsEscape hescape)
        · exact .escaped (by decide)
        · exact .escaped (by decide)
      · rw [if_neg hescape]
        simp only [not_or, needsEscape] at hescape
        refine .plain (.inr ?_) hquote hescape.2.2
        simpa [hline] using hescape.1

/-- What is written for a character does not begin with a quote, unless it is one. -/
theorem Piece.eq_cons {long : Bool} {c : Char} {piece : List Char} (h : Piece long c piece) :
    ∃ d rest, piece = d :: rest ∧ d ≠ '"' ∧ (d = '\\' ∨ d = c ∧ (c = '\n' ∨ isPlain c)) := by
  cases h with
  | escaped hlt =>
    obtain ⟨rest, hescaped⟩ := escaped_eq_cons hlt
    exact ⟨_, rest, hescaped, by decide, .inl rfl⟩
  | plain hplain hquote _ => exact ⟨c, [], rfl, hquote, .inr ⟨rfl, hplain.imp And.left id⟩⟩

/-- A basic text is read back, one character after the other. -/
private theorem basic?_writeBasic (text rest : List Char) :
    basic? (writeBasic false 0 0 text ++ '"' :: rest) = some (text, rest) := by
  induction text with
  | nil => rfl
  | cons c text ih =>
    obtain ⟨piece, hpiece, hwrite⟩ := writeBasic_cons false (c := c) (fun _ => Nat.zero_le 0) text
    rw [hwrite, List.append_assoc]
    cases hpiece with
    | escaped hlt => rw [basic?_escaped hlt, ih, Reading.cons_some]
    | plain h hquote hslash =>
      have hplain : isPlain c := h.resolve_left (by simp)
      rw [List.singleton_append, basic?_plain hplain hslash hquote, ih, Reading.cons_some]

/-- Quotes in front of the closing ones belong to the text. -/
theorem closing_replicate {quote : Char} {k : Nat} (hk : k ≤ 2) {rest : List Char}
    (hrest : rest.head? ≠ some quote) :
    closing quote (List.replicate k quote ++ rest) = (List.replicate k quote, rest) := by
  have hnone : rest.takeWhile (· = quote) = [] := by
    cases rest with
    | nil => rfl
    | cons c rest => exact List.takeWhile_cons_of_neg (by simpa using hrest)
  have hquotes : (List.replicate k quote ++ rest).takeWhile (· = quote) = List.replicate k quote := by
    rw [List.takeWhile_append_of_pos (by simp), hnone, List.append_nil]
  rw [closing, hquotes, List.length_replicate, Nat.min_eq_right hk, List.drop_left' (List.length_replicate ..)]

/-- Behind a quote there are two more only at the end of the text. -/
theorem eq_of_doubled_writeBasic {run : Nat} (hrun : 0 < run) {text rest : List Char}
    (h : Doubled '"' (writeBasic true 2 run text ++ '"' :: '"' :: '"' :: rest)) :
    text = [] ∨ text = ['"'] ∧ run < 2 := by
  obtain ⟨more, h⟩ := h
  cases text with
  | nil => exact .inl rfl
  | cons c text =>
    by_cases hraw : c = '"' ∧ run < 2
    · obtain ⟨rfl, hlt⟩ := hraw
      rw [writeBasic, if_pos hlt] at h
      cases text with
      | nil => exact .inr ⟨rfl, hlt⟩
      | cons c' text =>
        -- Two quotes stand there already, so that a third one is escaped.
        obtain ⟨piece, hpiece, hwrite⟩ := writeBasic_cons true (c := c') (fun _ => (by omega : 2 ≤ run + 1)) text
        obtain ⟨d, tail, rfl, hd, -⟩ := hpiece.eq_cons
        rw [hwrite] at h
        exact absurd (List.cons.inj (List.cons.inj h).2).1 hd
    · have hfree : c = '"' → 2 ≤ run := fun hquote => Nat.le_of_not_lt fun hlt => hraw ⟨hquote, hlt⟩
      obtain ⟨piece, hpiece, hwrite⟩ := writeBasic_cons true hfree text
      obtain ⟨d, tail, rfl, hd, -⟩ := hpiece.eq_cons
      rw [hwrite] at h
      exact absurd (List.cons.inj h).1 hd

/-- A long basic text is read back. Three quotes in a row end it, and up to two more before them belong to it;
the writer never leaves three in a row inside, so a quote with two more behind it stands at the end. -/
private theorem longBasic?_writeBasic {rest : List Char} (hrest : rest.head? ≠ some '"')
    (text : List Char) (run : Nat) :
    longBasic? false (writeBasic true 2 run text ++ '"' :: '"' :: '"' :: rest) = some (text, rest) := by
  induction text generalizing run with
  | nil => exact congrArg some (closing_replicate (Nat.zero_le 2) hrest)
  | cons c text ih =>
    by_cases hraw : c = '"' ∧ run < 2
    · obtain ⟨rfl, hlt⟩ := hraw
      have hwrite : writeBasic true 2 run ('"' :: text) = '"' :: writeBasic true 2 (run + 1) text := by
        rw [writeBasic, if_pos hlt]
      rw [hwrite]
      by_cases hdoubled : Doubled '"' (writeBasic true 2 (run + 1) text ++ '"' :: '"' :: '"' :: rest)
      · obtain rfl | ⟨rfl, hlt⟩ := eq_of_doubled_writeBasic (Nat.succ_pos run) hdoubled
        · exact congrArg some (closing_replicate (by decide : 1 ≤ 2) hrest)
        · rw [writeBasic, if_pos hlt]
          exact congrArg some (closing_replicate (Nat.le_refl 2) hrest)
      · rw [List.cons_append, longBasic?_plain (.inr (by decide)) (by decide) fun _ => hdoubled, ih,
          Reading.cons_some]
    · have hfree : c = '"' → 2 ≤ run := fun hquote => Nat.le_of_not_lt fun hlt => hraw ⟨hquote, hlt⟩
      obtain ⟨piece, hpiece, hwrite⟩ := writeBasic_cons true hfree text
      rw [hwrite, List.append_assoc]
      cases hpiece with
      | escaped hlt => rw [longBasic?_escaped hlt, ih, Reading.cons_some]
      | plain h hquote hslash =>
        rw [List.singleton_append, longBasic?_plain (h.imp And.left id) hslash fun heq => absurd heq hquote, ih,
          Reading.cons_some]

private theorem literal?_append {text : List Char} (h : ∀ c ∈ text, isPlain c ∧ c ≠ '\'') (rest : List Char) :
    literal? (text ++ '\'' :: rest) = some (text, rest) := by
  induction text with
  | nil => rfl
  | cons c text ih =>
    obtain ⟨⟨hplain, hquote⟩, htext⟩ := List.forall_mem_cons.1 h
    rw [List.cons_append, literal?_plain hplain hquote, ih htext, Reading.cons_some]

/-- One more character is looked at: the longest run so far, and the run that ends here. -/
def countRun (c : Char) (state : Nat × Nat) (d : Char) : Nat × Nat :=
  let run := if d = c then state.2 + 1 else 0
  (max state.1 run, run)

private theorem longestRun_eq (c : Char) (text : List Char) :
    longestRun c text = (text.foldl (countRun c) (0, 0)).1 :=
  rfl

private theorem le_foldl_countRun (c : Char) (state : Nat × Nat) (text : List Char) :
    state.1 ≤ (text.foldl (countRun c) state).1 := by
  induction text generalizing state with
  | nil => exact Nat.le_refl _
  | cons d text ih => exact Nat.le_trans (Nat.le_max_left _ _) (ih (countRun c state d))

private theorem add_le_foldl_countRun (c : Char) (state : Nat × Nat) (k : Nat) :
    state.2 + (k + 1) ≤ ((List.replicate (k + 1) c).foldl (countRun c) state).1 := by
  have hstep : countRun c state c = (max state.1 (state.2 + 1), state.2 + 1) := by simp [countRun]
  induction k generalizing state with
  | zero =>
    rw [List.replicate_one, List.foldl_cons, List.foldl_nil, hstep]
    exact Nat.le_max_right _ _
  | succ k ih =>
    rw [List.replicate_succ, List.foldl_cons, hstep]
    have hrest := ih (max state.1 (state.2 + 1), state.2 + 1) (by simp [countRun])
    omega

/-- No run is longer than the longest. -/
theorem le_longestRun (c : Char) (k : Nat) (before after : List Char) :
    k ≤ longestRun c (before ++ List.replicate k c ++ after) := by
  rw [longestRun_eq, List.foldl_append, List.foldl_append]
  refine Nat.le_trans ?_ (le_foldl_countRun c _ after)
  cases k with
  | zero => exact Nat.zero_le _
  | succ k =>
    have hrun := add_le_foldl_countRun c (before.foldl (countRun c) (0, 0)) k
    omega

/-- Behind a quote there are two more only at the end of the text, or in a run of three. -/
theorem eq_of_doubled_append {quote : Char} {text rest : List Char}
    (h : Doubled quote (text ++ quote :: quote :: quote :: rest)) :
    text = [] ∨ text = [quote] ∨ Doubled quote text := by
  obtain ⟨more, h⟩ := h
  match text, h with
  | [], _ => exact .inl rfl
  | [_], h => exact .inr (.inl (congrArg (fun c => [c]) (List.cons.inj h).1))
  | _ :: _ :: text, h =>
    obtain ⟨hfirst, hmore⟩ := List.cons.inj h
    obtain ⟨hsecond, -⟩ := List.cons.inj hmore
    exact .inr (.inr ⟨text, by rw [hfirst, hsecond]⟩)

/-- A long literal text is read back, if it never has three quotes in a row. -/
private theorem longLiteral?_append {text rest : List Char} (h : ∀ c ∈ text, c = '\n' ∨ isPlain c)
    (hruns : ∀ before after, text ≠ before ++ List.replicate 3 '\'' ++ after) (hrest : rest.head? ≠ some '\'') :
    longLiteral? (text ++ '\'' :: '\'' :: '\'' :: rest) = some (text, rest) := by
  induction text with
  | nil => exact congrArg some (closing_replicate (Nat.zero_le 2) hrest)
  | cons c text ih =>
    obtain ⟨hc, htext⟩ := List.forall_mem_cons.1 h
    by_cases hdoubled : c = '\'' ∧ Doubled '\'' (text ++ '\'' :: '\'' :: '\'' :: rest)
    · obtain ⟨rfl, hdoubled⟩ := hdoubled
      obtain rfl | rfl | ⟨text, rfl⟩ := eq_of_doubled_append hdoubled
      · exact congrArg some (closing_replicate (by decide : 1 ≤ 2) hrest)
      · exact congrArg some (closing_replicate (Nat.le_refl 2) hrest)
      · exact absurd rfl (hruns [] text)
    · have hquote : c = '\'' → ¬ Doubled '\'' (text ++ '\'' :: '\'' :: '\'' :: rest) :=
        fun hquote hmore => hdoubled ⟨hquote, hmore⟩
      have htail : ∀ before after, text ≠ before ++ List.replicate 3 '\'' ++ after :=
        fun before after heq => hruns (c :: before) after (congrArg (c :: ·) heq)
      rw [List.cons_append, longLiteral?_plain hc hquote, ih htext htail, Reading.cons_some]

private theorem stands_of_not_needsEscape {c : Char} (h : needsEscape c = false) : c = '\n' ∨ isPlain c := by
  by_cases hline : c = '\n'
  · exact .inl hline
  · simp only [needsEscape] at h
    exact .inr (by simpa [hline] using h)

/-- What the choice of a form says of the text. Only literal texts depend on it. -/
theorem formOf_cases (text : List Char) :
    formOf text = .basic ∨ formOf text = .longBasic ∨
      formOf text = .literal ∧ (∀ c ∈ text, needsEscape c = false) ∧ longestRun '\'' text = 0 ∧ '\n' ∉ text ∨
      formOf text = .longLiteral ∧ (∀ c ∈ text, needsEscape c = false) ∧ longestRun '\'' text ≤ 2 := by
  simp only [formOf]
  split
  · exact .inl rfl
  · split
    · next hliteral =>
      simp at hliteral
      exact .inr (.inr (.inl ⟨rfl, hliteral.1.1, hliteral.1.2, hliteral.2⟩))
    · split
      · exact .inr (.inl rfl)
      · split
        · next hliteral =>
          simp at hliteral
          exact .inr (.inr (.inr ⟨rfl, hliteral.1, hliteral.2⟩))
        · split
          · exact .inr (.inl rfl)
          · exact .inl rfl

private theorem skipNewline_eq {body : List Char} (h : ∀ c ∈ body.head?, c ≠ '\n' ∧ c ≠ '\r') :
    skipNewline body = body := by
  unfold skipNewline newline?
  split
  · exact absurd rfl (h _ rfl).1
  · exact absurd rfl (h _ rfl).2
  · rfl

/-- The line end at the start of a long text is not a part of it. -/
theorem skipNewline_start {text body : List Char}
    (h : '\n' ∉ text → ∀ c ∈ body.head?, c ≠ '\n' ∧ c ≠ '\r') :
    skipNewline ((if text.contains '\n' then ['\n'] else []) ++ body) = body := by
  by_cases hline : '\n' ∈ text
  · rw [if_pos (List.contains_iff_mem.2 hline)]
    rfl
  · rw [if_neg (fun hcontains => hline (List.contains_iff_mem.1 hcontains)), List.nil_append, skipNewline_eq (h hline)]

private theorem read?_basic {body : List Char} (h : ¬ Doubled '"' body) : read? ('"' :: body) = basic? body := by
  unfold read?
  split
  · next heq => exact absurd ⟨_, (List.cons.inj heq).2⟩ h
  all_goals simp_all

private theorem read?_literal {body : List Char} (h : ¬ Doubled '\'' body) :
    read? ('\'' :: body) = literal? body := by
  unfold read?
  split
  · simp_all
  · simp_all
  · next heq => exact absurd ⟨_, (List.cons.inj heq).2⟩ h
  all_goals simp_all

section

variable {text rest : List Char}

private theorem read?_writeAs_basic (hrest : rest.head? ≠ some '"') :
    read? (writeAs .basic text ++ rest) = some (text, rest) := by
  have hdoubled : ¬ Doubled '"' (writeBasic false 0 0 text ++ '"' :: rest) := by
    rintro ⟨more, hmore⟩
    cases text with
    | nil =>
      obtain ⟨-, rfl⟩ := List.cons.inj hmore
      exact hrest rfl
    | cons c text =>
      obtain ⟨piece, hpiece, hwrite⟩ := writeBasic_cons false (c := c) (fun _ => Nat.zero_le 0) text
      obtain ⟨d, tail, rfl, hd, -⟩ := hpiece.eq_cons
      rw [hwrite] at hmore
      exact hd (List.cons.inj hmore).1
  rw [writeAs, List.cons_append, List.cons_append, List.append_assoc, List.singleton_append, read?_basic hdoubled,
    basic?_writeBasic]

private theorem read?_writeAs_literal (htext : ∀ c ∈ text, isPlain c ∧ c ≠ '\'')
    (hrest : rest.head? ≠ some '\'') :
    read? (writeAs .literal text ++ rest) = some (text, rest) := by
  have hdoubled : ¬ Doubled '\'' (text ++ '\'' :: rest) := by
    rintro ⟨more, hmore⟩
    cases text with
    | nil =>
      obtain ⟨-, rfl⟩ := List.cons.inj hmore
      exact hrest rfl
    | cons c text => exact (htext c (.head _)).2 (List.cons.inj hmore).1
  rw [writeAs, List.cons_append, List.cons_append, List.append_assoc, List.singleton_append, read?_literal hdoubled,
    literal?_append htext]

private theorem read?_writeAs_longBasic (hrest : rest.head? ≠ some '"') :
    read? (writeAs .longBasic text ++ rest) = some (text, rest) := by
  have hbody : '\n' ∉ text → ∀ c ∈ (writeBasic true 2 0 text ++ '"' :: '"' :: '"' :: rest).head?,
      c ≠ '\n' ∧ c ≠ '\r' := by
    intro hline
    cases text with
    | nil =>
      rintro _ ⟨⟩
      decide
    | cons c text =>
      by_cases hquote : c = '"'
      · subst hquote
        rintro _ ⟨⟩
        decide
      · have hfree : c = '"' → 2 ≤ 0 := fun heq => absurd heq hquote
        obtain ⟨piece, hpiece, hwrite⟩ := writeBasic_cons true hfree text
        obtain ⟨d, tail, rfl, -, hd⟩ := hpiece.eq_cons
        rw [hwrite]
        rintro _ ⟨⟩
        obtain rfl | ⟨rfl, hplain⟩ := hd
        · decide
        · exact ⟨fun heq => hline (heq ▸ .head _), ne_return hplain⟩
  have hread : read? (writeAs .longBasic text ++ rest) =
      longBasic? false (skipNewline ((if text.contains '\n' then ['\n'] else []) ++
        (writeBasic true 2 0 text ++ '"' :: '"' :: '"' :: rest))) := by
    simp [writeAs, read?]
  rw [hread, skipNewline_start hbody, longBasic?_writeBasic hrest]

private theorem read?_writeAs_longLiteral (htext : ∀ c ∈ text, c = '\n' ∨ isPlain c)
    (hrun : longestRun '\'' text ≤ 2) (hrest : rest.head? ≠ some '\'') :
    read? (writeAs .longLiteral text ++ rest) = some (text, rest) := by
  have hruns : ∀ before after, text ≠ before ++ List.replicate 3 '\'' ++ after := by
    rintro before after rfl
    have hle := le_longestRun '\'' 3 before after
    omega
  have hbody : '\n' ∉ text → ∀ c ∈ (text ++ '\'' :: '\'' :: '\'' :: rest).head?, c ≠ '\n' ∧ c ≠ '\r' := by
    intro hline
    cases text with
    | nil =>
      rintro _ ⟨⟩
      decide
    | cons c text =>
      rintro _ ⟨⟩
      exact ⟨fun heq => hline (heq ▸ .head _), ne_return (htext c (.head _))⟩
  have hread : read? (writeAs .longLiteral text ++ rest) =
      longLiteral? (skipNewline ((if text.contains '\n' then ['\n'] else []) ++
        (text ++ '\'' :: '\'' :: '\'' :: rest))) := by
    simp [writeAs, read?]
  rw [hread, skipNewline_start hbody, longLiteral?_append htext hruns hrest]

end

/-- Every form begins with a quote. -/
theorem write_eq_cons (text : List Char) : ∃ c rest, write text = c :: rest ∧ (c = '"' ∨ c = '\'') := by
  rw [write]
  cases formOf text with
  | basic => exact ⟨_, _, rfl, .inl rfl⟩
  | literal => exact ⟨_, _, rfl, .inr rfl⟩
  | longBasic => exact ⟨_, _, rfl, .inl rfl⟩
  | longLiteral => exact ⟨_, _, rfl, .inr rfl⟩

/-- A text is read back from what is written for it, unless a quote stands behind. -/
theorem read?_write (text : List Char) {rest : List Char} (hrest : ∀ c ∈ rest.head?, c ≠ '"' ∧ c ≠ '\'') :
    read? (write text ++ rest) = some (text, rest) := by
  have hdouble : rest.head? ≠ some '"' := fun heq => (hrest _ heq).1 rfl
  have hsingle : rest.head? ≠ some '\'' := fun heq => (hrest _ heq).2 rfl
  rw [write]
  obtain hform | hform | ⟨hform, hstands, hrun, hlines⟩ | ⟨hform, hstands, hrun⟩ := formOf_cases text
  · rw [hform, read?_writeAs_basic hdouble]
  · rw [hform, read?_writeAs_longBasic hdouble]
  · have htext : ∀ c ∈ text, isPlain c ∧ c ≠ '\'' := by
      intro c hc
      refine ⟨(stands_of_not_needsEscape (hstands c hc)).resolve_left fun heq => hlines (heq ▸ hc), ?_⟩
      rintro rfl
      obtain ⟨before, after, rfl⟩ := List.append_of_mem hc
      have hle := le_longestRun '\'' 1 before after
      simp only [List.replicate_one, List.append_assoc, List.singleton_append] at hle
      omega
    rw [hform, read?_writeAs_literal htext hsingle]
  · rw [hform, read?_writeAs_longLiteral (fun c hc => stands_of_not_needsEscape (hstands c hc)) hrun hsingle]

end SessionTickets.Toml.Quoted
