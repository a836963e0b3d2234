import Mathlib.Data.List.Forall2
import SessionTickets.Proofs.Toml.Number
import SessionTickets.Proofs.Toml.Quoted
import SessionTickets.Toml.Reader

namespace SessionTickets.Toml

open Text

/-- A text is read as an item wherever it stands at the end of a line. -/
def IsValue (value : List Char) (item : Item) : Prop :=
  ∀ rest, item? depthLimit (skipBlanks (value ++ '\n' :: rest)) = some (item, '\n' :: rest)

private theorem skipBlanks_of_not_isBlank {c : Char} (h : isBlank c = false) (text : List Char) :
    skipBlanks (c :: text) = c :: text := by
  rw [skipBlanks, List.dropWhile_cons, h, if_neg Bool.false_ne_true]

private theorem item?_quote {quote : Char} (h : quote = '"' ∨ quote = '\'') (text : List Char) :
    item? depthLimit (skipBlanks (quote :: text)) =
      (Quoted.read? (quote :: text)).map fun (value, rest) => (.text (String.ofList value), rest) := by
  obtain rfl | rfl := h <;> rfl

/-- A value that begins with a digit is a number or a moment. -/
private theorem item?_digit {d : Char} (h : d.isDigit) (text : List Char) :
    item? depthLimit (skipBlanks (d :: text)) = Number.read? (d :: text) := by
  have hne : ∀ c : Char, c.isDigit = false → d ≠ c := by
    rintro c hc rfl
    exact absurd h (by rw [hc]; decide)
  have hblank : isBlank d = false := by
    simp [isBlank, hne ' ' (by decide), hne '\t' (by decide)]
  have hscalar : scalar? (d :: text) = Number.read? (d :: text) := by
    unfold scalar?
    split
    · next heq => exact absurd (List.cons.inj heq).1 (hne 't' (by decide))
    · next heq => exact absurd (List.cons.inj heq).1 (hne 'f' (by decide))
    · next heq => exact absurd (List.cons.inj heq).1 (hne '"' (by decide))
    · next heq => exact absurd (List.cons.inj heq).1 (hne '\'' (by decide))
    · rfl
  rw [skipBlanks_of_not_isBlank hblank, item?, hscalar]
  · exact fun _ _ _ heq => hne '[' (by decide) (List.cons.inj heq).1
  · exact fun _ _ _ heq => hne '{' (by decide) (List.cons.inj heq).1

/-- A text is read back from what is written for it. -/
theorem isValue_quoted (text : List Char) : IsValue (Quoted.write text) (.text (String.ofList text)) := by
  intro rest
  have hread : Quoted.read? (Quoted.write text ++ '\n' :: rest) = some (text, '\n' :: rest) :=
    Quoted.read?_write text (by simp)
  obtain ⟨quote, more, hwrite, hquote⟩ := Quoted.write_eq_cons text
  rw [hwrite, List.cons_append] at hread ⊢
  rw [item?_quote hquote, hread]
  rfl

/-- A number is read back from its digits, if it is not too large. -/
theorem isValue_digits {n : Nat} (h : n ≤ Number.largest) : IsValue (Decimal.digits n) (.integer n) := by
  intro rest
  have hread := Number.read?_digits h rest
  obtain ⟨d, ds, hds, hd⟩ := Decimal.exists_digits_eq n
  rw [hds, List.cons_append] at hread ⊢
  rw [item?_digit hd, hread]

/-- A truth value is read back from its word. -/
theorem isValue_boolean (b : Bool) : IsValue (if b then "true".toList else "false".toList) (.boolean b) := by
  intro rest
  cases b <;> rfl

/-- A key that needs no quotes. -/
def IsBareKey (key : List Char) : Prop :=
  key ≠ [] ∧ ∀ c ∈ key, isBare c

instance (key : List Char) : Decidable (IsBareKey key) :=
  decidable_of_iff (key ≠ [] ∧ key.all isBare) (by rw [List.all_eq_true]; rfl)

private theorem ne_of_isBare {c d : Char} (hc : isBare c) (hd : isBare d = false) : c ≠ d := by
  rintro rfl
  rw [hc] at hd
  cases hd

private theorem IsBareKey.eq_cons {key : List Char} (h : IsBareKey key) :
    ∃ c rest, key = c :: rest ∧ isBare c := by
  cases key with
  | nil => exact absurd rfl h.1
  | cons c rest => exact ⟨c, rest, rfl, h.2 c (.head _)⟩

/-- A key without quotes is read as far as it goes. -/
private theorem key?_append {key : List Char} (h : IsBareKey key) {rest : List Char}
    (hrest : ∀ c ∈ rest.head?, isBare c = false) : key? (key ++ rest) = some (String.ofList key, rest) := by
  have htake : (key ++ rest).takeWhile isBare = key := by
    rw [List.takeWhile_append_of_pos h.2]
    cases rest with
    | nil => exact List.append_nil _
    | cons c rest => rw [List.takeWhile_cons, hrest c rfl, if_neg Bool.false_ne_true, List.append_nil]
  have hdrop : (key ++ rest).dropWhile isBare = rest := by
    rw [List.dropWhile_append_of_pos h.2]
    cases rest with
    | nil => rfl
    | cons c rest => rw [List.dropWhile_cons, hrest c rfl, if_neg Bool.false_ne_true]
  obtain ⟨c, more, rfl, hc⟩ := h.eq_cons
  unfold key?
  split
  · next heq => exact absurd (List.cons.inj heq).1 (ne_of_isBare hc (by decide))
  · next heq => exact absurd (List.cons.inj heq).1 (ne_of_isBare hc (by decide))
  · rw [htake, hdrop]

/-- A key alone is a path, if neither the key nor the path goes on behind it. -/
theorem path?_append {key : List Char} (h : IsBareKey key) {rest : List Char}
    (hrest : ∀ c ∈ rest.head?, isBare c = false) (hpoint : ∀ c ∈ (skipBlanks rest).head?, c ≠ '.') :
    path? (key ++ rest) = some (⟨[], String.ofList key⟩, skipBlanks rest) := by
  have hblanks : skipBlanks (key ++ rest) = key ++ rest := by
    obtain ⟨c, more, rfl, hc⟩ := h.eq_cons
    refine skipBlanks_of_not_isBlank ?_ _
    simp [isBlank, ne_of_isBare hc (d := ' ') (by decide), ne_of_isBare hc (d := '\t') (by decide)]
  have hkeys : keys? depthLimit (key ++ rest) = some ([String.ofList key], skipBlanks rest) := by
    rw [depthLimit, keys?, hblanks, key?_append h hrest]
    simp only [Option.bind_eq_bind, Option.bind_some]
    split
    · next heq => exact absurd rfl (hpoint '.' (by rw [heq]; rfl))
    · rfl
  rw [path?, hkeys]
  rfl

variable {key value : List Char} {item : Item}

private theorem statement?_assign (hkey : IsBareKey key) (hvalue : IsValue value item) (rest : List Char) :
    statement? (key ++ ' ' :: '=' :: ' ' :: (value ++ '\n' :: rest)) =
      some (.assign ⟨[], String.ofList key⟩ item, rest) := by
  have hpath : path? (key ++ ' ' :: '=' :: ' ' :: (value ++ '\n' :: rest)) =
      some (⟨[], String.ofList key⟩, '=' :: ' ' :: (value ++ '\n' :: rest)) :=
    path?_append hkey (by simp [isBare]) (by simp [skipBlanks, isBlank])
  have hpair : pair? (item? depthLimit) (key ++ ' ' :: '=' :: ' ' :: (value ++ '\n' :: rest)) =
      some ((⟨[], String.ofList key⟩, item), '\n' :: rest) := by
    rw [pair?, hpath]
    change (item? depthLimit (skipBlanks (value ++ '\n' :: rest))).bind _ = _
    rw [hvalue rest]
    rfl
  obtain ⟨c, more, rfl, hc⟩ := hkey.eq_cons
  unfold statement?
  split
  · next heq => exact absurd (List.cons.inj heq).1 (ne_of_isBare hc (by decide))
  · next heq => exact absurd (List.cons.inj heq).1 (ne_of_isBare hc (by decide))
  · rw [hpair]
    rfl

private theorem statement?_openTable (hkey : IsBareKey key) (rest : List Char) :
    statement? ('[' :: (key ++ ']' :: '\n' :: rest)) = some (.openTable ⟨[], String.ofList key⟩, rest) := by
  have hpath : path? (key ++ ']' :: '\n' :: rest) = some (⟨[], String.ofList key⟩, ']' :: '\n' :: rest) :=
    path?_append hkey (by simp [isBare]) (by simp [skipBlanks, isBlank])
  have hheader : header? [']'] (key ++ ']' :: '\n' :: rest) = some (⟨[], String.ofList key⟩, rest) := by
    rw [header?, hpath]
    rfl
  obtain ⟨c, more, rfl, hc⟩ := hkey.eq_cons
  unfold statement?
  split
  · next heq => exact absurd (List.cons.inj (List.cons.inj heq).2).1 (ne_of_isBare hc (by decide))
  · next heq =>
    rw [← (List.cons.inj heq).2, hheader]
    rfl
  · next hother => exact absurd rfl (hother _)

/-- A text is read as some statements. -/
def Reads (text : List Char) (statements : List Statement) : Prop :=
  ∀ fuel, text.length ≤ fuel → statements? fuel text = some statements

private theorem reads_nil : Reads [] [] := by
  intro fuel _
  cases fuel <;> rfl

/-- A statement is read before what stands behind it. -/
theorem Reads.cons {c : Char} {more text : List Char} {statement : Statement} {statements : List Statement}
    (hc : isBare c ∨ c = '[') (hread : statement? (c :: more) = some (statement, text))
    (hlength : text.length ≤ more.length) (h : Reads text statements) :
    Reads (c :: more) (statement :: statements) := by
  intro fuel hfuel
  cases fuel with
  | zero => cases hfuel
  | succ fuel =>
    have hne : ∀ d : Char, isBare d = false → d ≠ '[' → c ≠ d := by
      rintro d hd hbracket rfl
      obtain hc | hc := hc
      · exact ne_of_isBare hc hd rfl
      · exact hbracket hc
    have hblank : isBlank c = false := by
      simp [isBlank, hne ' ' (by decide) (by decide), hne '\t' (by decide) (by decide)]
    have hrest : statements? fuel text = some statements :=
      h fuel (Nat.le_trans hlength (Nat.le_of_succ_le_succ hfuel))
    rw [statements?, skipBlanks_of_not_isBlank hblank]
    split
    · next heq => cases heq
    · next heq => exact absurd (List.cons.inj heq).1 (hne '#' (by decide) (by decide))
    · next heq => exact absurd (List.cons.inj heq).1 (hne '\n' (by decide) (by decide))
    · next heq => exact absurd (List.cons.inj heq).1 (hne '\r' (by decide) (by decide))
    · rw [hread]
      simp [hrest]

/-- Lines that are read as some statements, whatever is read behind them. -/
def Lines (text : List Char) (statements : List Statement) : Prop :=
  ∀ more others, Reads more others → Reads (text ++ more) (statements ++ others)

namespace Lines

variable {text text' : List Char} {statements statements' : List Statement}

/-- No lines have no statements. -/
theorem nil : Lines [] [] :=
  fun _ _ h => h

/-- Lines behind others have their statements behind those. -/
theorem append (h : Lines text statements) (h' : Lines text' statements') :
    Lines (text ++ text') (statements ++ statements') := by
  intro more others hmore
  rw [List.append_assoc, List.append_assoc]
  exact h _ _ (h' _ _ hmore)

/-- Lines are read as their statements. -/
theorem reads (h : Lines text statements) : Reads text statements := by
  have hall := h [] [] reads_nil
  rwa [List.append_nil, List.append_nil] at hall

private theorem blank : Lines ['\n'] [] := by
  intro more others hmore fuel hfuel
  cases fuel with
  | zero => cases hfuel
  | succ fuel => exact hmore fuel (Nat.le_of_succ_le_succ hfuel)

/-- A line with a key and a value gives the value to the key. -/
theorem assign (hkey : IsBareKey key) (hvalue : IsValue value item) :
    Lines (key ++ ' ' :: '=' :: ' ' :: value ++ ['\n']) [.assign ⟨[], String.ofList key⟩ item] := by
  intro more others hmore
  have hread := statement?_assign hkey hvalue more
  obtain ⟨c, tail, rfl, hc⟩ := hkey.eq_cons
  have hlength : more.length ≤ (tail ++ ' ' :: '=' :: ' ' :: (value ++ '\n' :: more)).length := by
    simp only [List.length_append, List.length_cons]
    omega
  simpa using Reads.cons (.inl hc) hread hlength hmore

/-- The header of a table opens it. -/
theorem openTable (hkey : IsBareKey key) :
    Lines ('[' :: key ++ [']', '\n']) [.openTable ⟨[], String.ofList key⟩] := by
  intro more others hmore
  have hlength : more.length ≤ (key ++ ']' :: '\n' :: more).length := by
    simp only [List.length_append, List.length_cons]
    omega
  simpa using Reads.cons (.inr rfl) (statement?_openTable hkey more) hlength hmore

/-- A blank line may part lines from others. -/
theorem intercalate {texts : List (List Char)} {parts : List (List Statement)} (h : List.Forall₂ Lines texts parts) :
    Lines (['\n'].intercalate texts) parts.flatten := by
  induction h with
  | nil => exact nil
  | @cons text part texts parts hfirst hrest ih =>
    cases hrest with
    | nil => simpa [List.intercalate] using hfirst
    | cons hsecond hmore =>
      have hall := hfirst.append (blank.append ih)
      simpa [List.intercalate] using hall

end Lines

/-- A text that can be read does not begin with a byte order mark, so that none is taken off. -/
theorem ofText?_of_reads {text : List Char} {statements : List Statement} (h : Reads text statements) :
    ofText? text = entriesOf? statements := by
  have hmark : text.head? ≠ some '\ufeff' := by
    cases text with
    | nil => nofun
    | cons c text =>
      rintro ⟨⟩
      have hnone : statements? (text.length + 1) ('\ufeff' :: text) = none := rfl
      cases hnone.symm.trans (h _ (Nat.le_refl _))
  rw [ofText?, if_neg hmark]
  simp [h text.length (Nat.le_refl _)]

end SessionTickets.Toml
