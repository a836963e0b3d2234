import Mathlib.Data.String.Basic
import SessionTickets.Config.Files

namespace SessionTickets.FilePath

open String

/-- A text without a slash has one part, however far it was looked through. -/
private theorem splitOnAux_of_not_mem (read rest : List Char) (h : '/' ∉ rest) :
    splitOnAux (ofList (read ++ rest)) "/" 0 ⟨utf8Len read⟩ 0 [] = [ofList (read ++ rest)] := by
  induction rest generalizing read with
  | nil =>
    rw [splitOnAux, if_pos ((atEnd_of_valid _ _).2 rfl)]
    simpa using extract_of_valid [] read []
  | cons c rest ih =>
    obtain ⟨hc, hrest⟩ := List.ne_and_not_mem_of_not_mem_cons h
    have hslash : Pos.Raw.get "/" 0 = '/' := by decide
    have hnext : (Pos.Raw.unoffsetBy ⟨utf8Len read⟩ 0).next (ofList (read ++ c :: rest)) =
        ⟨utf8Len (read ++ [c])⟩ := by
      rw [show Pos.Raw.unoffsetBy ⟨utf8Len read⟩ 0 = ⟨utf8Len read⟩ from rfl, next_of_valid, utf8Len_append,
        utf8Len_cons, utf8Len_nil, Nat.zero_add]
    have hstep := ih (read ++ [c]) hrest
    rw [List.append_assoc, List.singleton_append] at hstep
    rw [splitOnAux, if_neg (mt (atEnd_of_valid _ _).1 (List.cons_ne_nil c rest)), get_of_valid, hslash,
      if_neg (by simpa using Ne.symm hc), hnext, hstep]

private theorem splitOn_of_not_mem {s : String} (h : '/' ∉ s.toList) : s.splitOn "/" = [s] := by
  have hsplit := splitOnAux_of_not_mem [] s.toList h
  rw [List.nil_append, ofList_toList] at hsplit
  rw [splitOn, if_neg (by decide)]
  exact hsplit

private theorem startsWith_of_not_mem {s : String} (h : '/' ∉ s.toList) : s.startsWith "/" = false := by
  simp only [startsWith_string_eq_false_iff]
  intro hstart
  exact h (hstart.subset (by decide))

/-- A path of one part that does not lead back: it leads to a place of that name in the current directory. -/
structure IsName (name : String) : Prop where
  noSlash : '/' ∉ name.toList
  not_idle : isIdle name = false
  not_back : name ≠ ".."

namespace IsName

variable {name : String}

private theorem parts_eq (h : IsName name) : parts name = [name] := by
  rw [parts, splitOn_of_not_mem h.noSlash]
  simp [h.not_idle]

private theorem normal_eq (h : IsName name) : normal name = name := by
  have hresolved : resolved name = [name] := by
    simp [resolved, h.parts_eq, follow, h.not_back]
  rw [normal, hresolved, startsWith_of_not_mem h.noSlash]
  simp [ofParts]

private theorem isUsable_eq (h : IsName name) (hlength : name.utf8ByteSize ≤ longestName)
    (hzero : '\x00' ∉ name.toList) : isUsable name = true := by
  have hpath : name.utf8ByteSize ≤ longestPath := Nat.le_trans hlength (by decide)
  simp [isUsable, h.parts_eq, hlength, hpath, hzero]

/-- A name leads to what is known under it. -/
theorem node?_eq (h : IsName name) (hlength : name.utf8ByteSize ≤ longestName) (hzero : '\x00' ∉ name.toList)
    (files : Files) : files.node? name = files.find? name := by
  rw [Files.node?, if_pos (h.isUsable_eq hlength hzero), h.normal_eq]

/-- A file of that name is held by the current directory, which is there. -/
theorem parent?_eq (h : IsName name) : parent? name = some "" := by
  rw [parent?, startsWith_of_not_mem h.noSlash, splitOn_of_not_mem h.noSlash]
  simp [h.not_idle, ofParts]

/-- A file is written under a name that is free. -/
theorem write?_eq (h : IsName name) (hlength : name.utf8ByteSize ≤ longestName) (hzero : '\x00' ∉ name.toList)
    {files : Files} (hfree : files.find? name = none) (bytes : List UInt8) :
    files.write? name bytes = some (files.insert name (.file bytes)) := by
  have hdirectory : namesDirectory name = false := by
    simp [namesDirectory, splitOn_of_not_mem h.noSlash, h.not_idle, h.not_back]
  rw [Files.write?, h.isUsable_eq hlength hzero, hdirectory, h.node?_eq hlength hzero, hfree, h.normal_eq]
  rfl

end IsName

/-- The current directory does not have to be made. -/
theorem createDirectories?_empty (files : Files) : files.createDirectories? "" = some files := by
  have hparts : parts "" = [] := by
    rw [parts, splitOn_of_not_mem (by decide)]
    rfl
  have husable : isUsable "" = true := by
    simp [isUsable, hparts]
  simp [Files.createDirectories?, husable, passed, hparts]

end SessionTickets.FilePath
