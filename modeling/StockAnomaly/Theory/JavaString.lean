import Mathlib.Data.List.DropRight

/-!
# Strings of the Java library

The operations of `java.lang.String` that the development meets, on the characters of a
string: `split` at a literal separator, which drops the empty strings at the end, the
blank tests over `Character.isWhitespace`, `startsWith` and `substring`.
-/

namespace StockAnomaly.Theory.JavaString

/-- `s.split(sep)` for a separator of one character. -/
def split (sep : Char) (s : String) : List String :=
  if sep ∈ s.toList then ((s.toList.splitOn sep).map String.ofList).rdropWhile (· = "") else [s]

/-- `s.trim()`. -/
def trim (s : String) : String :=
  String.ofList ((s.toList.dropWhile (·.toNat ≤ 0x20)).rdropWhile (·.toNat ≤ 0x20))

/-- `Character.isWhitespace`: the separators of Unicode without the no-break spaces, and
the control characters tab to carriage return and `U+001C` to `U+001F`. -/
def isWhitespace (c : Char) : Bool :=
  let n := c.toNat
  (0x09 ≤ n && n ≤ 0x0D) || (0x1C ≤ n && n ≤ 0x20) || n == 0x1680 ||
    (0x2000 ≤ n && n ≤ 0x2006) || (0x2008 ≤ n && n ≤ 0x200A) || n == 0x2028 || n == 0x2029 ||
    n == 0x205F || n == 0x3000

def isBlank (s : String) : Bool := s.toList.all isWhitespace

/-- `StringUtils.hasText`, `none` standing for `null`. -/
def hasText (s : Option String) : Bool := s.any fun s => !isBlank s

def startsWith (s start : String) : Bool := start.toList.isPrefixOf s.toList

/-- `s.substring(n)`. -/
def substring (s : String) (n : ℕ) : String := String.ofList (s.toList.drop n)

theorem startsWith_append (start rest : String) : startsWith (start ++ rest) start = true := by
  simp [startsWith, String.toList_append]

theorem substring_append (start rest : String) : substring (start ++ rest) start.length = rest := by
  simp [substring, String.toList_append, ← String.length_toList]

section Split

variable {sep : Char} {s glue part : String} {parts : List String}

theorem notMem_of_mem_splitOn {cs piece : List Char} (mem : piece ∈ cs.splitOn sep) : sep ∉ piece := by
  induction cs generalizing piece with
  | nil =>
    rw [List.splitOn_nil, List.mem_singleton] at mem
    simp [mem]
  | cons c cs ih =>
    rw [List.splitOn_cons_eq_if_modifyHead] at mem
    split_ifs at mem with same
    · obtain rfl | later := List.mem_cons.1 mem
      · exact List.not_mem_nil
      · exact ih later
    · cases pieces : cs.splitOn sep with
      | nil => exact absurd pieces (List.splitOn_ne_nil sep cs)
      | cons first rest =>
        rw [pieces, List.modifyHead_cons] at mem
        rw [pieces] at ih
        obtain rfl | later := List.mem_cons.1 mem
        · have other : sep ≠ c := fun eq => same (beq_iff_eq.2 eq.symm)
          simpa [other] using ih List.mem_cons_self
        · exact ih (List.mem_cons_of_mem _ later)

/-- No part of a split contains the separator. -/
theorem notMem_of_mem_split (mem : part ∈ split sep s) : sep ∉ part.toList := by
  unfold split at mem
  split_ifs at mem with there
  · have kept := (List.rdropWhile_prefix _ _).mem mem
    obtain ⟨piece, piece_mem, rfl⟩ := List.mem_map.1 kept
    rw [String.toList_ofList]
    exact notMem_of_mem_splitOn piece_mem
  · rwa [List.mem_singleton.1 mem]

theorem toList_join (one : glue.toList = [sep]) :
    (glue.intercalate parts).toList = [sep].intercalate (parts.map String.toList) := by
  rw [String.toList_intercalate, one]

/-- The separator is in the text as soon as there are two parts. -/
theorem mem_join (one : glue.toList = [sep]) {first second : String} {rest : List String} :
    sep ∈ (glue.intercalate (first :: second :: rest)).toList := by
  rw [String.intercalate_cons_cons, String.toList_append, String.toList_append, one]
  simp

theorem notMem_join (other : sep ∉ glue.toList) (free : ∀ part ∈ parts, sep ∉ part.toList) :
    sep ∉ (glue.intercalate parts).toList := by
  induction parts with
  | nil => simp
  | cons first rest ih =>
    obtain ⟨here, later⟩ := List.forall_mem_cons.1 free
    cases rest with
    | nil => rwa [String.intercalate_singleton]
    | cons second rest =>
      rw [String.intercalate_cons_cons, String.toList_append, String.toList_append]
      simp only [List.mem_append, not_or]
      exact ⟨⟨here, other⟩, ih later⟩

/-- More than `n` entries are left if one of those after the first `n` stays. -/
theorem lt_length_rdropWhile_iff {α : Type*} {p : α → Bool} {n : ℕ} {l : List α} :
    n < (l.rdropWhile p).length ↔ ∃ x ∈ l.drop n, ¬ p x := by
  induction l using List.reverseRecOn with
  | nil => simp
  | append_singleton l a ih =>
    rw [List.rdropWhile_concat]
    split_ifs with dropped
    · rw [ih, List.drop_append]
      constructor
      · rintro ⟨x, mem, stays⟩
        exact ⟨x, List.mem_append_left _ mem, stays⟩
      · rintro ⟨x, mem, stays⟩
        obtain old | new := List.mem_append.1 mem
        · exact ⟨x, old, stays⟩
        · obtain rfl := List.mem_singleton.1 (List.mem_of_mem_drop new)
          exact absurd dropped stays
    · constructor
      · intro lt
        rw [List.length_append, List.length_singleton] at lt
        refine ⟨a, ?_, dropped⟩
        rw [List.drop_append, show n - l.length = 0 by omega]
        simp
      · rintro ⟨x, mem, -⟩
        by_contra short
        rw [List.drop_eq_nil_of_le (not_lt.1 short)] at mem
        exact List.not_mem_nil mem

/-- **Joined parts split into themselves, except for empty ones at the end.** -/
theorem split_join (one : glue.toList = [sep]) (two : 2 ≤ parts.length)
    (free : ∀ part ∈ parts, sep ∉ part.toList) :
    split sep (glue.intercalate parts) = parts.rdropWhile (· = "") := by
  obtain ⟨first, second, rest, rfl⟩ : ∃ first second rest, parts = first :: second :: rest := by
    match parts, two with
    | first :: second :: rest, _ => exact ⟨first, second, rest, rfl⟩
  have pieces : ∀ piece ∈ (first :: second :: rest).map String.toList, sep ∉ piece := by
    simpa using free
  rw [split, if_pos (mem_join one), toList_join one, List.splitOn_intercalate sep pieces (by simp), List.map_map]
  simp [Function.comp_def]

theorem split_singleton (free : sep ∉ part.toList) : split sep (glue.intercalate [part]) = [part] := by
  rw [String.intercalate_singleton, split, if_neg free]

/-- Parts that are not empty come back. -/
theorem split_join_of_nonempty (one : glue.toList = [sep]) (some_part : parts ≠ [])
    (free : ∀ part ∈ parts, sep ∉ part.toList) (nonempty : ∀ part ∈ parts, part ≠ "") :
    split sep (glue.intercalate parts) = parts := by
  match parts with
  | [part] => exact split_singleton (free part (List.mem_singleton_self part))
  | first :: second :: rest =>
    rw [split_join one (by simp) free, List.rdropWhile_eq_self_iff]
    intro there
    simpa using nonempty _ (List.getLast_mem there)

end Split

end StockAnomaly.Theory.JavaString
