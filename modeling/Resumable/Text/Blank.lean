import Resumable.Text.Ranges

/-!
# Blank characters

The characters with the Unicode property White_Space: what may surround a statement and what is
trimmed from a text before it is read as a number.

This is what the patterns of `classify`, `extract_binding_target` and `SuspendMatcher` take for a
blank, and what `split_statements`, `evaluate` and `string_to_number` trim.
-/

namespace Resumable.Text

/-- The code points with the property White_Space. -/
def blankRanges : CodeRanges :=
  [(0x09, 0x0d), (0x20, 0x20), (0x85, 0x85), (0xa0, 0xa0), (0x1680, 0x1680), (0x2000, 0x200a),
   (0x2028, 0x2029), (0x202f, 0x202f), (0x205f, 0x205f), (0x3000, 0x3000)]

/-- Whether a character is blank. -/
def isBlank (c : Char) : Bool := blankRanges.has c

/-- A text without its leading blanks. -/
def trimStart (cs : List Char) : List Char := cs.dropWhile isBlank

/-- A text without its trailing blanks. -/
def trimEnd (cs : List Char) : List Char := (cs.reverse.dropWhile isBlank).reverse

/-- A text without the blanks at its two ends. -/
def trim (cs : List Char) : List Char := trimEnd (trimStart cs)

example : blankRanges.Apart = true ∧ blankRanges.count = 25 := by decide

/-! ### Trimming twice -/

/-- A text whose first character is not blank has no leading blanks. -/
theorem trimStart_cons {c : Char} (h : isBlank c = false) (cs : List Char) :
    trimStart (c :: cs) = c :: cs := by
  rw [trimStart, List.dropWhile_cons_of_neg (by simp [h])]

theorem not_isBlank_of_trimStart {cs rest : List Char} {c : Char} (h : trimStart cs = c :: rest) :
    isBlank c = false := by
  have := List.head?_dropWhile_not isBlank cs
  rw [← trimStart, h] at this
  simpa using this

theorem trimStart_trimStart (cs : List Char) : trimStart (trimStart cs) = trimStart cs := by
  cases h : trimStart cs with
  | nil => rfl
  | cons c rest => exact trimStart_cons (not_isBlank_of_trimStart h) rest

theorem trimEnd_trimEnd (cs : List Char) : trimEnd (trimEnd cs) = trimEnd cs := by
  have := trimStart_trimStart cs.reverse
  rw [trimStart, trimStart] at this
  rw [trimEnd, trimEnd, List.reverse_reverse, this]

theorem trimEnd_prefix (cs : List Char) : trimEnd cs <+: cs := by
  rw [trimEnd, ← List.reverse_suffix, List.reverse_reverse]
  exact List.dropWhile_suffix isBlank

/-- What stands behind a character that is not blank is trimmed on its own. -/
theorem trimEnd_append_cons {c : Char} (h : isBlank c = false) (cs rest : List Char) :
    trimEnd (cs ++ c :: rest) = cs ++ c :: trimEnd rest := by
  have hkept : (c :: cs.reverse).dropWhile isBlank = c :: cs.reverse :=
    List.dropWhile_cons_of_neg (by simp [h])
  rw [trimEnd, trimEnd, List.reverse_append, List.reverse_cons, List.append_assoc,
    List.singleton_append, List.dropWhile_append]
  split
  · rename_i hempty
    rw [hkept, List.isEmpty_iff.mp hempty]
    simp
  · simp

/-- Trimming a trimmed text changes nothing. -/
theorem trim_trim (cs : List Char) : trim (trim cs) = trim cs := by
  have inner : trimStart (trim cs) = trim cs := by
    cases h : trim cs with
    | nil => rfl
    | cons c rest =>
      -- Trimming the end keeps the first character, which trimming the start left.
      obtain ⟨tail, htail⟩ := trimEnd_prefix (trimStart cs)
      rw [← trim, h, List.cons_append] at htail
      exact trimStart_cons (not_isBlank_of_trimStart htail.symm) rest
  rw [trim, inner, trim, trimEnd_trimEnd]

/-- A text that neither starts nor ends with a blank is trimmed. -/
theorem trim_eq_self {cs : List Char} (hfirst : ∀ c ∈ cs.head?, isBlank c = false)
    (hlast : ∀ c ∈ cs.getLast?, isBlank c = false) : trim cs = cs := by
  have start : ∀ ds : List Char, (∀ c ∈ ds.head?, isBlank c = false) → trimStart ds = ds := by
    intro ds hds
    cases ds with
    | nil => rfl
    | cons c ds => exact trimStart_cons (hds c rfl) ds
  rw [trim, start cs hfirst, trimEnd, ← trimStart, start cs.reverse (by simpa using hlast),
    List.reverse_reverse]

/-- Trimming takes nothing but blanks away. -/
theorem exists_trim (cs : List Char) : ∃ lead trail, (∀ c ∈ lead, isBlank c = true) ∧
    (∀ c ∈ trail, isBlank c = true) ∧ cs = lead ++ (trim cs ++ trail) := by
  refine ⟨cs.takeWhile isBlank, ((trimStart cs).reverse.takeWhile isBlank).reverse, ?_, ?_, ?_⟩
  · exact fun c hc => List.all_eq_true.mp List.all_takeWhile c hc
  · exact fun c hc => List.all_eq_true.mp List.all_takeWhile c (List.mem_reverse.mp hc)
  · rw [trim, trimEnd, ← List.reverse_append, List.takeWhile_append_dropWhile,
      List.reverse_reverse, trimStart, List.takeWhile_append_dropWhile]

end Resumable.Text
