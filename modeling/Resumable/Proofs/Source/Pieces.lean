import Resumable.Source.Split

/-!
# Pieces cannot be cut again

A text is cut at its exposed separators. Each cut leaves the scanner as it was at the start, so that
a piece read on its own shows no separator, and the blanks around a statement are nothing to the
scanner.

## What is proved

* `Scanner.step_of_exposes`: a character that stands on the top level, outside strings, leaves the
  scanner at its start.
* `uncut_of_mem_pieces`: no piece has an exposed separator.
* `pieces_intercalate_of_dropLast`, `pieces_intercalate`: texts that show no separator and leave the
  scanner at its start are the pieces of their joined text; the last one may leave it elsewhere.
* `IsStatement.of_mem`: each statement of a script is the only statement of itself, has characters,
  and has no blanks around it.
-/

namespace Resumable.Source

/-! ### The scanner -/

@[simp] theorem Scanner.count_quote (s : Scanner) (c : Char) : (s.count c).quote = s.quote := by
  unfold Scanner.count
  split <;> rfl

/-- A character that stands on the top level, outside strings, leaves the scanner at its start. -/
theorem Scanner.step_of_exposes {s : Scanner} {c : Char} (h : s.exposes c = true) :
    s.step c = {} := by
  simp only [exposes, Bool.and_eq_true, Option.isNone_iff_eq_none, Bool.not_eq_true'] at h
  obtain ⟨⟨hquote, hc⟩, htop⟩ := h
  have hq : (s.step c).quote = none := by
    rw [step, hquote]
    simp [hc, hquote]
  simp only [isTop, Bool.and_eq_true, beq_iff_eq] at htop
  obtain ⟨⟨hparens, hbraces⟩, hbrackets⟩ := htop
  calc s.step c
    _ = ⟨(s.step c).parens, (s.step c).braces, (s.step c).brackets, (s.step c).quote⟩ := rfl
    _ = {} := by rw [hparens, hbraces, hbrackets, hq]

/-- Whether a character neither is a quote nor counts as a bracket. -/
def isPlain (c : Char) : Bool :=
  !isQuote c && !List.contains ['(', ')', '[', ']', '\x7b', '\x7d'] c

theorem Scanner.step_of_isPlain {s : Scanner} {c : Char} (hs : s.quote = none)
    (h : isPlain c = true) : s.step c = s := by
  simp only [isPlain, Bool.and_eq_true, Bool.not_eq_true'] at h
  obtain ⟨hquote, hbracket⟩ := h
  rw [step, hs]
  simp only [hquote, Bool.false_eq_true, if_false]
  unfold count
  split
  case h_7 => rfl
  all_goals simp at hbracket

theorem isPlain_of_isBlank {c : Char} (h : Text.isBlank c = true) : isPlain c = true := by
  cases hplain : isPlain c with
  | true => rfl
  | false =>
    simp only [isPlain, isQuote, Bool.and_eq_false_iff, Bool.not_eq_false', Bool.or_eq_true,
      beq_iff_eq, List.contains_iff_mem, List.mem_cons, List.not_mem_nil, or_false] at hplain
    rcases hplain with ((rfl | rfl) | rfl) | rfl | rfl | rfl | rfl | rfl | rfl <;>
      exact absurd h (by decide)

/-! ### Texts without an exposed separator -/

variable {separator : Char} {s : Scanner} {c : Char} {cs : List Char}

/-- Read from a state of the scanner on, a text has no exposed separator. -/
def Uncut (separator : Char) (s : Scanner) (cs : List Char) : Prop := (cut separator s cs).2 = []

theorem cut_of_exposes (h : s.exposes c = true) :
    cut c s (c :: cs) = ([], (cut c (s.step c) cs).1 :: (cut c (s.step c) cs).2) := by
  simp [cut, h]

theorem cut_of_not (h : ¬ (s.exposes c = true ∧ c = separator)) :
    cut separator s (c :: cs) =
      (c :: (cut separator (s.step c) cs).1, (cut separator (s.step c) cs).2) := by
  simp [cut, h]

theorem uncut_nil : Uncut separator s [] := rfl

theorem uncut_cons_iff : Uncut separator s (c :: cs) ↔
    ¬ (s.exposes c = true ∧ c = separator) ∧ Uncut separator (s.step c) cs := by
  by_cases h : s.exposes c = true ∧ c = separator
  · obtain ⟨hc, rfl⟩ := h
    simp [Uncut, cut_of_exposes hc, hc]
  · simp [Uncut, cut_of_not h, h]

theorem Uncut.of_prefix {ds : List Char} (h : Uncut separator s cs) (hp : ds <+: cs) :
    Uncut separator s ds := by
  induction ds generalizing s cs with
  | nil => exact uncut_nil
  | cons d ds ih =>
    obtain ⟨tail, rfl⟩ := hp
    rw [List.cons_append, uncut_cons_iff] at h
    exact uncut_cons_iff.mpr ⟨h.1, ih h.2 (List.prefix_append ds tail)⟩

/-- A text without an exposed separator is one piece. -/
theorem Uncut.cut_eq (h : Uncut separator s cs) : cut separator s cs = (cs, []) := by
  induction cs generalizing s with
  | nil => rfl
  | cons c cs ih =>
    obtain ⟨hc, hcs⟩ := uncut_cons_iff.mp h
    rw [cut_of_not hc, ih hcs]

theorem Uncut.pieces_eq (h : Uncut separator {} cs) : pieces separator cs = [cs] := by
  rw [pieces, h.cut_eq]

/-- No piece has an exposed separator: the first is read from the state in which cutting began, and
every other one from the start. -/
theorem uncut_cut (separator : Char) (cs : List Char) : ∀ s : Scanner,
    Uncut separator s (cut separator s cs).1 ∧
      ∀ p ∈ (cut separator s cs).2, Uncut separator {} p := by
  induction cs with
  | nil => exact fun s => ⟨uncut_nil, fun p hp => absurd hp List.not_mem_nil⟩
  | cons c cs ih =>
    intro s
    obtain ⟨hfirst, hothers⟩ := ih (s.step c)
    by_cases h : s.exposes c = true ∧ c = separator
    · obtain ⟨hc, rfl⟩ := h
      rw [cut_of_exposes hc]
      refine ⟨uncut_nil, fun p hp => ?_⟩
      rcases List.mem_cons.mp hp with rfl | hp
      · rwa [Scanner.step_of_exposes hc] at hfirst ⊢
      · exact hothers p hp
    · rw [cut_of_not h]
      exact ⟨uncut_cons_iff.mpr ⟨h, hfirst⟩, hothers⟩

theorem uncut_of_mem_pieces {p : List Char} (h : p ∈ pieces separator cs) :
    Uncut separator {} p := by
  obtain ⟨hfirst, hothers⟩ := uncut_cut separator cs {}
  rcases List.mem_cons.mp h with rfl | hp
  · exact hfirst
  · exact hothers p hp

/-! ### Joined texts -/

variable {ds : List Char}

/-- A text in which the separator does not occur cannot be cut. -/
theorem uncut_of_not_mem (h : separator ∉ cs) : Uncut separator s cs := by
  induction cs generalizing s with
  | nil => exact uncut_nil
  | cons c cs ih =>
    rw [List.mem_cons, not_or] at h
    exact uncut_cons_iff.mpr ⟨fun hcut => h.1 hcut.2.symm, ih h.2⟩

theorem uncut_append_iff : Uncut separator s (cs ++ ds) ↔
    Uncut separator s cs ∧ Uncut separator (s.run cs) ds := by
  induction cs generalizing s with
  | nil => exact ⟨fun h => ⟨uncut_nil, h⟩, And.right⟩
  | cons c cs ih =>
    rw [List.cons_append, uncut_cons_iff, uncut_cons_iff, ih, Scanner.run_cons, and_assoc]

/-- A separator behind a text that leaves the scanner at its start is a cut. -/
theorem cut_append (hsep : ({} : Scanner).exposes separator = true) (h : s.run cs = {})
    (ds : List Char) : cut separator s (cs ++ separator :: ds) =
      ((cut separator s cs).1, (cut separator s cs).2 ++ pieces separator ds) := by
  induction cs generalizing s with
  | nil =>
    obtain rfl : s = {} := h
    rw [List.nil_append, cut_of_exposes hsep, Scanner.step_of_exposes hsep]
    rfl
  | cons c cs ih =>
    have hrest := ih (s := s.step c) h
    by_cases hc : s.exposes c = true ∧ c = separator
    · obtain ⟨hexposes, rfl⟩ := hc
      rw [List.cons_append, cut_of_exposes hexposes, cut_of_exposes hexposes, hrest]
      rfl
    · rw [List.cons_append, cut_of_not hc, cut_of_not hc, hrest]

theorem pieces_append (hsep : ({} : Scanner).exposes separator = true)
    (h : ({} : Scanner).run cs = {}) (ds : List Char) :
    pieces separator (cs ++ separator :: ds) = pieces separator cs ++ pieces separator ds := by
  simp only [pieces, cut_append hsep h]
  rfl

/-- Texts that show no separator and, but for the last one, leave the scanner at its start are the
pieces of the text that joins them. -/
theorem pieces_intercalate_of_dropLast (hsep : ({} : Scanner).exposes separator = true)
    {texts : List (List Char)} (hne : texts ≠ []) (huncut : ∀ cs ∈ texts, Uncut separator {} cs)
    (hrun : ∀ cs ∈ texts.dropLast, ({} : Scanner).run cs = {}) :
    pieces separator ([separator].intercalate texts) = texts := by
  induction texts with
  | nil => exact absurd rfl hne
  | cons cs texts ih =>
    have hpiece := (huncut cs (List.mem_cons_self ..)).pieces_eq
    cases texts with
    | nil =>
      rw [List.intercalate_singleton]
      exact hpiece
    | cons ds texts =>
      rw [List.dropLast_cons_of_ne_nil (List.cons_ne_nil ds texts)] at hrun
      have hrest := ih (List.cons_ne_nil ds texts) (fun es hes => huncut es (.tail _ hes))
        fun es hes => hrun es (.tail _ hes)
      rw [List.intercalate_cons_cons, List.append_assoc, List.singleton_append,
        pieces_append hsep (hrun cs (List.mem_cons_self ..)), hpiece, hrest, List.singleton_append]

/-- Texts that show no separator and leave the scanner at its start are the pieces of the text that
joins them. -/
theorem pieces_intercalate (hsep : ({} : Scanner).exposes separator = true)
    {texts : List (List Char)} (hne : texts ≠ [])
    (h : ∀ cs ∈ texts, Uncut separator {} cs ∧ ({} : Scanner).run cs = {}) :
    pieces separator ([separator].intercalate texts) = texts :=
  pieces_intercalate_of_dropLast hsep hne (fun cs hcs => (h cs hcs).1)
    fun cs hcs => (h cs ((List.dropLast_sublist texts).subset hcs)).2

/-! ### Statements -/

/-- Taking leading blanks away exposes no separator. -/
theorem Uncut.trimStart (h : Uncut separator {} cs) : Uncut separator {} (Text.trimStart cs) := by
  induction cs with
  | nil => exact uncut_nil
  | cons c cs ih =>
    cases hc : Text.isBlank c with
    | false => rwa [Text.trimStart_cons hc]
    | true =>
      have hcs := (uncut_cons_iff.mp h).2
      rw [Scanner.step_of_isPlain rfl (isPlain_of_isBlank hc)] at hcs
      rw [Text.trimStart, List.dropWhile_cons_of_pos hc]
      exact ih hcs

theorem Uncut.trim (h : Uncut separator {} cs) : Uncut separator {} (Text.trim cs) :=
  h.trimStart.of_prefix (Text.trimEnd_prefix (Text.trimStart cs))

/-- A text that is a statement and no more: it has characters, no blanks around it, and cannot be
cut. -/
structure IsStatement (text : String) : Prop where
  /-- It has characters. -/
  nonempty : text ≠ ""
  /-- It has no blanks around it. -/
  trimmed : Text.trim text.toList = text.toList
  /-- It is the only statement of itself. -/
  alone : statements text = [text]

theorem IsStatement.of_mem {source text : String} (h : text ∈ statements source) :
    IsStatement text := by
  simp only [statements, List.mem_map, List.mem_filter, Bool.not_eq_true'] at h
  obtain ⟨cs, ⟨⟨p, hp, rfl⟩, hne⟩, rfl⟩ := h
  have hpieces := (uncut_of_mem_pieces hp).trim.pieces_eq
  refine ⟨?_, ?_, ?_⟩
  · rw [ne_eq, ← String.toList_eq_nil_iff, String.toList_ofList]
    exact List.isEmpty_eq_false_iff.mp hne
  · rw [String.toList_ofList, Text.trim_trim]
  · simp [statements, hpieces, Text.trim_trim, hne]

end Resumable.Source
