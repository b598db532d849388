import Resumable.Proofs.Source.Cuts

/-!
# Statements are settled

A script is cut into pieces, the pieces lose the blanks around them, and empty ones are left out.
What remains does not change any more: joined by semicolons, the statements of a script are cut into
the same statements. A script may leave brackets or a string open; what is folded into one piece by
them is the end of the script, so that no other statement is touched.

## The model

* `OpenLast`: of some texts only the last one may leave the scanner elsewhere than at its start.
* `IsSettled`: each text is a statement and cannot be cut, and only the last one may be left open.

## What is proved

* `Scanner.run_trim`: the blanks around a text are nothing to the scanner.
* `openLast_pieces`: every piece but the last one leaves the scanner at its start.
* `statements_intercalate`: settled texts are the statements of the script that joins them.
* `statements_normal`: the statements of a script are settled, and what a script leaves open is its
  last statement.
-/

namespace Resumable.Source

variable {separator c : Char} {s : Scanner} {cs : List Char}

/-! ### Blanks -/

namespace Scanner

/-- Inside a string, the scanner waits for one of the three quotes. -/
def AwaitsQuote (s : Scanner) : Prop := ∀ q ∈ s.quote, isQuote q = true

theorem awaitsQuote_start : ({} : Scanner).AwaitsQuote := by
  intro q hq
  cases hq

theorem AwaitsQuote.step (h : s.AwaitsQuote) (c : Char) : (s.step c).AwaitsQuote := by
  intro q hq
  unfold Scanner.step at hq
  split at hq
  · split at hq
    · cases hq
    · exact h q hq
  · rename_i hquote
    split at hq
    · rename_i hc
      obtain rfl : c = q := by simpa using hq
      exact hc
    · rw [count_quote, hquote] at hq
      cases hq

theorem AwaitsQuote.run (h : s.AwaitsQuote) (cs : List Char) : (s.run cs).AwaitsQuote := by
  induction cs generalizing s with
  | nil => exact h
  | cons c cs ih => exact ih (h.step c)

theorem step_of_isBlank (h : s.AwaitsQuote) (hc : Text.isBlank c = true) : s.step c = s := by
  have hplain := isPlain_of_isBlank hc
  cases hquote : s.quote with
  | none => exact step_of_isPlain hquote hplain
  | some q =>
    have hne : c ≠ q := by
      rintro rfl
      simp [isPlain, h c hquote] at hplain
    simp [step, hquote, hne]

theorem run_of_isBlank (h : s.AwaitsQuote) (hcs : ∀ c ∈ cs, Text.isBlank c = true) :
    s.run cs = s := by
  induction cs with
  | nil => rfl
  | cons c cs ih =>
    rw [run_cons, step_of_isBlank h (hcs c (List.mem_cons_self ..))]
    exact ih fun d hd => hcs d (List.mem_cons_of_mem c hd)

/-- The blanks around a text are nothing to the scanner, not even inside a string that the text
leaves open. -/
theorem run_trim (cs : List Char) : ({} : Scanner).run (Text.trim cs) = ({} : Scanner).run cs := by
  obtain ⟨lead, trail, hlead, htrail, hcs⟩ := Text.exists_trim cs
  calc ({} : Scanner).run (Text.trim cs)
    _ = (({} : Scanner).run (Text.trim cs)).run trail :=
      (run_of_isBlank (awaitsQuote_start.run _) htrail).symm
    _ = ((({} : Scanner).run lead).run (Text.trim cs)).run trail := by
      rw [run_of_isBlank awaitsQuote_start hlead]
    _ = ({} : Scanner).run cs := by rw [← run_append, ← run_append, ← hcs]

end Scanner

/-! ### What is left open -/

/-- Of some texts only the last one may leave the scanner elsewhere than at its start. -/
def OpenLast (texts : List (List Char)) : Prop :=
  ∀ cs ∈ texts.dropLast, ({} : Scanner).run cs = {}

theorem openLast_cons {p : List Char} {ps : List (List Char)}
    (hp : ps ≠ [] → ({} : Scanner).run p = {}) (hps : OpenLast ps) : OpenLast (p :: ps) := by
  cases ps with
  | nil => exact fun cs hcs => absurd hcs List.not_mem_nil
  | cons q ps =>
    intro cs hcs
    rw [List.dropLast_cons_of_ne_nil (List.cons_ne_nil q ps)] at hcs
    rcases List.mem_cons.mp hcs with rfl | hcs
    · exact hp (List.cons_ne_nil q ps)
    · exact hps cs hcs

/-- A piece with others behind it leaves the scanner at its start; the first one is read from the
state in which cutting began. -/
theorem openLast_cut (hsep : isPlain separator = true) (cs : List Char) : ∀ s : Scanner,
    ((cut separator s cs).2 ≠ [] → s.run (cut separator s cs).1 = {}) ∧
      OpenLast (cut separator s cs).2 := by
  induction cs with
  | nil => exact fun s => ⟨fun h => absurd rfl h, fun cs hcs => absurd hcs List.not_mem_nil⟩
  | cons c cs ih =>
    intro s
    obtain ⟨hfirst, hothers⟩ := ih (s.step c)
    by_cases h : s.exposes c = true ∧ c = separator
    · obtain ⟨hc, rfl⟩ := h
      rw [cut_of_exposes hc]
      rw [Scanner.step_of_exposes hc] at hfirst hothers ⊢
      exact ⟨fun _ => (Scanner.exposes_iff_of_isPlain hsep).mp hc, openLast_cons hfirst hothers⟩
    · rw [cut_of_not h]
      exact ⟨hfirst, hothers⟩

/-- Every piece but the last one leaves the scanner at its start. -/
theorem openLast_pieces (hsep : isPlain separator = true) (cs : List Char) :
    OpenLast (pieces separator cs) :=
  openLast_cons (openLast_cut hsep cs {}).1 (openLast_cut hsep cs {}).2

theorem OpenLast.map_trim {texts : List (List Char)} (h : OpenLast texts) :
    OpenLast (texts.map Text.trim) := by
  intro cs hcs
  rw [← List.map_dropLast] at hcs
  obtain ⟨p, hp, rfl⟩ := List.mem_map.mp hcs
  rw [Scanner.run_trim]
  exact h p hp

/-- Leaving texts out, even the last one, keeps the others closed. -/
theorem OpenLast.filter {texts : List (List Char)} (h : OpenLast texts) (keep : List Char → Bool) :
    OpenLast (texts.filter keep) := by
  rcases List.eq_nil_or_concat texts with rfl | ⟨before, last, rfl⟩
  · exact h
  rw [List.concat_eq_append] at h ⊢
  intro cs hcs
  have hmem : cs ∈ before.filter keep := by
    rw [List.filter_append] at hcs
    cases hlast : keep last with
    | true =>
      rwa [List.filter_cons_of_pos hlast, List.filter_nil, List.dropLast_concat] at hcs
    | false =>
      rw [List.filter_cons_of_neg (by simp [hlast]), List.filter_nil, List.append_nil] at hcs
      exact (List.dropLast_sublist _).subset hcs
  refine h cs ?_
  rw [List.dropLast_concat]
  exact (List.mem_filter.mp hmem).1

/-- Behind texts that leave the scanner at its start, with separators between them all, a text is read
as if it stood alone. -/
theorem run_intercalate (hsep : isPlain separator = true) (last : List Char)
    {before : List (List Char)} (h : ∀ cs ∈ before, ({} : Scanner).run cs = {}) :
    ({} : Scanner).run ([separator].intercalate (before ++ [last])) = ({} : Scanner).run last := by
  induction before with
  | nil => rw [List.nil_append, List.intercalate_singleton]
  | cons cs before ih =>
    have hrest := ih fun ds hds => h ds (List.mem_cons_of_mem cs hds)
    have hne : before ++ [last] ≠ [] := by simp
    obtain ⟨d, ds, hds⟩ := List.exists_cons_of_ne_nil hne
    rw [hds] at hrest
    rw [List.cons_append, hds, List.intercalate_cons_cons, Scanner.run_append, Scanner.run_append,
      h cs (List.mem_cons_self ..), Scanner.run_cons, Scanner.step_of_isPlain rfl hsep]
    exact hrest

/-- What a text leaves open, its last piece leaves open. -/
theorem run_last_piece (hsep : isPlain separator = true) {before : List (List Char)}
    {last : List Char} (h : pieces separator cs = before ++ [last]) :
    ({} : Scanner).run last = ({} : Scanner).run cs := by
  have hopen := openLast_pieces hsep cs
  rw [OpenLast, h, List.dropLast_concat] at hopen
  rw [← run_intercalate hsep last hopen, ← h, intercalate_pieces]

/-! ### Statements -/

theorem toList_statements (source : String) : (statements source).map String.toList =
    ((pieces ';' source.toList).map Text.trim).filter (!·.isEmpty) := by
  rw [statements, List.map_map]
  exact List.map_id'' (fun cs => String.toList_ofList) _

/-- Texts that are the statements of the script that joins them. -/
structure IsSettled (texts : List String) : Prop where
  /-- Each text is a statement and no more. -/
  each : ∀ text ∈ texts, IsStatement text
  /-- No text shows a semicolon. -/
  uncut : ∀ text ∈ texts, Uncut ';' {} text.toList
  /-- Every text but the last one leaves the scanner at its start. -/
  closed : ∀ text ∈ texts.dropLast, ({} : Scanner).run text.toList = {}

theorem isSettled_statements (source : String) : IsSettled (statements source) where
  each text h := IsStatement.of_mem h
  uncut text h := by
    have hmem := List.mem_map_of_mem (f := String.toList) h
    rw [toList_statements] at hmem
    obtain ⟨p, hp, htrim⟩ := List.mem_map.mp (List.mem_filter.mp hmem).1
    rw [← htrim]
    exact (uncut_of_mem_pieces hp).trim
  closed text h := by
    have hopen := (openLast_pieces (by decide : isPlain ';' = true) source.toList).map_trim.filter
      (!·.isEmpty)
    rw [← toList_statements, OpenLast, ← List.map_dropLast] at hopen
    exact hopen _ (List.mem_map_of_mem h)

/-- Settled texts are the statements of the script that joins them. -/
theorem statements_intercalate {texts : List String} (h : IsSettled texts) :
    statements (";".intercalate texts) = texts := by
  have hpieces : texts ≠ [] → pieces ';' (";".intercalate texts).toList =
      texts.map String.toList := by
    intro hne
    rw [String.toList_intercalate]
    refine pieces_intercalate_of_dropLast (by decide) (by simpa using hne) ?_ ?_
    · intro cs hcs
      obtain ⟨text, htext, rfl⟩ := List.mem_map.mp hcs
      exact h.uncut text htext
    · intro cs hcs
      rw [← List.map_dropLast] at hcs
      obtain ⟨text, htext, rfl⟩ := List.mem_map.mp hcs
      exact h.closed text htext
  cases texts with
  | nil => rfl
  | cons text texts =>
    -- Trimming and leaving out empty texts changes nothing.
    have htrim : ((text :: texts).map String.toList).map Text.trim =
        (text :: texts).map String.toList := by
      rw [List.map_map]
      exact List.map_congr_left fun t ht => (h.each t ht).trimmed
    have hkeep : ((text :: texts).map String.toList).filter (!·.isEmpty) =
        (text :: texts).map String.toList := by
      refine List.filter_eq_self.mpr fun cs hcs => ?_
      obtain ⟨t, ht, rfl⟩ := List.mem_map.mp hcs
      simpa using (h.each t ht).nonempty
    rw [statements, hpieces (List.cons_ne_nil text texts), htrim, hkeep, List.map_map]
    exact List.map_id'' (fun t => String.ofList_toList) _

/-- What a script leaves open is folded into its last statement. -/
theorem statements_concat {source : String} {before : List (List Char)} {last : List Char}
    (h : pieces ';' source.toList = before ++ [last])
    (hopen : ({} : Scanner).run source.toList ≠ {}) :
    ∃ texts, statements source = texts ++ [String.ofList (Text.trim last)] := by
  have hne : Text.trim last ≠ [] := by
    intro hnil
    rw [← run_last_piece (by decide) h, ← Scanner.run_trim, hnil] at hopen
    exact hopen rfl
  refine ⟨((before.map Text.trim).filter (!·.isEmpty)).map String.ofList, ?_⟩
  rw [statements, h, List.map_append, List.filter_append, List.map_append]
  simp [hne]

/-- **The statements of a script are settled**: each has characters, has no blanks around it and is
the only statement of itself; and joined by semicolons they are cut into the same statements. Only
the last one may leave brackets or a string open. If the script leaves any open, the last statement
is what stands behind the last cut, and it leaves the same ones open. -/
theorem statements_normal (source : String) :
    (∀ text ∈ statements source, IsStatement text) ∧
      statements (";".intercalate (statements source)) = statements source ∧
      (∀ text ∈ (statements source).dropLast, ({} : Scanner).run text.toList = {}) ∧
      (({} : Scanner).run source.toList ≠ {} → ∃ texts before last,
        pieces ';' source.toList = before ++ [last] ∧
          statements source = texts ++ [String.ofList (Text.trim last)] ∧
          ({} : Scanner).run (Text.trim last) = ({} : Scanner).run source.toList) := by
  have settled := isSettled_statements source
  refine ⟨settled.each, statements_intercalate settled, settled.closed, fun hopen => ?_⟩
  obtain ⟨before, last, hpieces⟩ : ∃ before last,
      pieces ';' source.toList = before ++ [last] := by
    rcases List.eq_nil_or_concat (pieces ';' source.toList) with hnil | ⟨before, last, hconcat⟩
    · exact absurd hnil (List.cons_ne_nil _ _)
    · exact ⟨before, last, by rw [hconcat, List.concat_eq_append]⟩
  obtain ⟨texts, htexts⟩ := statements_concat hpieces hopen
  refine ⟨texts, before, last, hpieces, htexts, ?_⟩
  rw [Scanner.run_trim, run_last_piece (by decide) hpieces]

/-- A bracket and a string that are left open fold the rest of the script, without the blanks behind
it, into the last statement. -/
theorem statements_normal_open :
    ({} : Scanner).run " a ;; f(b; 'c;d  ".toList ≠ {} ∧
      statements " a ;; f(b; 'c;d  " = ["a", "f(b; 'c;d"] ∧
      statements "a;f(b; 'c;d" = ["a", "f(b; 'c;d"] ∧
      ∃ texts before last, pieces ';' " a ;; f(b; 'c;d  ".toList = before ++ [last] ∧
        statements " a ;; f(b; 'c;d  " = texts ++ [String.ofList (Text.trim last)] ∧
        ({} : Scanner).run (Text.trim last) = ({} : Scanner).run " a ;; f(b; 'c;d  ".toList := by
  have hopen : ({} : Scanner).run " a ;; f(b; 'c;d  ".toList ≠ {} := by decide
  have hstatements : statements " a ;; f(b; 'c;d  " = ["a", "f(b; 'c;d"] := by decide +kernel
  obtain ⟨-, hjoined, -, hlast⟩ := statements_normal " a ;; f(b; 'c;d  "
  rw [hstatements] at hjoined
  exact ⟨hopen, hstatements, hjoined, hlast hopen⟩

end Resumable.Source
