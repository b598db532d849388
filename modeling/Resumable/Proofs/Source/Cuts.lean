import Resumable.Proofs.Source.Pieces

/-!
# Where a text is cut

Cutting a text takes nothing away but separators, and it takes those on the top level and no others.
The scanner reads on over a cut as if there were none, so that each piece depends, at first sight, on
all the text before it; but wherever a text is cut, the scanner is back at its start.

## The model

* `IsCut`: a separator between two texts is a cut if the pieces of the whole fall into those that
  make up the one text and those that make up the other.

## What is proved

* `intercalate_pieces`: the pieces of a text, joined by the separator, are the text.
* `isCut_iff`: a separator is a cut exactly if the scanner is back at its start before it.
* `pieces_decompose`: pieces are joined to the text again and are not cut themselves, and a text is
  cut at every separator on the top level and at no other one.
* `statements_append`: on the top level, a semicolon divides the statements of a script.
-/

namespace Resumable.Source

variable {separator c : Char} {s : Scanner} {a b : List Char}

/-! ### Joined pieces -/

theorem intercalate_cons_head (separator c : Char) (p : List Char) (ps : List (List Char)) :
    [separator].intercalate ((c :: p) :: ps) = c :: [separator].intercalate (p :: ps) := by
  cases ps with
  | nil => rw [List.intercalate_singleton, List.intercalate_singleton]
  | cons q qs => simp only [List.intercalate_cons_cons, List.cons_append]

theorem intercalate_cut (separator : Char) (cs : List Char) : ∀ s : Scanner,
    [separator].intercalate ((cut separator s cs).1 :: (cut separator s cs).2) = cs := by
  induction cs with
  | nil => exact fun s => List.intercalate_singleton
  | cons c cs ih =>
    intro s
    by_cases h : s.exposes c = true ∧ c = separator
    · obtain ⟨hc, rfl⟩ := h
      rw [cut_of_exposes hc, List.intercalate_cons_cons, ih]
      rfl
    · rw [cut_of_not h, intercalate_cons_head, ih]

/-- The pieces of a text, joined by the separator, are the text. -/
theorem intercalate_pieces (separator : Char) (cs : List Char) :
    [separator].intercalate (pieces separator cs) = cs :=
  intercalate_cut separator cs {}

/-! ### Cuts -/

/-- The separator between two texts is a cut: of the pieces of the whole, the first ones make up the
text before it, and the others make up the text behind it. -/
def IsCut (separator : Char) (a b : List Char) : Prop :=
  ∃ ps qs, ps ≠ [] ∧ qs ≠ [] ∧ pieces separator (a ++ separator :: b) = ps ++ qs ∧
    [separator].intercalate ps = a ∧ [separator].intercalate qs = b

/-- If the first pieces make up a text, the separator behind it is exposed. -/
theorem exposes_of_cut (a : List Char) : ∀ (s : Scanner) (ps qs : List (List Char)), ps ≠ [] →
    (cut separator s (a ++ separator :: b)).1 :: (cut separator s (a ++ separator :: b)).2 =
      ps ++ qs →
    [separator].intercalate ps = a → (s.run a).exposes separator = true := by
  induction a with
  | nil =>
    intro s ps qs hne hcut hjoin
    cases hexposes : (s.run []).exposes separator with
    | true => rfl
    | false =>
      -- The separator would belong to the first piece, which is empty.
      have hidden : ¬ s.exposes separator = true := Bool.eq_false_iff.mp hexposes
      obtain ⟨p, ps, rfl⟩ := List.exists_cons_of_ne_nil hne
      rw [List.nil_append, cut_of_not fun h => hidden h.1, List.cons_append] at hcut
      obtain ⟨rfl, -⟩ := List.cons.inj hcut
      rw [intercalate_cons_head] at hjoin
      cases hjoin
  | cons c a ih =>
    intro s ps qs hne hcut hjoin
    obtain ⟨p, ps, rfl⟩ := List.exists_cons_of_ne_nil hne
    by_cases hc : s.exposes c = true ∧ c = separator
    · obtain ⟨hexposes, rfl⟩ := hc
      rw [List.cons_append, cut_of_exposes hexposes, List.cons_append] at hcut
      obtain ⟨rfl, hrest⟩ := List.cons.inj hcut
      cases ps with
      | nil => simp at hjoin
      | cons q ps =>
        rw [List.intercalate_cons_cons] at hjoin
        exact ih (s.step c) (q :: ps) qs (List.cons_ne_nil q ps) hrest (List.cons.inj hjoin).2
    · rw [List.cons_append, cut_of_not hc, List.cons_append] at hcut
      obtain ⟨rfl, hrest⟩ := List.cons.inj hcut
      rw [intercalate_cons_head] at hjoin
      refine ih (s.step c) (_ :: ps) qs (List.cons_ne_nil _ ps) ?_ (List.cons.inj hjoin).2
      rw [List.cons_append, ← hrest]

/-- A character that is no bracket and no quote is exposed where the scanner is at its start, and
nowhere else. -/
theorem Scanner.exposes_iff_of_isPlain (hc : isPlain c = true) : s.exposes c = true ↔ s = {} := by
  constructor
  · intro h
    have hquote : s.quote = none := by
      simp only [exposes, Bool.and_eq_true, Option.isNone_iff_eq_none] at h
      exact h.1.1
    rw [← step_of_isPlain hquote hc]
    exact step_of_exposes h
  · rintro rfl
    have hq : isQuote c = false := by
      simp only [isPlain, Bool.and_eq_true, Bool.not_eq_true'] at hc
      exact hc.1
    rw [exposes, step_of_isPlain rfl hc, hq]
    rfl

/-- A separator that is no bracket and no quote is a cut exactly if the scanner is back at its start
before it. -/
theorem isCut_iff (hsep : isPlain separator = true) :
    IsCut separator a b ↔ ({} : Scanner).run a = {} := by
  constructor
  · rintro ⟨ps, qs, hps, -, hpieces, hjoin, -⟩
    exact (Scanner.exposes_iff_of_isPlain hsep).mp (exposes_of_cut a {} ps qs hps hpieces hjoin)
  · intro h
    have hexposes := (Scanner.exposes_iff_of_isPlain hsep).mpr rfl
    exact ⟨pieces separator a, pieces separator b, List.cons_ne_nil _ _, List.cons_ne_nil _ _,
      pieces_append hexposes h b, intercalate_pieces separator a, intercalate_pieces separator b⟩

/-- **A text falls into its pieces**: for every separator, the pieces joined by it are the text, and
each of them is its own only piece. A separator that is no bracket and no quote is a cut exactly if
the scanner is back at its start before it, and the pieces are then those of the two sides. -/
theorem pieces_decompose (separator : Char) :
    (∀ cs, [separator].intercalate (pieces separator cs) = cs ∧
        ∀ p ∈ pieces separator cs, pieces separator p = [p]) ∧
      (isPlain separator = true → ∀ a b,
        (IsCut separator a b ↔ ({} : Scanner).run a = {}) ∧
          (({} : Scanner).run a = {} →
            pieces separator (a ++ separator :: b) =
              pieces separator a ++ pieces separator b)) := by
  constructor
  · intro cs
    exact ⟨intercalate_pieces separator cs, fun p hp => (uncut_of_mem_pieces hp).pieces_eq⟩
  · intro hsep a b
    refine ⟨isCut_iff hsep, fun h => ?_⟩
    exact pieces_append ((Scanner.exposes_iff_of_isPlain hsep).mpr rfl) h b

/-- A comma behind a call divides the pieces; one between its arguments does not, and one behind a
stray bracket does not. -/
theorem pieces_decompose_call :
    isPlain ',' = true ∧ ({} : Scanner).run "f('(', [x])".toList = {} ∧
      pieces ',' ("f('(', [x])".toList ++ ',' :: ")z,".toList) =
        ["f('(', [x])".toList, ")z,".toList] ∧
      ¬ IsCut ',' "f('('".toList " [x]),)z,".toList ∧
      ¬ IsCut ',' "f('(', [x]),)z".toList [] := by
  have plain : isPlain ',' = true := by decide
  have closed : ({} : Scanner).run "f('(', [x])".toList = {} := by decide
  have inside : ({} : Scanner).run "f('('".toList ≠ {} := by decide
  have stray : ({} : Scanner).run "f('(', [x]),)z".toList ≠ {} := by decide
  have cuts := (pieces_decompose ',').2 plain
  refine ⟨plain, closed, ?_, fun h => inside ((cuts _ _).1.mp h),
    fun h => stray ((cuts _ _).1.mp h)⟩
  rw [(cuts _ _).2 closed]
  decide

/-! ### Statements -/

/-- On the top level, a semicolon divides the statements of a script. -/
theorem statements_append {first : String} (h : ({} : Scanner).run first.toList = {})
    (second : String) :
    statements (first ++ ";" ++ second) = statements first ++ statements second := by
  have htext : (first ++ ";" ++ second).toList = first.toList ++ ';' :: second.toList := by
    rw [String.toList_append, String.toList_append, List.append_assoc]
    rfl
  simp only [statements, htext, pieces_append (by decide : ({} : Scanner).exposes ';' = true) h,
    List.map_append, List.filter_append]

end Resumable.Source
