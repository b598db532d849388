import Mathlib.Data.List.TakeDrop
import Mathlib.Data.List.TakeWhile
import Resumable.Decimal.Basic

/-!
# Numerals as they are written

A numeral is a run of digits, an optional fraction and an optional exponent. A reader finds it at
the start of a text and takes as much as it can, so that what follows decides where it ends.

## The model

* `IsRun`: a text of digits and nothing else.
* `Fraction`, `Scaling`, `Writes`: how the parts of a numeral are written, and the whole of it.
* `EndsRun`, `EndsLiteral`: what follows cannot belong to a run of digits, or to a numeral.

## What is proved

* `span_append` and `of_span`: a reader that takes characters as long as they are of one kind takes
  exactly the characters of that kind. Names, runs of digits and strings are read so.
* `exponent?_append`, `literal?_append`: a written exponent or numeral is read back, with what
  follows left over.
* `exists_of_exponent?`, `exists_of_literal?`: what is read was written at the start of the text.
-/

namespace Resumable

/-! ### Characters of one kind -/

namespace Text

variable {p : Char → Bool} {cs ds rest : List Char}

/-- What follows does not start with a character of a kind. -/
def Ends (p : Char → Bool) (rest : List Char) : Prop := ∀ c ∈ rest.head?, p c = false

theorem ends_nil : Ends p [] := by simp [Ends]

theorem ends_cons {c : Char} (h : p c = false) (cs : List Char) : Ends p (c :: cs) := by
  simp [Ends, h]

theorem Ends.head {c : Char} (h : Ends p (c :: cs)) : p c = false := h c rfl

theorem span_append (hds : ∀ c ∈ ds, p c = true) (hrest : Ends p rest) :
    (ds ++ rest).span p = (ds, rest) := by
  rw [List.span_eq_takeWhile_dropWhile, List.takeWhile_append_of_pos hds,
    List.dropWhile_append_of_pos hds]
  cases rest with
  | nil => simp
  | cons c rest => simp [hrest.head]

theorem of_span {run : List Char} (h : cs.span p = (run, rest)) :
    cs = run ++ rest ∧ (∀ c ∈ run, p c = true) ∧ Ends p rest := by
  rw [List.span_eq_takeWhile_dropWhile, Prod.mk.injEq] at h
  obtain ⟨rfl, rfl⟩ := h
  refine ⟨(List.takeWhile_append_dropWhile ..).symm, fun c hc => List.mem_takeWhile_imp hc, ?_⟩
  intro c hc
  have := List.head?_dropWhile_not p cs
  rw [Option.mem_def.mp hc] at this
  simpa using this

end Text

namespace Decimal

open Text (Ends ends_nil ends_cons)

variable {cs ds rest : List Char}

/-! ### How numerals are written -/

/-- A text of digits, and not an empty one. -/
structure IsRun (cs : List Char) : Prop where
  /-- There is a digit. -/
  nonempty : cs ≠ []
  /-- There is nothing else. -/
  digits : ∀ c ∈ cs, isDigit c = true

/-- A text is the fraction with some digits, or nothing. -/
inductive Fraction : List Char → List Char → Prop where
  /-- Without a point there are no digits. -/
  | none : Fraction [] []
  /-- The digits stand behind a point. -/
  | point {ds : List Char} (run : IsRun ds) : Fraction ('.' :: ds) ds

/-- A text is an exponent of some value, or nothing. -/
inductive Scaling : List Char → Int → Prop where
  /-- Without a letter the exponent is zero. -/
  | none : Scaling [] 0
  /-- The letter, and the digits right behind it. -/
  | plain {c : Char} {ds : List Char} (letter : c = 'e' ∨ c = 'E') (run : IsRun ds) :
      Scaling (c :: ds) (ofRun ds)
  /-- The letter, a plus sign and the digits. -/
  | plus {c : Char} {ds : List Char} (letter : c = 'e' ∨ c = 'E') (run : IsRun ds) :
      Scaling (c :: '+' :: ds) (ofRun ds)
  /-- The letter, a minus sign and the digits. -/
  | minus {c : Char} {ds : List Char} (letter : c = 'e' ∨ c = 'E') (run : IsRun ds) :
      Scaling (c :: '-' :: ds) (-(ofRun ds : Int))

/-- A text is a numeral of some value: digits, an optional fraction and an optional exponent. -/
inductive Writes : List Char → Decimal → Prop where
  /-- The three parts follow each other. -/
  | mk {whole point fraction scaling : List Char} {exponent : Int} (run : IsRun whole)
      (hfraction : Fraction point fraction) (hscaling : Scaling scaling exponent) :
      Writes (whole ++ (point ++ scaling)) (ofParts whole fraction exponent)

/-! ### Where numerals end -/

/-- What follows cannot belong to a run of digits. -/
abbrev EndsRun (rest : List Char) : Prop := Ends isDigit rest

/-- What follows cannot belong to a numeral: no digit, no letter of an exponent, and no point with a
digit behind it. -/
structure EndsLiteral (rest : List Char) : Prop where
  /-- No digit. -/
  run : EndsRun rest
  /-- No letter of an exponent. -/
  scaling : ∀ c ∈ rest.head?, c ≠ 'e' ∧ c ≠ 'E'
  /-- No point with a digit behind it. -/
  point : ∀ cs, rest = '.' :: cs → EndsRun cs

theorem isDigit_letter {c : Char} (h : c = 'e' ∨ c = 'E') : isDigit c = false := by
  rcases h with rfl | rfl <;> rfl

theorem isRun_singleton {c : Char} (h : isDigit c = true) : IsRun [c] := ⟨by simp, by simpa using h⟩

theorem IsRun.cons (h : IsRun cs) : ∃ d ds, cs = d :: ds ∧ isDigit d = true := by
  obtain ⟨hne, hall⟩ := h
  cases cs with
  | nil => exact absurd rfl hne
  | cons d ds => exact ⟨d, ds, rfl, hall d (List.mem_cons_self ..)⟩

theorem Scaling.endsRun {scaling : List Char} {e : Int} (h : Scaling scaling e)
    (hrest : EndsRun rest) : EndsRun (scaling ++ rest) := by
  cases h with
  | none => exact hrest
  | plain letter run => exact ends_cons (isDigit_letter letter) _
  | plus letter run => exact ends_cons (isDigit_letter letter) _
  | minus letter run => exact ends_cons (isDigit_letter letter) _

theorem Fraction.endsRun {point fraction : List Char} (h : Fraction point fraction)
    (hrest : EndsRun rest) : EndsRun (point ++ rest) := by
  cases h with
  | none => exact hrest
  | point run => exact ends_cons rfl _

/-! ### Reading what is written -/

theorem spanDigits_append (hds : IsRun ds) (hrest : EndsRun rest) :
    spanDigits (ds ++ rest) = (ds, rest) := Text.span_append hds.digits hrest

theorem of_spanDigits {run : List Char} (h : spanDigits cs = (run, rest)) (hne : run ≠ []) :
    cs = run ++ rest ∧ IsRun run ∧ EndsRun rest := by
  obtain ⟨hcs, hrun, hrest⟩ := Text.of_span h
  exact ⟨hcs, ⟨hne, hrun⟩, hrest⟩

theorem spanDigits_of_ends (h : EndsRun cs) : spanDigits cs = ([], cs) :=
  (Text.span_append (List.forall_mem_nil _) h : ([] ++ cs).span isDigit = ([], cs))

/-- A written exponent is read back. -/
theorem exponent?_append {scaling : List Char} {e : Int} (h : Scaling scaling e)
    (hne : scaling ≠ []) (hrest : EndsRun rest) :
    exponent? (scaling ++ rest) = some (e, rest) := by
  cases h with
  | none => exact absurd rfl hne
  | plain letter run =>
    have hspan := spanDigits_append run hrest
    -- The digit right behind the letter is no sign.
    obtain ⟨d, ds, rfl, hd⟩ := run.cons
    have hplus : d ≠ '+' := by rintro rfl; exact absurd hd (by decide)
    have hminus : d ≠ '-' := by rintro rfl; exact absurd hd (by decide)
    rw [List.cons_append] at hspan
    simp [exponent?, letter, hplus, hminus, hspan]
  | plus letter run =>
    have hspan := spanDigits_append run hrest
    obtain ⟨d, ds, rfl, hd⟩ := run.cons
    rw [List.cons_append] at hspan
    simp [exponent?, letter, hspan]
  | minus letter run =>
    have hspan := spanDigits_append run hrest
    obtain ⟨d, ds, rfl, hd⟩ := run.cons
    rw [List.cons_append] at hspan
    simp [exponent?, letter, hspan]

/-- An exponent that is read was written at the start of the text. -/
theorem exists_of_exponent? {e : Int} (h : exponent? cs = some (e, rest)) :
    ∃ scaling, cs = scaling ++ rest ∧ Scaling scaling e ∧ EndsRun rest := by
  unfold exponent? at h
  split at h
  · rename_i c cs
    split at h
    · rename_i letter
      split at h
      rename_i negative tail hsign
      split at h
      · simp at h
      · rename_i run rest' hne hspan
        simp only [Option.some.injEq, Prod.mk.injEq] at h
        obtain ⟨rfl, rfl⟩ := h
        obtain ⟨rfl, hrun, hends⟩ := of_spanDigits hspan hne
        split at hsign
        · obtain ⟨rfl, rfl⟩ := Prod.mk.inj hsign
          exact ⟨c :: '+' :: run, rfl, .plus letter hrun, hends⟩
        · obtain ⟨rfl, rfl⟩ := Prod.mk.inj hsign
          exact ⟨c :: '-' :: run, rfl, .minus letter hrun, hends⟩
        · obtain ⟨rfl, rfl⟩ := Prod.mk.inj hsign
          exact ⟨c :: run, rfl, .plain letter hrun, hends⟩
    · simp at h
  · simp at h

/-- Where no letter of an exponent stands, no exponent is read. -/
theorem exponent?_eq_none (h : ∀ c ∈ cs.head?, c ≠ 'e' ∧ c ≠ 'E') : exponent? cs = none := by
  cases cs with
  | nil => rfl
  | cons c cs =>
    obtain ⟨h1, h2⟩ := h c rfl
    simp [exponent?, h1, h2]

/-- The exponent that `literal?` takes: the written one, and zero if none is written. -/
theorem exponent?_scaling {scaling : List Char} {e : Int} (h : Scaling scaling e)
    (hrest : EndsLiteral rest) :
    exponent? (scaling ++ rest) = some (e, rest) ∨
      exponent? (scaling ++ rest) = none ∧ scaling = [] ∧ e = 0 := by
  by_cases hne : scaling = []
  · subst hne
    cases h
    exact .inr ⟨exponent?_eq_none hrest.scaling, rfl, rfl⟩
  · exact .inl (exponent?_append h hne hrest.run)

/-- The fraction that `literal?` takes: the written one, and no digits if none is written. -/
theorem takeFraction_append {point fraction tail : List Char} (h : Fraction point fraction)
    (htail : EndsRun tail) (hpoint : ∀ after, tail = '.' :: after → EndsRun after) :
    takeFraction (point ++ tail) = (fraction, tail) := by
  cases h with
  | none =>
    rw [List.nil_append, takeFraction.eq_def]
    split
    · rename_i after
      rw [spanDigits_of_ends (hpoint after rfl)]
    · rfl
  | point run =>
    have hspan := spanDigits_append run htail
    obtain ⟨d, ds, rfl, -⟩ := run.cons
    rw [List.cons_append] at hspan
    simp [takeFraction, hspan]

theorem exists_of_takeFraction {fraction : List Char} (h : takeFraction cs = (fraction, rest)) :
    ∃ point, cs = point ++ rest ∧ Fraction point fraction := by
  unfold takeFraction at h
  split at h
  · split at h
    · obtain ⟨rfl, rfl⟩ := Prod.mk.inj h
      exact ⟨[], rfl, .none⟩
    · rename_i run after hne hspan
      obtain ⟨rfl, rfl⟩ := Prod.mk.inj h
      obtain ⟨rfl, hrun, -⟩ := of_spanDigits hspan hne
      exact ⟨'.' :: run, rfl, .point hrun⟩
  · obtain ⟨rfl, rfl⟩ := Prod.mk.inj h
    exact ⟨[], rfl, .none⟩

/-- A written numeral is read back. -/
theorem literal?_append {text : List Char} {d : Decimal} (h : Writes text d)
    (hrest : EndsLiteral rest) : literal? (text ++ rest) = some (d, rest) := by
  obtain ⟨run, hfraction, hscaling⟩ := h
  rename_i whole point fraction scaling exponent
  have htail : EndsRun (scaling ++ rest) := hscaling.endsRun hrest.run
  have hwhole : spanDigits (whole ++ (point ++ scaling) ++ rest) =
      (whole, point ++ (scaling ++ rest)) := by
    rw [List.append_assoc, List.append_assoc]
    exact spanDigits_append run (hfraction.endsRun htail)
  have hpoint : takeFraction (point ++ (scaling ++ rest)) = (fraction, scaling ++ rest) := by
    refine takeFraction_append hfraction htail fun after hafter => ?_
    cases hscaling with
    | none => exact hrest.point after hafter
    | plain letter | plus letter | minus letter =>
      obtain ⟨rfl, -⟩ := List.cons.inj hafter
      exact absurd letter (by decide)
  obtain ⟨w, ws, rfl, -⟩ := run.cons
  simp only [literal?, hwhole, hpoint]
  rcases exponent?_scaling hscaling hrest with he | ⟨he, rfl, rfl⟩
  · rw [he]
  · rw [he, List.nil_append]

/-- A numeral that is read was written at the start of the text. -/
theorem exists_of_literal? {d : Decimal} (h : literal? cs = some (d, rest)) :
    ∃ text, cs = text ++ rest ∧ Writes text d := by
  unfold literal? at h
  split at h
  · simp at h
  · rename_i whole tail hne hspan
    obtain ⟨rfl, hrun, -⟩ := of_spanDigits hspan hne
    split at h
    rename_i fraction tail' htaken
    obtain ⟨point, rfl, hfraction⟩ := exists_of_takeFraction htaken
    split at h
    · rename_i e rest' he
      simp only [Option.some.injEq, Prod.mk.injEq] at h
      obtain ⟨rfl, rfl⟩ := h
      obtain ⟨scaling, rfl, hscaling, -⟩ := exists_of_exponent? he
      exact ⟨whole ++ (point ++ scaling), by simp, .mk hrun hfraction hscaling⟩
    · simp only [Option.some.injEq, Prod.mk.injEq] at h
      obtain ⟨rfl, rfl⟩ := h
      exact ⟨whole ++ (point ++ []), by simp, .mk hrun hfraction .none⟩

end Decimal

end Resumable
