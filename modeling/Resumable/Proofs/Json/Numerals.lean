import Mathlib.Data.Nat.Digits.Lemmas
import Resumable.Json.Number
import Resumable.Json.Writer
import Resumable.Proofs.Decimal.Literal

/-!
# JSON numbers as they are written

A JSON number is an optional minus sign, digits of which no zero leads others, an optional fraction
and an optional exponent. Integers and finite binary64 numbers are written in this form, and the
reader takes it back as it stands.

## The model

* `Numeral.Writes`: a text is a number with given parts.
* `EndsNumeral`: what follows cannot belong to a number.

## What is proved

* `numeral?_append`: a written number is read back, with what follows left over.
* `Number.exists_writes`: every integer and every finite number is written in the form of a number.
-/

namespace Resumable

/-! ### Digits of natural numbers -/

namespace Text

theorem isRun_decimal (n : Nat) : Decimal.IsRun (decimal n) :=
  ⟨Nat.toDigits_ne_nil, fun _ hc => Nat.isDigit_of_mem_toDigits (by decide) (by decide) hc⟩

/-- No zero leads the digits of a positive number. -/
theorem head_decimal {n : Nat} (hn : n ≠ 0) : ∃ c cs, decimal n = c :: cs ∧ c ≠ '0' := by
  induction n using Nat.strongRecOn with
  | ind n ih =>
    rw [decimal, Nat.toDigits_eq_if (by decide)]
    split
    · rename_i hlt
      refine ⟨_, [], rfl, ?_⟩
      interval_cases n <;> simp_all
    · obtain ⟨c, cs, heq, hc⟩ := ih (n / 10) (by omega) (by omega)
      rw [decimal] at heq
      exact ⟨c, _, by rw [heq]; rfl, hc⟩

/-- The digits of a number stand for it. -/
theorem ofRun_decimal (n : Nat) : Decimal.ofRun (decimal n) = n := by
  have := Nat.ofDigitChars_toDigits (b := 10) (n := n) (by decide) (by decide)
  simp only [Nat.ofDigitChars, Nat.mul_comm 10] at this
  exact this

end Text

/-! ### Digits of shortest decimals -/

namespace Decimal

variable {tie : Tie} {rank : Nat} {exponent : Int} {d : Decimal}

theorem digits_ne_zero_of_readsBack (h : readsBack rank d = true) (hrank : rank ≠ 0) :
    d.digits ≠ 0 := by
  intro hzero
  rw [readsBack, nearestRank, if_pos hzero, beq_iff_eq] at h
  exact hrank h.symm

theorem readsBack_of_closest? (h : closest? tie rank exponent = some d) :
    readsBack rank d = true := by
  unfold closest? at h
  split at h
  rename_i num den _
  dsimp only at h
  split at h
  · simp at h
  · cases h; assumption
  · cases h; assumption
  · split at h
    · cases h; assumption
    · cases h; assumption
    · cases tie with
      | up => cases h; assumption
      | even =>
        dsimp only at h
        split at h <;> cases h <;> assumption

theorem units_ne_zero (h : rank ≠ 0) : Double.units rank ≠ 0 := by
  unfold Double.units
  split
  · exact h
  · exact Nat.mul_ne_zero (by simp [Double.binade]) (Nat.pow_pos (by decide)).ne'

/-- The shortest decimal of a number that is not zero has digits other than zero. -/
theorem digits_shortest_ne_zero (tie : Tie) (h : rank ≠ 0) : (shortest tie rank).digits ≠ 0 := by
  unfold shortest
  cases hfound : (List.range 24).findSome? fun (n : Nat) =>
      closest? tie rank (coarsest rank - n) with
  | none =>
    have hpow : ∀ k, Nat.pow 5 k ≠ 0 := fun k => (Nat.pow_pos (by decide)).ne'
    exact Nat.mul_ne_zero (units_ne_zero h) (hpow 1074)
  | some d =>
    obtain ⟨n, -, hclosest⟩ := List.exists_of_findSome?_eq_some hfound
    exact digits_ne_zero_of_readsBack (readsBack_of_closest? hclosest) h

end Decimal

namespace Json

open Decimal (IsRun Fraction Scaling isDigit)
open Text (Ends ends_nil ends_cons)

variable {cs rest whole point fraction scaling : List Char} {e : Int} {nm : Numeral}

/-! ### How numbers are written -/

/-- No zero leads other digits. -/
def Unpadded (whole : List Char) : Prop := ∀ rest, whole = '0' :: rest → rest = []

/-- A text is a number with the given parts. -/
inductive Numeral.Writes : List Char → Numeral → Prop where
  /-- The sign, the digits, the fraction and the exponent follow each other. -/
  | mk {whole point fraction scaling : List Char} {e : Int} (negative : Bool) (run : IsRun whole)
      (unpadded : Unpadded whole) (hfraction : Fraction point fraction)
      (hscaling : Scaling scaling e) :
      Writes ((if negative then ['-'] else []) ++ (whole ++ (point ++ scaling)))
        ⟨negative, whole, if point = [] then none else some fraction,
          if scaling = [] then none else some e⟩

/-- What follows cannot belong to a number. -/
abbrev EndsNumeral (rest : List Char) : Prop :=
  Ends (fun c => isDigit c || c == '.' || c == 'e' || c == 'E') rest

theorem EndsNumeral.endsRun (h : EndsNumeral rest) : Decimal.EndsRun rest := by
  intro c hc
  have := h c hc
  simp only [Bool.or_eq_false_iff] at this
  exact this.1.1.1

theorem EndsNumeral.head_ne {c : Char} (h : EndsNumeral (c :: rest)) :
    c ≠ '.' ∧ c ≠ 'e' ∧ c ≠ 'E' := by
  have := h.head
  simp only [Bool.or_eq_false_iff, beq_eq_false_iff_ne] at this
  exact ⟨this.1.1.2, this.1.2, this.2⟩

theorem fraction?_append (hfraction : Fraction point fraction) (hscaling : Scaling scaling e)
    (hrest : EndsNumeral rest) : fraction? (point ++ (scaling ++ rest)) =
      some (if point = [] then none else some fraction, scaling ++ rest) := by
  cases hfraction with
  | none =>
    rw [List.nil_append, if_pos rfl]
    unfold fraction?
    split
    · rename_i after heq
      cases hscaling with
      | none =>
        rw [List.nil_append] at heq
        subst heq
        exact absurd rfl hrest.head_ne.1
      | plain letter | plus letter | minus letter =>
        obtain ⟨rfl, -⟩ := List.cons.inj heq
        exact absurd letter (by decide)
    · rfl
  | point run =>
    have hspan := Decimal.spanDigits_append run (hscaling.endsRun hrest.endsRun)
    obtain ⟨d, ds, rfl, -⟩ := run.cons
    simp only [List.cons_append] at hspan ⊢
    simp [fraction?, hspan]

theorem scaling?_append (hscaling : Scaling scaling e) (hrest : EndsNumeral rest) :
    scaling? (scaling ++ rest) = some (if scaling = [] then none else some e, rest) := by
  by_cases hne : scaling = []
  · subst hne
    rw [List.nil_append, if_pos rfl]
    cases rest with
    | nil => rfl
    | cons c rest => simp [scaling?, hrest.head_ne]
  · have hread := Decimal.exponent?_append hscaling hne hrest.endsRun
    obtain ⟨c, cs, rfl⟩ := List.exists_cons_of_ne_nil hne
    have hletter : c = 'e' ∨ c = 'E' := by cases hscaling <;> assumption
    rw [List.cons_append] at hread ⊢
    simp [scaling?, hletter, hread]

/-- A written number is read back. -/
theorem numeral?_append (h : Numeral.Writes cs nm) (hrest : EndsNumeral rest) :
    numeral? (cs ++ rest) = some (nm, rest) := by
  obtain ⟨negative, run, unpadded, hfraction, hscaling⟩ := h
  rename_i whole point fraction scaling e
  have hspan := Decimal.spanDigits_append run
    (hfraction.endsRun (hscaling.endsRun hrest.endsRun))
  have hpoint := fraction?_append hfraction hscaling hrest
  have hscale := scaling?_append hscaling hrest
  obtain ⟨d, ds, rfl, hd⟩ := run.cons
  have hminus : d ≠ '-' := by rintro rfl; exact absurd hd (by decide)
  simp only [List.append_assoc, List.cons_append] at hspan ⊢
  -- One digit alone may be a zero, the first of several may not.
  cases ds with
  | nil => cases negative <;> simp_all [numeral?]
  | cons d' ds =>
    have hzero : d ≠ '0' := by
      rintro rfl
      exact absurd (unpadded _ rfl) (by simp)
    cases negative <;> simp_all [numeral?]

/-! ### How numbers are rendered -/

/-- A text is a number without a sign. -/
def IsMagnitude (cs : List Char) : Prop :=
  ∃ whole point fraction scaling e, cs = whole ++ (point ++ scaling) ∧ IsRun whole ∧
    Unpadded whole ∧ Fraction point fraction ∧ Scaling scaling e

theorem IsMagnitude.exists_writes (h : IsMagnitude cs) (negative : Bool) :
    ∃ nm, Numeral.Writes ((if negative then ['-'] else []) ++ cs) nm := by
  obtain ⟨whole, point, fraction, scaling, e, rfl, run, unpadded, hfraction, hscaling⟩ := h
  exact ⟨_, .mk negative run unpadded hfraction hscaling⟩

theorem unpadded_singleton (c : Char) : Unpadded [c] := by
  intro rest h
  exact (List.cons.inj h).2.symm

theorem unpadded_cons {c : Char} (h : c ≠ '0') (cs : List Char) : Unpadded (c :: cs) := by
  intro rest heq
  exact absurd (List.cons.inj heq).1 h

theorem unpadded_decimal (n : Nat) : Unpadded (Text.decimal n) := by
  by_cases hn : n = 0
  · subst hn
    exact unpadded_singleton '0'
  · obtain ⟨c, cs, heq, hc⟩ := Text.head_decimal hn
    rw [heq]
    exact unpadded_cons hc cs

theorem isMagnitude_decimal (n : Nat) : IsMagnitude (Text.decimal n) :=
  ⟨_, [], [], [], 0, by simp, Text.isRun_decimal n, unpadded_decimal n, .none, .none⟩

theorem isRun_zero : IsRun ['0'] := Decimal.isRun_singleton (by decide)

theorem isRun_append {ds : List Char} (hcs : IsRun cs) (hds : ∀ c ∈ ds, isDigit c = true) :
    IsRun (cs ++ ds) := by
  refine ⟨by simp [hcs.nonempty], fun c hc => ?_⟩
  rcases List.mem_append.mp hc with hc | hc
  · exact hcs.digits c hc
  · exact hds c hc

theorem isDigit_replicate (n : Nat) : ∀ c ∈ List.replicate n '0', isDigit c = true := by
  intro c hc
  rw [List.eq_of_mem_replicate hc]
  decide

/-- A decimal whose digits are led by no zero is written positionally as a number. -/
theorem isMagnitude_positional {d : Decimal} (hd : d.digits ≠ 0) :
    IsMagnitude (d.positional true) := by
  have hrun := Text.isRun_decimal d.digits
  obtain ⟨c, cs, heq, hc⟩ := Text.head_decimal hd
  have hlen : ((c :: cs).length : Int) + d.exponent = d.pointAfter := by
    rw [Decimal.pointAfter, heq]
  rw [heq] at hrun
  unfold Decimal.positional
  rw [heq]
  dsimp only
  split
  · -- The point stands behind the digits and the zeros that fill them up.
    refine ⟨c :: cs ++ List.replicate d.exponent.toNat '0', ['.', '0'], ['0'], [], 0, by simp,
      isRun_append hrun (isDigit_replicate _), unpadded_cons hc _,
      .point isRun_zero, .none⟩
  · split
    · -- The point stands among the digits.
      rename_i hexponent hpoint
      obtain ⟨k, hk⟩ : ∃ k, d.pointAfter.toNat = k + 1 := ⟨d.pointAfter.toNat - 1, by omega⟩
      simp only [List.length_cons] at hlen
      have hdrop : cs.drop k ≠ [] := by
        rw [ne_eq, List.drop_eq_nil_iff]
        omega
      rw [hk, List.take_succ_cons, List.drop_succ_cons]
      refine ⟨c :: cs.take k, '.' :: cs.drop k, cs.drop k, [], 0, by simp,
        ⟨by simp, fun x hx => hrun.digits x ?_⟩, unpadded_cons hc _,
        .point ⟨hdrop, fun x hx => hrun.digits x ?_⟩, .none⟩
      · rcases List.mem_cons.mp hx with rfl | hx
        · simp
        · simp [List.mem_of_mem_take hx]
      · simp [List.mem_of_mem_drop hx]
    · -- Zeros stand between the point and the digits.
      refine ⟨['0'], '.' :: (List.replicate (-d.pointAfter).toNat '0' ++ c :: cs), _, [], 0,
        by simp, isRun_zero, unpadded_singleton '0', .point ⟨by simp, fun x hx => ?_⟩, .none⟩
      rcases List.mem_append.mp hx with hx | hx
      · exact isDigit_replicate _ x hx
      · exact hrun.digits x hx

theorem isMagnitude_scientific (d : Decimal) : IsMagnitude d.scientific := by
  have hrun := Text.isRun_decimal d.digits
  obtain ⟨c, cs, heq⟩ := List.exists_cons_of_ne_nil hrun.nonempty
  rw [heq] at hrun
  have hc : isDigit c = true := hrun.digits c (by simp)
  have hpower := Text.isRun_decimal (d.pointAfter - 1).natAbs
  obtain ⟨e, hscaling⟩ : ∃ e, Scaling ('e' :: (if d.pointAfter - 1 < 0 then '-' else '+') ::
      Text.decimal (d.pointAfter - 1).natAbs) e := by
    split
    · exact ⟨_, .minus (.inl rfl) hpower⟩
    · exact ⟨_, .plus (.inl rfl) hpower⟩
  have hfirst : IsRun [c] := Decimal.isRun_singleton hc
  have hsplit : (c :: cs).splitAt 1 = ([c], cs) := by simp [List.splitAt_eq]
  simp only [Decimal.scientific, heq, hsplit]
  cases cs with
  | nil => exact ⟨[c], [], [], _, e, rfl, hfirst, unpadded_singleton c, .none, hscaling⟩
  | cons d ds =>
    have hothers : IsRun (d :: ds) :=
      ⟨by simp, fun x hx => hrun.digits x (List.mem_cons_of_mem _ hx)⟩
    exact ⟨[c], '.' :: d :: ds, d :: ds, _, e, by simp, hfirst, unpadded_singleton c,
      .point hothers, hscaling⟩

/-- Every finite magnitude is written as a number. -/
theorem isMagnitude_render (rank : Nat) : IsMagnitude (renderMagnitude rank) := by
  unfold renderMagnitude
  split
  · exact ⟨['0'], ['.', '0'], ['0'], [], 0, rfl, isRun_zero, unpadded_singleton '0',
      .point isRun_zero, .none⟩
  · rename_i hrank
    dsimp only
    split
    · exact isMagnitude_positional (Decimal.digits_shortest_ne_zero .even hrank)
    · exact isMagnitude_scientific _

/-- Whether a number is an integer or finite. -/
def Number.isFinite : Number → Bool
  | .integer _ => true
  | .float x => x.isFinite

/-- **Every integer and every finite number is written in the form of a number.** -/
theorem Number.exists_writes {n : Number} (h : n.isFinite = true) :
    ∃ nm, Numeral.Writes n.render nm := by
  cases n with
  | integer n =>
    obtain ⟨nm, hnm⟩ := (isMagnitude_decimal n.natAbs).exists_writes (decide (n < 0))
    exact ⟨nm, by simpa [Number.render, renderInteger] using hnm⟩
  | float x =>
    cases x with
    | finite negative rank => exact (isMagnitude_render rank).exists_writes negative
    | nan | infinity => simp [Number.isFinite, Double.isFinite] at h

end Json

end Resumable
