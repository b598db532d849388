import Mathlib.Algebra.Order.Field.Basic
import Mathlib.Algebra.Order.Ring.Rat
import Mathlib.Order.Monotone.Basic
import Mathlib.Tactic.Linarith
import Mathlib.Tactic.Ring
import Resumable.Double.Basic

/-!
# Rounding to the nearest number

The rank that `nearestRank` finds is the nearest one: no other magnitude is closer to the exact
quotient, and where two are equally close the rank is even. A magnitude is therefore its own
nearest one, and the integers that are binary64 numbers convert without loss.

## The model

* `gap`: how far a magnitude is from a quotient of units, times the denominator.
* `IsNearestRank`: no rank is closer to a quotient, and a tie goes to the even rank.
* `rational?`: the rational number a finite number is.
* `IsNearest`: no finite number is closer to a rational number, and a tie goes to the even rank.

## What is proved

* `strictMono_units`: ranks are in the order of their magnitudes.
* `isNearestRank`: `nearestRank` finds the nearest rank, and `nearestRank_units` that it finds the
  rank of a magnitude.
* `isNearest_ofNat`: `ofNat` gives the number nearest to a natural number.
* `ofInt_of_toInt?`: a number that is an integer is what the integer converts to, up to the sign of
  zero.
-/

namespace Resumable.Double

variable {num den rank shift significand : Nat}

/-! ### Ranks in the order of their magnitudes -/

theorem binade_pos : 0 < binade := Nat.pow_pos (by decide)

/-- A significand in a binade names the magnitude that its shift makes of it. The spacing is one
below the first two binades too, so there the significand may be smaller. The significand that
opens the next binade is included. -/
theorem units_shifted (hlow : shift = 0 ∨ binade ≤ significand)
    (hhigh : significand ≤ 2 * binade) :
    units (shift * binade + significand) = significand * 2 ^ shift := by
  have hpos := binade_pos
  have hdiv : ∀ e f, f < binade → (e * binade + f) / binade = e ∧ (e * binade + f) % binade = f := by
    intro e f hf
    rw [Nat.add_comm, Nat.add_mul_div_right _ _ hpos, Nat.add_mul_mod_self_right,
      Nat.div_eq_of_lt hf, Nat.mod_eq_of_lt hf]
    exact ⟨Nat.zero_add e, rfl⟩
  unfold units
  split
  · rename_i hlt
    obtain rfl : shift = 0 := by
      by_contra hne
      obtain ⟨k, rfl⟩ := Nat.exists_eq_succ_of_ne_zero hne
      rw [Nat.succ_mul] at hlt
      omega
    simp
  · rename_i hle
    by_cases htop : significand = 2 * binade
    · have heq : shift * binade + significand = (shift + 2) * binade + 0 := by
        rw [Nat.add_mul]
        omega
      obtain ⟨h1, h2⟩ := hdiv (shift + 2) 0 hpos
      rw [heq, h1, h2, htop]
      show (binade + 0) * 2 ^ (shift + 1) = 2 * binade * 2 ^ shift
      ring
    · have hbinade : binade ≤ significand := by
        rcases hlow with rfl | h
        · rw [Nat.zero_mul] at hle
          omega
        · exact h
      have heq : shift * binade + significand =
          (shift + 1) * binade + (significand - binade) := by
        rw [Nat.add_mul]
        omega
      obtain ⟨h1, h2⟩ := hdiv (shift + 1) (significand - binade) (by omega)
      rw [heq, h1, h2, Nat.add_sub_cancel, Nat.add_sub_cancel' hbinade]
      rfl

theorem exists_shifted (rank : Nat) : ∃ shift significand,
    rank = shift * binade + significand ∧ (shift = 0 ∨ binade ≤ significand) ∧
      significand < 2 * binade := by
  by_cases h : rank < 2 * binade
  · exact ⟨0, rank, by simp, .inl rfl, h⟩
  · have hlt := Nat.mod_lt rank binade_pos
    have hdiv := Nat.div_add_mod' rank binade
    obtain ⟨k, hk⟩ : ∃ k, rank / binade = k + 1 := by
      apply Nat.exists_eq_succ_of_ne_zero
      intro hzero
      rw [hzero, Nat.zero_mul] at hdiv
      omega
    refine ⟨k, binade + rank % binade, ?_, .inr (Nat.le_add_right ..), by omega⟩
    rw [hk, Nat.add_mul] at hdiv
    omega

/-- Ranks are in the order of their magnitudes. -/
theorem strictMono_units : StrictMono units := by
  apply strictMono_nat_of_lt_succ
  intro rank
  obtain ⟨shift, significand, rfl, hlow, hhigh⟩ := exists_shifted rank
  rw [Nat.add_assoc, units_shifted hlow hhigh.le, units_shifted (by omega) hhigh]
  exact Nat.mul_lt_mul_of_pos_right (Nat.lt_succ_self _) (Nat.two_pow_pos _)

/-! ### The nearest rank -/

/-- How far a magnitude is from `num / den` units, times `den`. -/
def gap (num den magnitude : Nat) : Nat := ((magnitude * den : Nat) - num : Int).natAbs

/-- No rank is closer to `num / den` units, and if another one is as close, the rank is even. -/
structure IsNearestRank (num den rank : Nat) : Prop where
  /-- No magnitude is closer. -/
  nearest : ∀ other, gap num den (units rank) ≤ gap num den (units other)
  /-- A tie goes to the even rank. -/
  even : ∀ other, other ≠ rank → gap num den (units other) = gap num den (units rank) →
    rank % 2 = 0

/-- Below the quotient, the larger of two magnitudes is closer. -/
theorem gap_lt_of_le {a b : Nat} (hden : 0 < den) (hab : a < b) (hb : b * den ≤ num) :
    gap num den b < gap num den a := by
  have := Nat.mul_lt_mul_of_pos_right hab hden
  unfold gap
  omega

/-- Above the quotient, the smaller of two magnitudes is closer. -/
theorem gap_lt_of_ge {a b : Nat} (hden : 0 < den) (hab : a < b) (ha : num ≤ a * den) :
    gap num den a < gap num den b := by
  have := Nat.mul_lt_mul_of_pos_right hab hden
  unfold gap
  omega

/-- Of two magnitudes the first one is taken: it is closer to `num / den` units, or as close and in
an even place. -/
def Preferred (num den first second position : Nat) : Prop :=
  gap num den first < gap num den second ∨
    gap num den first = gap num den second ∧ position % 2 = 0

theorem Preferred.le {first second position : Nat} (h : Preferred num den first second position) :
    gap num den first ≤ gap num den second := by
  rcases h with hlt | ⟨heq, -⟩
  · exact hlt.le
  · exact heq.le

/-- Rounding a quotient gives one of the two numbers between which it lies, the preferred one. -/
theorem roundQuotient_cases (num : Nat) (hden : 0 < den) :
    (roundQuotient num den = num / den ∧
      Preferred num den (num / den) (num / den + 1) (num / den)) ∨
    (roundQuotient num den = num / den + 1 ∧
      Preferred num den (num / den + 1) (num / den) (num / den + 1)) := by
  have hmod := Nat.mod_lt num hden
  have hdiv := Nat.div_add_mod' num den
  have hnext : (num / den + 1) * den = num / den * den + den := Nat.succ_mul ..
  have hbelow : gap num den (num / den) = num % den := by
    unfold gap
    omega
  have habove : gap num den (num / den + 1) = den - num % den := by
    unfold gap
    omega
  unfold Preferred
  rw [hbelow, habove]
  simp only [roundQuotient]
  split
  · exact .inl ⟨rfl, .inl (by omega)⟩
  · split
    · exact .inr ⟨rfl, .inl (by omega)⟩
    · rcases Nat.mod_two_eq_zero_or_one (num / den) with heven | hodd
      · exact .inl ⟨by rw [heven, Nat.add_zero], .inr ⟨by omega, heven⟩⟩
      · exact .inr ⟨by rw [hodd], .inr ⟨by omega, by omega⟩⟩

/-- A rank that is taken before every other one is the nearest. -/
theorem IsNearestRank.of_preferred
    (h : ∀ other, other ≠ rank → Preferred num den (units rank) (units other) rank) :
    IsNearestRank num den rank := by
  constructor
  · intro other
    by_cases hother : other = rank
    · rw [hother]
    · exact (h other hother).le
  · intro other hne heq
    rcases h other hne with hlt | ⟨-, heven⟩
    · exact absurd heq hlt.ne'
    · exact heven

/-- The nearest of all ranks is the preferred one of two neighbours between which the quotient
lies. -/
theorem IsNearestRank.of_neighbours (low : Nat) (hden : 0 < den) (hbelow : units low * den ≤ num)
    (habove : num ≤ units (low + 1) * den)
    (h : (rank = low ∧ Preferred num den (units low) (units (low + 1)) low) ∨
      (rank = low + 1 ∧ Preferred num den (units (low + 1)) (units low) (low + 1))) :
    IsNearestRank num den rank := by
  -- Every other rank is farther away than the neighbour on its side.
  have hfar : ∀ other, other ≠ low → other ≠ low + 1 →
      gap num den (units low) < gap num den (units other) ∨
        gap num den (units (low + 1)) < gap num den (units other) := by
    intro other hlow hnext
    by_cases hother : other < low
    · exact .inl (gap_lt_of_le hden (strictMono_units hother) hbelow)
    · exact .inr (gap_lt_of_ge hden (strictMono_units (by omega)) habove)
  apply IsNearestRank.of_preferred
  intro other hne
  rcases h with ⟨rfl, h⟩ | ⟨rfl, h⟩
  · by_cases hother : other = rank + 1
    · rw [hother]
      exact h
    · have hle := h.le
      have := hfar other hne hother
      exact .inl (by omega)
  · by_cases hother : other = low
    · rw [hother]
      exact h
    · have hle := h.le
      have := hfar other hother hne
      exact .inl (by omega)

theorem binade_eq : binade = 2 ^ 52 := rfl

/-- The shift that `nearestRank` takes brings the quotient into a binade. -/
theorem shifted_quotient (quotient : Nat) :
    (quotient.log2 - 52 = 0 ∨ binade ≤ quotient / 2 ^ (quotient.log2 - 52)) ∧
      quotient / 2 ^ (quotient.log2 - 52) < 2 * binade := by
  generalize hshift : quotient.log2 - 52 = shift
  constructor
  · by_cases hzero : shift = 0
    · exact .inl hzero
    · have hlog : 52 + shift = quotient.log2 := by omega
      have hne : quotient ≠ 0 := by
        rintro rfl
        simp at hlog
      refine .inr ((Nat.le_div_iff_mul_le (Nat.two_pow_pos _)).mpr ?_)
      rw [binade_eq, ← Nat.pow_add, hlog]
      exact Nat.log2_self_le hne
  · rw [Nat.div_lt_iff_lt_mul (Nat.two_pow_pos _), binade_eq, ← Nat.pow_succ', ← Nat.pow_add]
    calc quotient < 2 ^ (quotient.log2 + 1) := Nat.lt_log2_self
      _ ≤ 2 ^ (52 + 1 + shift) := Nat.pow_le_pow_right (by decide) (by omega)

/-- **Rounding finds the nearest rank**, and the even one of two that are equally close. -/
theorem isNearestRank (num : Nat) (hden : 0 < den) :
    IsNearestRank num den (nearestRank num den) := by
  obtain ⟨hlow, hhigh⟩ := shifted_quotient (num / den)
  simp only [nearestRank]
  generalize (num / den).log2 - 52 = shift at hlow hhigh ⊢
  change IsNearestRank num den (shift * binade + roundQuotient num (den * 2 ^ shift))
  rw [Nat.div_div_eq_div_mul] at hlow hhigh
  have hscale : 0 < den * 2 ^ shift := Nat.mul_pos hden (Nat.two_pow_pos _)
  -- The quotient lies between the magnitudes of a significand and the next one, shifted.
  generalize hq : num / (den * 2 ^ shift) = significand at hlow hhigh
  have hunits := units_shifted hlow hhigh.le
  have hnext := units_shifted (hlow.imp_right Nat.le_succ_of_le) hhigh
  have hgap : ∀ m, gap num den (m * 2 ^ shift) = gap num (den * 2 ^ shift) m := by
    intro m
    unfold gap
    rw [Nat.mul_assoc, Nat.mul_comm (2 ^ shift)]
  have hparity : ∀ m, (shift * binade + m) % 2 = m % 2 := by
    intro m
    rw [show shift * binade = shift * 2 ^ 51 * 2 from by rw [binade_eq]; ring,
      Nat.mul_add_mod_self_right]
  apply IsNearestRank.of_neighbours (shift * binade + significand) hden
  · rw [hunits, Nat.mul_assoc, Nat.mul_comm (2 ^ shift), ← hq]
    exact Nat.div_mul_le_self ..
  · rw [Nat.add_assoc, hnext, Nat.mul_assoc, Nat.mul_comm (2 ^ shift), ← hq]
    exact ((Nat.div_lt_iff_lt_mul hscale).mp (Nat.lt_succ_self _)).le
  · unfold Preferred
    rw [Nat.add_assoc, hunits, hnext, hgap, hgap, hparity, hparity, ← hq]
    rcases roundQuotient_cases num hscale with ⟨hround, h⟩ | ⟨hround, h⟩
    · exact .inl ⟨by rw [hround], h⟩
    · exact .inr ⟨by rw [hround], h⟩

/-- A magnitude is its own nearest one. -/
theorem nearestRank_units (rank : Nat) (hden : 0 < den) :
    nearestRank (units rank * den) den = rank := by
  have hself : gap (units rank * den) den (units rank) = 0 := by simp [gap]
  have hle := (isNearestRank (units rank * den) hden).nearest rank
  rw [hself, Nat.le_zero, gap, Int.natAbs_eq_zero, sub_eq_zero, Nat.cast_inj] at hle
  exact strictMono_units.injective (Nat.eq_of_mul_eq_mul_right hden hle)

/-! ### Numbers as rational numbers -/

/-- The rational number a finite number is. -/
def rational? : Double → Option ℚ
  | .finite negative rank => some (signedUnits negative rank / one)
  | _ => none

theorem exists_of_rational? {x : Double} {q : ℚ} (h : x.rational? = some q) :
    ∃ negative rank, x = .finite negative rank ∧ q = signedUnits negative rank / one := by
  cases x with
  | nan | infinity => simp [rational?] at h
  | finite negative rank => exact ⟨negative, rank, rfl, (Option.some.inj h).symm⟩

/-- Whether a number is finite and its rank even. -/
def isEven : Double → Bool
  | .finite _ rank => rank.val % 2 == 0
  | _ => false

/-- A finite number is nearest to a rational number: no finite number is closer, and if another one
is as close, the rank is even. -/
structure IsNearest (q : ℚ) (x : Double) : Prop where
  /-- The number is finite. -/
  finite : x.isFinite = true
  /-- No finite number is closer. -/
  nearest : ∀ v ∈ x.rational?, ∀ y : Double, ∀ w ∈ y.rational?, |v - q| ≤ |w - q|
  /-- A tie goes to the even rank. -/
  even : ∀ v ∈ x.rational?, ∀ y : Double, ∀ w ∈ y.rational?, w ≠ v → |w - q| = |v - q| →
    x.isEven = true

theorem one_pos : 0 < one := by
  have hpow : ∀ k, 0 < Nat.pow 2 k := fun k => Nat.pow_pos Nat.two_pos
  unfold one
  exact hpow 1074

theorem cast_one_pos : (0 : ℚ) < one := Nat.cast_pos.mpr one_pos

theorem units_zero : units 0 = 0 := if_pos (Nat.mul_pos Nat.two_pos binade_pos)

theorem units_pos (h : 0 < rank) : 0 < units rank := by
  have := strictMono_units h
  rwa [units_zero] at this

/-- The distance of a count of units from a natural number, counted in units. -/
theorem abs_sub_natCast (i : Int) (n : Nat) :
    |(i : ℚ) / one - n| = ((i - (n * one : Nat)).natAbs : ℚ) / one := by
  have h : (i : ℚ) / one - n = ((i - (n * one : Nat) : Int) : ℚ) / one := by
    rw [div_sub' cast_one_pos.ne']
    push_cast
    ring
  rw [h, abs_div, abs_of_pos cast_one_pos, Nat.cast_natAbs, Int.cast_abs]

theorem ofNat_eq (n : Nat) : ofNat n = ofRank false (nearestRank (n * one) 1) := by
  have hnonneg : ¬ (((n * one : Nat) : Int) < 0) := by
    omega
  rw [ofNat, ofInt, ofUnits, ofQuotient, ← Nat.cast_mul, Int.natAbs_natCast,
    decide_eq_false hnonneg, ite_self]

theorem isNaN_ofRank (negative : Bool) (rank : Nat) : (ofRank negative rank).isNaN = false := by
  unfold ofRank
  split <;> rfl

theorem isNaN_ofNat (n : Nat) : (ofNat n).isNaN = false := by
  rw [ofNat_eq]
  exact isNaN_ofRank false _

/-! ### Whole numbers -/

theorem signedUnits_false (rank : Nat) : signedUnits false rank = units rank := rfl

theorem signedUnits_true (rank : Nat) : signedUnits true rank = -(units rank : Int) := rfl

section Signed

variable {target other : Nat} {negative : Bool}

theorem gap_one (target magnitude : Nat) :
    gap target 1 magnitude = ((magnitude : Int) - target).natAbs := by
  rw [gap, Nat.mul_one]

theorem IsNearestRank.gap_le_target (h : IsNearestRank target 1 rank) :
    ((units rank : Int) - target).natAbs ≤ target := by
  have := h.nearest 0
  rw [gap_one, gap_one, units_zero] at this
  omega

/-- The nearest magnitude to a natural number of units is also nearer than everything below zero. -/
theorem IsNearestRank.nearest_signed (h : IsNearestRank target 1 rank) (negative : Bool)
    (other : Nat) :
    ((units rank : Int) - target).natAbs ≤ (signedUnits negative other - target).natAbs := by
  cases negative with
  | false =>
    rw [signedUnits_false, ← gap_one, ← gap_one]
    exact h.nearest other
  | true =>
    have := h.gap_le_target
    rw [signedUnits_true]
    omega

theorem IsNearestRank.even_signed (h : IsNearestRank target 1 rank)
    (hne : signedUnits negative other ≠ units rank)
    (heq : (signedUnits negative other - target).natAbs = ((units rank : Int) - target).natAbs) :
    rank % 2 = 0 := by
  cases negative with
  | false =>
    rw [signedUnits_false] at hne heq
    apply h.even other
    · rintro rfl
      exact hne rfl
    · rw [gap_one, gap_one, heq]
  | true =>
    -- A number below zero is farther away than zero, so only zero itself can be as close.
    rw [signedUnits_true] at hne heq
    have hle := h.gap_le_target
    have hother : units other = 0 := by omega
    apply h.even 0
    · rintro rfl
      rw [hother, units_zero] at hne
      exact hne rfl
    · rw [gap_one, gap_one, units_zero, ← heq, hother]
      rfl

end Signed

/-- **A natural number converts to the number nearest to it**, unless it lies beyond the finite
ones. -/
theorem isNearest_ofNat {n : Nat} (hfinite : (ofNat n).isFinite = true) :
    IsNearest n (ofNat n) := by
  have hnearest := isNearestRank (n * one) Nat.one_pos
  rw [ofNat_eq] at hfinite ⊢
  generalize nearestRank (n * one) 1 = rank at hfinite hnearest ⊢
  by_cases hrank : rank < topRank
  · rw [ofRank, dif_pos hrank]
    refine ⟨rfl, ?_, ?_⟩
    · rintro v ⟨⟩ y w hw
      obtain ⟨negative, other, rfl, rfl⟩ := exists_of_rational? hw
      rw [abs_sub_natCast, abs_sub_natCast, signedUnits_false]
      apply div_le_div_of_nonneg_right _ cast_one_pos.le
      exact Nat.cast_le.mpr (hnearest.nearest_signed negative other)
    · rintro v ⟨⟩ y w hw hne heq
      obtain ⟨negative, other, rfl, rfl⟩ := exists_of_rational? hw
      rw [abs_sub_natCast, abs_sub_natCast, div_left_inj' cast_one_pos.ne', Nat.cast_inj,
        signedUnits_false] at heq
      have hunits : signedUnits negative other ≠ units rank := by
        intro hsame
        rw [hsame] at hne
        exact hne rfl
      exact beq_iff_eq.mpr (hnearest.even_signed hunits heq)
  · rw [ofRank, dif_neg hrank] at hfinite
    simp [isFinite] at hfinite

/-- Natural numbers below half of the first magnitude that is too large convert to finite numbers. -/
theorem isFinite_ofNat {n : Nat} (h : 2 * (n * one) < units topRank) :
    (ofNat n).isFinite = true := by
  have hnearest := isNearestRank (n * one) Nat.one_pos
  rw [ofNat_eq, ofRank]
  split
  · rfl
  · -- A rank beyond the finite ones would be farther away than zero.
    rename_i hrank
    have hle := strictMono_units.monotone (Nat.le_of_not_lt hrank)
    have := hnearest.gap_le_target
    omega

/-- The integer of a number is its rational number, if that is an integer. -/
theorem toInt?_eq_some_iff {x : Double} {n : Int} :
    x.toInt? = some n ↔ x.rational? = some (n : ℚ) := by
  cases x with
  | nan | infinity => simp [toInt?, rational?]
  | finite negative rank =>
    have hpos : (0 : Int) < one := Int.natCast_pos.mpr one_pos
    have hdvd : units rank % one = 0 ↔ (one : Int) ∣ signedUnits negative rank := by
      rw [← Nat.dvd_iff_mod_eq_zero, ← Int.natCast_dvd_natCast]
      cases negative with
      | false => rfl
      | true => rw [signedUnits_true, dvd_neg]
    have hvalue : (signedUnits negative rank : ℚ) / one = n ↔
        signedUnits negative rank = n * one := by
      rw [div_eq_iff cast_one_pos.ne']
      exact_mod_cast Iff.rfl
    rw [toInt?, rational?, Option.some.injEq, hvalue]
    constructor
    · intro h
      split at h
      · rename_i hwhole
        rw [← Option.some.inj h, Int.ediv_mul_cancel (hdvd.mp hwhole)]
      · simp at h
    · intro h
      rw [if_pos (hdvd.mpr (Dvd.intro_left _ h.symm)), h, Int.mul_ediv_cancel _ hpos.ne']

theorem toInt?_of_isZero {x : Double} (h : x.isZero = true) : x.toInt? = some 0 := by
  cases x with
  | nan | infinity => simp [isZero] at h
  | finite negative rank =>
    have hrank : rank.val = 0 := beq_iff_eq.mp h
    have hzero : signedUnits negative 0 = 0 := by
      cases negative <;> rfl
    rw [toInt?, hrank, units_zero, Nat.zero_mod, if_pos rfl, hzero, Int.zero_ediv]

theorem isZero_eq_false {x : Double} (h : x.toInt? ≠ some 0) : x.isZero = false := by
  by_contra hzero
  exact h (toInt?_of_isZero ((Bool.not_eq_false _).mp hzero))

/-- A finite number is nearest to its units; zero loses its sign. -/
theorem ofUnits_signedUnits (negative : Bool) (rank : Fin topRank) :
    ofUnits false (signedUnits negative rank) =
      if rank.val = 0 then zero else .finite negative rank := by
  have hnat : (signedUnits negative rank).natAbs = units rank := by
    cases negative <;> simp [signedUnits]
  have hrank : nearestRank (units rank) 1 = rank := by
    have := nearestRank_units rank Nat.one_pos
    rwa [Nat.mul_one] at this
  rw [ofUnits, ofQuotient, hnat, hrank]
  by_cases hzero : rank.val = 0
  · have hunits : signedUnits negative rank = 0 := by
      rw [← Int.natAbs_eq_zero, hnat, hzero, units_zero]
    rw [if_pos hunits, if_pos hzero, hzero]
    rfl
  · have hpos := units_pos (Nat.pos_of_ne_zero hzero)
    have hsign : (if signedUnits negative rank = 0 then false
        else decide (signedUnits negative rank < 0)) = negative := by
      cases negative with
      | false =>
        have hnonneg : ¬ ((units rank : Int) < 0) := by omega
        simp [signedUnits_false, hnonneg]
      | true => simp [signedUnits_true, hpos, hpos.ne']
    rw [hsign, if_neg hzero, ofRank, dif_pos rank.isLt]

/-- **A number that is an integer is what the integer converts to**, up to the sign of zero. -/
theorem ofInt_of_toInt? {x : Double} {n : Int} (h : x.toInt? = some n) :
    ofInt n = if x.isZero then zero else x := by
  cases x with
  | nan | infinity => simp [toInt?] at h
  | finite negative rank =>
    rw [toInt?_eq_some_iff, rational?, Option.some.injEq, div_eq_iff cast_one_pos.ne'] at h
    have hunits : n * one = signedUnits negative rank := by exact_mod_cast h.symm
    rw [ofInt, hunits, ofUnits_signedUnits, isZero]
    simp

end Resumable.Double
