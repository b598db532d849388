import Resumable.Proofs.Json.Numerals
import Resumable.Proofs.Value.Exchange
import Resumable.Proofs.Value.Numbers

/-!
# Whole numbers as texts

A whole number below `10 ^ 21` is shown with all its digits, and its text converts back to it. Only
the sign of zero is lost on the way.

## The model

* `Text.Expands`: a text is the decimal expansion of an integer.
* `Decimal.whole`: the natural number a decimal is, if its exponent is not negative.

## What is proved

* `Decimal.nearestRank_whole`: a decimal that is a natural number converts as that number does.
* `numberOfTrimmed_of_writes`: a signed decimal converts to the number nearest to it.
* `numberOfText_expansion`: the expansion of an integer converts as the integer does.
* `whole_numbers_survive`: the text of a whole number below `10 ^ 21` is its expansion and converts
  back to it, so that different numbers have different texts.
-/

namespace Resumable

/-! ### Expansions -/

namespace Text

/-- A text is the decimal expansion of an integer: a minus sign if the integer is negative, and the
digits of its magnitude, of which no zero leads others. -/
inductive Expands (n : Int) : List Char → Prop where
  /-- The sign and the digits. -/
  | mk {digits : List Char} (run : Decimal.IsRun digits) (unpadded : Json.Unpadded digits)
      (value : Decimal.ofRun digits = n.natAbs) :
      Expands n ((if n < 0 then ['-'] else []) ++ digits)

theorem expands_decimal (n : Int) :
    Expands n ((if n < 0 then ['-'] else []) ++ decimal n.natAbs) :=
  .mk (isRun_decimal _) (Json.unpadded_decimal _) (ofRun_decimal _)

theorem isBlank_of_isDigit {c : Char} (h : Decimal.isDigit c = true) : isBlank c = false := by
  simp only [Decimal.isDigit, Bool.and_eq_true, decide_eq_true_eq, Char.le_def,
    UInt32.le_iff_toNat_le, Char.reduceVal, UInt32.reduceToNat] at h
  have hnat : c.val.toNat = c.toNat := rfl
  simp only [isBlank, blankRanges, CodeRanges.has, List.any_cons, List.any_nil, Bool.or_false,
    Bool.or_eq_false_iff, Bool.and_eq_false_iff, decide_eq_false_iff_not]
  omega

variable {n : Int} {cs : List Char}

theorem Expands.writesSigned (h : Expands n cs) :
    Decimal.WritesSigned cs (decide (n < 0)) ⟨n.natAbs, 0⟩ := by
  obtain ⟨run, -, value⟩ := h
  rename_i digits
  have hsign : Decimal.Sign (if n < 0 then ['-'] else []) (decide (n < 0)) := by
    by_cases hn : n < 0
    · rw [if_pos hn, decide_eq_true hn]
      exact .minus
    · rw [if_neg hn, decide_eq_false hn]
      exact .none
  have := Decimal.WritesSigned.mk hsign run.digits .none (.inl run.nonempty) .none
  simpa [Decimal.ofParts, value] using this

/-- A text is the expansion of one integer at most. -/
theorem Expands.eq {m : Int} (h : Expands n cs) (h' : Expands m cs) : m = n := by
  have hn := Decimal.signed?_eq_some_iff.mpr h.writesSigned
  have hm := Decimal.signed?_eq_some_iff.mpr h'.writesSigned
  simp only [hn, Option.some.injEq, Prod.mk.injEq, decide_eq_decide, Decimal.mk.injEq] at hm
  omega

/-- There is no blank in an expansion. -/
theorem Expands.trim_eq (h : Expands n cs) : trim cs = cs := by
  obtain ⟨run, -, -⟩ := h
  rename_i digits
  have hsolid : ∀ c ∈ (if n < 0 then ['-'] else []) ++ digits, isBlank c = false := by
    intro c hc
    rcases List.mem_append.mp hc with hc | hc
    · split at hc
      · rw [List.mem_singleton.mp hc]
        rfl
      · simp at hc
    · exact isBlank_of_isDigit (run.digits c hc)
  exact trim_eq_self (fun c hc => hsolid c (List.mem_of_mem_head? hc))
    fun c hc => hsolid c (List.mem_of_mem_getLast? hc)

end Text

/-! ### Decimals that are natural numbers -/

namespace Decimal

/-- The natural number a decimal is, if its exponent is not negative. -/
def whole (d : Decimal) : Nat := d.digits * 10 ^ d.exponent.toNat

/-- A decimal that is a natural number converts as that number does. -/
theorem nearestRank_whole {d : Decimal} (hlow : 0 ≤ d.exponent) (hhigh : d.exponent ≤ horizon) :
    d.nearestRank = Double.nearestRank (d.whole * Double.one) 1 := by
  have hnear : ¬ d.exponent + (d.digits.log2 + 1) < -(horizon : Int) := by omega
  unfold nearestRank
  by_cases hzero : d.digits = 0
  · have hself := Double.nearestRank_units 0 Nat.one_pos
    rw [Double.units_zero, Nat.zero_mul] at hself
    rw [if_pos hzero, whole, hzero, Nat.zero_mul, Nat.zero_mul, hself]
  · rw [if_neg hzero, if_neg (Int.not_lt.mpr hhigh), if_neg hnear, if_pos hlow]
    rfl

/-- A natural number converts to the number nearest to it, with the sign it is given. -/
theorem toDouble_natural (negative : Bool) (n : Nat) :
    toDouble negative ⟨n, 0⟩ = .ofRank negative (Double.nearestRank (n * Double.one) 1) := by
  have hhorizon : (0 : Int) ≤ horizon := by decide
  rw [toDouble, nearestRank_whole (Int.le_refl 0) hhorizon]
  simp [whole]

end Decimal

namespace Value

open Text (Expands)

variable {x : Double} {n : Int} {cs : List Char} {negative : Bool} {d : Decimal}

/-! ### Reading back -/

/-- A signed decimal converts to the number nearest to it. -/
theorem numberOfTrimmed_of_writes (h : Decimal.WritesSigned cs negative d) :
    numberOfTrimmed cs = d.toDouble negative := by
  have hread := Decimal.signed?_eq_some_iff.mpr h
  have hne : ∀ w : List Char, Decimal.signed? w = none → cs ≠ w := by
    rintro w hw rfl
    simp [hw] at hread
  have hmark : radixMark cs = none := by
    cases hmark : radixMark cs with
    | none => rfl
    | some m =>
      rw [(radixMark_eq_some_iff.mp hmark).signed?_eq_none] at hread
      simp at hread
  have hempty : ¬ cs.isEmpty = true := by
    rw [List.isEmpty_iff]
    exact hne [] (by decide)
  have hplus : ¬ (cs = "Infinity".toList ∨ cs = "+Infinity".toList) := by
    rw [not_or]
    exact ⟨hne _ (by decide), hne _ (by decide)⟩
  have hminus : cs ≠ "-Infinity".toList := hne _ (by decide)
  rw [numberOfTrimmed, if_neg hempty, if_neg hplus, if_neg hminus, hmark]
  simp only [hread]

/-- The expansion of an integer converts as the integer does. -/
theorem numberOfText_expansion {s : String} (h : Expands n s.toList) :
    numberOfText s = .ofInt n := by
  have hpos : (0 : Int) < Double.one := Int.natCast_pos.mpr Double.one_pos
  have hsign : (if n * Double.one = 0 then false else decide (n * Double.one < 0)) =
      decide (n < 0) := by
    split
    · rename_i hzero
      rw [(mul_eq_zero.mp hzero).resolve_right hpos.ne']
      rfl
    · rw [decide_eq_decide, mul_neg_iff]
      omega
  rw [numberOfText, h.trim_eq, numberOfTrimmed_of_writes h.writesSigned, Decimal.toDouble_natural,
    Double.ofInt, Double.ofUnits, Double.ofQuotient, hsign, Int.natAbs_mul, Int.natAbs_natCast]

/-! ### Texts of whole numbers -/

theorem display_of_toInt? (h : x.toInt? = some n) (hn : n.natAbs < wholeLimit) :
    (Value.num x).display =
      String.ofList ((if n < 0 then ['-'] else []) ++ Text.decimal n.natAbs) := by
  rw [display]
  cases x with
  | nan | infinity => simp [Double.toInt?] at h
  | finite negative rank => simp only [showNumber, h, if_pos hn]

theorem natAbs_lt_wholeLimit (h : |n| < 10 ^ 21) : n.natAbs < wholeLimit := by
  have hlimit : wholeLimit = 10 ^ 21 := rfl
  rw [Int.abs_eq_natAbs] at h
  omega

/-- **A whole number below `10 ^ 21` survives as a text**: its text is its expansion, which converts
back to it, but for the sign of zero; and the texts of two such numbers are the same exactly if the
numbers are. -/
theorem whole_numbers_survive (h : x.rational? = some (n : ℚ)) (hn : |n| < 10 ^ 21) :
    Expands n (Value.num x).display.toList ∧
      (Value.str (Value.num x).display).toNumber = unsigned x ∧
      ∀ (y : Double) (m : Int), y.rational? = some (m : ℚ) → |m| < 10 ^ 21 →
        ((Value.num y).display = (Value.num x).display ↔ m = n) := by
  have hint := Double.toInt?_eq_some_iff.mpr h
  have hshown := display_of_toInt? hint (natAbs_lt_wholeLimit hn)
  have hexpands : Expands n (Value.num x).display.toList := by
    rw [hshown, String.toList_ofList]
    exact Text.expands_decimal n
  refine ⟨hexpands, ?_, fun y m hy hm => ?_⟩
  · rw [toNumber, numberOfText_expansion hexpands, Double.ofInt_of_toInt? hint, unsigned]
  · have hother := display_of_toInt? (Double.toInt?_eq_some_iff.mpr hy) (natAbs_lt_wholeLimit hm)
    constructor
    · intro heq
      rw [← heq, hother, String.toList_ofList] at hexpands
      exact hexpands.eq (Text.expands_decimal m)
    · rintro rfl
      rw [hother, hshown]

/-- The largest whole number below `10 ^ 21`, which is far beyond those that have all their
neighbours among the numbers, and its negative have different texts and come back. -/
theorem whole_numbers_survive_largest :
    (Double.ofInt (-999999999999999868928)).rational? = some ((-999999999999999868928 : Int) : ℚ) ∧
      |(-999999999999999868928 : Int)| < 10 ^ 21 ∧
      (Value.str (Value.num (.ofInt (-999999999999999868928))).display).toNumber =
        .ofInt (-999999999999999868928) ∧
      (Value.num (.ofInt 999999999999999868928)).display ≠
        (Value.num (.ofInt (-999999999999999868928))).display := by
  have hint : ∀ n ∈ [(-999999999999999868928 : Int), 999999999999999868928],
      (Double.ofInt n).toInt? = some n := by decide +kernel
  have hnegative := Double.toInt?_eq_some_iff.mp (hint _ (List.mem_cons_self ..))
  have hpositive := Double.toInt?_eq_some_iff.mp (hint 999999999999999868928 (by simp))
  have hsmall : |(-999999999999999868928 : Int)| < 10 ^ 21 := by decide
  obtain ⟨-, hback, hdistinct⟩ := whole_numbers_survive hnegative hsmall
  have hzero : (Double.ofInt (-999999999999999868928)).isZero = false := by decide +kernel
  refine ⟨hnegative, hsmall, ?_, ?_⟩
  · rw [hback, unsigned, if_neg (by simp [hzero])]
  · intro heq
    have := (hdistinct _ _ hpositive (by decide)).mp heq
    simp at this

end Value

end Resumable
