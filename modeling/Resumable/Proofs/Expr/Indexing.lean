import Resumable.Expr.Property
import Resumable.Proofs.Value.Wholes

/-!
# Items of a list by number and by name

A list gives the same item for a number and for the number's text. The first way asks whether the
number is whole, the second whether its text is a 64-bit numeral. That these agree rests on how
numbers are shown: the text of a number that is not whole is never a run of digits, because every
natural number rounds to a whole number, and the text of a whole number past `10 ^ 21`, which may
have other digits than the number itself, still stands for a number past 64 bits.

## What is proved

* `Double.whole_nearestRank`: a natural number rounds to a whole number.
* `Text.word?_run`: a run of digits is a 64-bit numeral exactly if its value is in range.
* `Value.word?_showNumber`: the text of a number is a 64-bit numeral exactly if the number is a
  natural number in range.
* `index_agrees_with_property`: a list has the same item for a number as for its text, and it is the
  item in the place that the number gives.
-/

namespace Resumable

/-! ### Rounding natural numbers -/

namespace Double

variable {rank : Nat}

theorem exists_one_eq : ∃ shift, one = 2 ^ shift := by
  have hpow : ∀ k, ∃ shift, Nat.pow 2 k = 2 ^ shift := fun k => ⟨k, rfl⟩
  unfold one
  exact hpow 1074

/-- Every significand names a magnitude under every shift: one that is too small for the shift is
doubled and shifted less. -/
theorem exists_units_eq (shift : Nat) {significand : Nat} (h : significand ≤ 2 * binade) :
    ∃ rank, units rank = significand * 2 ^ shift := by
  induction shift generalizing significand with
  | zero => exact ⟨_, units_shifted (.inl rfl) h⟩
  | succ shift ih =>
    by_cases hlow : significand ≤ binade
    · obtain ⟨rank, hrank⟩ := ih (Nat.mul_le_mul_left 2 hlow)
      exact ⟨rank, by rw [hrank]; ring⟩
    · exact ⟨_, units_shifted (.inr (Nat.le_of_not_le hlow)) h⟩

/-- Magnitudes that are not whole lie below `2 ^ 52`. -/
theorem units_lt_of_not_whole (h : units rank % one ≠ 0) : units rank < binade * one := by
  obtain ⟨shift, significand, rfl, hlow, hhigh⟩ := exists_shifted rank
  obtain ⟨unit, hone⟩ := exists_one_eq
  rw [units_shifted hlow hhigh.le, hone] at h ⊢
  have hshift : shift < unit := by
    by_contra hge
    apply h
    rw [← Nat.dvd_iff_mod_eq_zero]
    exact (pow_dvd_pow 2 (Nat.le_of_not_lt hge)).mul_left significand
  calc significand * 2 ^ shift < 2 * binade * 2 ^ shift :=
        Nat.mul_lt_mul_of_pos_right hhigh (Nat.two_pow_pos _)
    _ = binade * 2 ^ (shift + 1) := by ring
    _ ≤ binade * 2 ^ unit := Nat.mul_le_mul_left _ (Nat.pow_le_pow_right Nat.two_pos hshift)

/-- What a natural number of units rounds to is at most twice as large. -/
theorem IsNearestRank.units_le {target : Nat} (h : IsNearestRank target 1 rank) :
    units rank ≤ 2 * target := by
  have := h.gap_le_target
  omega

/-- **A natural number rounds to a whole number.** -/
theorem whole_nearestRank (n : Nat) : units (nearestRank (n * one) 1) % one = 0 := by
  by_contra hwhole
  have hlt := units_lt_of_not_whole hwhole
  have hnearest := isNearestRank (n * one) Nat.one_pos
  obtain ⟨unit, hone⟩ := exists_one_eq
  by_cases hn : n ≤ 2 * binade
  · -- The number is a magnitude itself.
    obtain ⟨rank, hrank⟩ := exists_units_eq unit hn
    rw [← hone] at hrank
    have hself := nearestRank_units rank Nat.one_pos
    rw [hrank, Nat.mul_one] at hself
    rw [hself, hrank] at hwhole
    exact hwhole (Nat.mul_mod_left ..)
  · -- The magnitude `2 ^ 52` would be closer than one below it.
    obtain ⟨rank, hrank⟩ := exists_units_eq unit (Nat.le_mul_of_pos_left binade Nat.two_pos)
    rw [← hone] at hrank
    have hbelow : units rank * 1 ≤ n * one := by
      rw [hrank, Nat.mul_one]
      exact Nat.mul_le_mul_right _ (by omega)
    rw [← hrank] at hlt
    have hcloser := gap_lt_of_le Nat.one_pos hlt hbelow
    exact absurd (hnearest.nearest rank) (Nat.not_le.mpr hcloser)

end Double

/-! ### Runs of digits -/

namespace Text

open Decimal (IsRun isDigit ofRun)

variable {radix i : Nat} {c : Char} {cs : List Char}

theorem digitOf_of_isDigit (h : isDigit c = true) : digitOf 10 c = some (c.toNat - '0'.toNat) := by
  simp only [isDigit, Bool.and_eq_true, decide_eq_true_eq] at h
  have hvalue : digitValue c = some (c.toNat - '0'.toNat) := if_pos h
  have hlt : c.toNat - '0'.toNat < 10 := by
    have hnine : c.toNat ≤ '9'.toNat := h.2
    have : '9'.toNat = '0'.toNat + 9 := rfl
    omega
  rw [digitOf, hvalue, Option.filter_some, if_pos (decide_eq_true hlt)]

theorem natural?_run (h : IsRun cs) : natural? 10 cs = some (ofRun cs) := by
  have hdigits : ∀ ds : List Char, (∀ c ∈ ds, isDigit c = true) →
      digitsOf 10 ds = some (ds.map fun c => c.toNat - '0'.toNat) := by
    intro ds hds
    induction ds with
    | nil => rfl
    | cons d ds ih =>
      rw [List.forall_mem_cons] at hds
      rw [digitsOf, List.mapM_cons, digitOf_of_isDigit hds.1, ← digitsOf, ih hds.2]
      rfl
  rw [natural?_of_ne_nil h.nonempty, hdigits cs h.digits, Option.map_some, ofDigits,
    List.foldl_map]
  rfl

/-- A run of digits is a 64-bit numeral exactly if its value is in range. -/
theorem word?_run (h : IsRun cs) : word? 10 cs = some i ↔ i = ofRun cs ∧ i ≤ maxWord := by
  have hnatural := natural?_eq_some_iff.mp (natural?_run h)
  rw [word?_eq_some_iff]
  refine and_congr_left fun _ => ⟨?_, ?_⟩
  · rintro (hi | ⟨digits, rfl, -⟩)
    · exact hnatural.eq hi
    · exact absurd (h.digits '+' (List.mem_cons_self ..)) (by decide)
  · rintro rfl
    exact .inl hnatural

theorem WritesNatural.isSome_digitOf (h : WritesNatural radix cs i) :
    ∀ c ∈ cs, (digitOf radix c).isSome = true := by
  induction h with
  | digit hd => simp [hd]
  | snoc init hd ih =>
    intro c hc
    rcases List.mem_append.mp hc with hc | hc
    · exact ih c hc
    · simp [List.mem_singleton.mp hc, hd]

/-- There are only digits in a 64-bit numeral, besides a plus sign. -/
theorem not_mem_of_word? (h : word? radix cs = some i) (hc : digitOf radix c = none)
    (hplus : c ≠ '+') : c ∉ cs := by
  intro hmem
  rcases (word?_eq_some_iff.mp h).1 with hcs | ⟨digits, rfl, hdigits⟩
  · simpa [hc] using hcs.isSome_digitOf c hmem
  · rcases List.mem_cons.mp hmem with rfl | hmem
    · exact hplus rfl
    · simpa [hc] using hdigits.isSome_digitOf c hmem

end Text

/-! ### Shortest decimals -/

namespace Decimal

variable {tie : Tie} {rank i : Nat} {d : Decimal}

theorem ofRun_replicate (cs : List Char) (n : Nat) :
    ofRun (cs ++ List.replicate n '0') = ofRun cs * 10 ^ n := by
  induction n with
  | zero => simp
  | succ n ih =>
    have hsnoc : ∀ ds, ofRun (ds ++ ['0']) = ofRun ds * 10 := by simp [ofRun]
    rw [List.replicate_succ', ← List.append_assoc, hsnoc, ih, pow_succ, mul_assoc]

/-- With an exponent that is not negative, a decimal is written as a run of digits. -/
theorem positional_whole (h : 0 ≤ d.exponent) :
    IsRun (d.positional false) ∧ ofRun (d.positional false) = d.whole := by
  have heq : d.positional false =
      Text.decimal d.digits ++ List.replicate d.exponent.toNat '0' := by
    simp [positional, h]
  rw [heq, ofRun_replicate, Text.ofRun_decimal]
  exact ⟨Json.isRun_append (Text.isRun_decimal _) (Json.isDigit_replicate _), rfl⟩

/-- With a negative exponent, a decimal is written with a point. -/
theorem point_mem_positional (h : d.exponent < 0) : '.' ∈ d.positional false := by
  unfold positional
  rw [if_neg (Int.not_le.mpr h)]
  split <;> simp

theorem readsBack_shortest (h : 0 ≤ (shortest tie rank).exponent) :
    readsBack rank (shortest tie rank) = true := by
  unfold shortest at h ⊢
  cases hfound : (List.range 24).findSome? fun (n : Nat) =>
      closest? tie rank (coarsest rank - n) with
  | none =>
    rw [hfound] at h
    exact absurd (show (0 : Int) ≤ -1074 from h) (by decide)
  | some d =>
    obtain ⟨n, -, hclosest⟩ := List.exists_of_findSome?_eq_some hfound
    exact readsBack_of_closest? hclosest

/-- If the shortest decimal of a magnitude is written as a 64-bit numeral, then the magnitude is
whole and not far beyond 64 bits. -/
theorem whole_of_word?_shortest (hrank : rank < Double.topRank)
    (h : Text.word? 10 ((shortest tie rank).positional false) = some i) :
    Double.units rank % Double.one = 0 ∧
      Double.units rank ≤ 2 * (Text.maxWord * Double.one) := by
  generalize hd : shortest tie rank = d at h
  have hlow : 0 ≤ d.exponent := by
    by_contra hneg
    exact Text.not_mem_of_word? h (c := '.') rfl (by decide) (point_mem_positional (by omega))
  have hback : d.nearestRank = rank := by
    rw [← hd] at hlow ⊢
    exact beq_iff_eq.mp (readsBack_shortest hlow)
  obtain ⟨hrun, hvalue⟩ := positional_whole hlow
  obtain ⟨rfl, hle⟩ := (Text.word?_run hrun).mp h
  rw [hvalue] at hle
  by_cases hhigh : d.exponent ≤ horizon
  · rw [nearestRank_whole hlow hhigh] at hback
    have hwhole := Double.whole_nearestRank d.whole
    have hunits := (Double.isNearestRank (d.whole * Double.one) Nat.one_pos).units_le
    rw [hback] at hwhole hunits
    exact ⟨hwhole, hunits.trans (Nat.mul_le_mul_left 2 (Nat.mul_le_mul_right _ hle))⟩
  · -- So large an exponent overflows, unless there is nothing to scale.
    obtain rfl : 0 = rank := by
      rw [nearestRank] at hback
      split at hback
      · exact hback
      · rw [if_pos (Int.not_le.mp hhigh)] at hback
        exact absurd hback hrank.ne'
    rw [Double.units_zero]
    exact ⟨Nat.zero_mod _, Nat.zero_le _⟩

end Decimal

/-! ### Texts of numbers -/

namespace Value

open Text (maxWord)

variable {x : Double} {rank i : Nat}

/-- A text that starts with a minus sign is no 64-bit numeral. -/
theorem word?_minus (cs : List Char) : Text.word? 10 ('-' :: cs) ≠ some i := by
  intro h
  exact Text.not_mem_of_word? h (c := '-') rfl (by decide) (List.mem_cons_self ..)

/-- The expansion of an integer is a 64-bit numeral exactly if the integer is in range. -/
theorem word?_expansion (n : Int) :
    Text.word? 10 ((if n < 0 then ['-'] else []) ++ Text.decimal n.natAbs) = some i ↔
      n = i ∧ i ≤ maxWord := by
  by_cases hn : n < 0
  · rw [if_pos hn]
    exact iff_of_false (word?_minus _) (by omega)
  · rw [if_neg hn, List.nil_append, Text.word?_run (Text.isRun_decimal _), Text.ofRun_decimal]
    refine and_congr_left fun _ => ?_
    omega

/-- A number that is shown by its shortest digits is not shown as a 64-bit numeral, if it is not
whole or is a whole number past the limit. -/
theorem word?_shortest (negative : Bool) (rank : Fin Double.topRank)
    (h : ∀ n, (Double.finite negative rank).toInt? = some n → wholeLimit ≤ n.natAbs) :
    Text.word? 10 ((if negative then ['-'] else []) ++
      (Decimal.shortest .up rank).positional false) ≠ some i := by
  cases negative with
  | true => exact word?_minus _
  | false =>
    intro hword
    obtain ⟨hwhole, hle⟩ := Decimal.whole_of_word?_shortest rank.isLt hword
    have hint : (Double.finite false rank).toInt? =
        some ((Double.units rank / Double.one : Nat) : Int) := by
      rw [Double.toInt?, if_pos hwhole, Double.signedUnits_false, Int.natCast_ediv]
    have hlimit := h _ hint
    have hbound : Double.units rank / Double.one ≤ 2 * maxWord := by
      have := Nat.div_le_div_right (c := Double.one) hle
      rwa [← Nat.mul_assoc, Nat.mul_div_cancel _ Double.one_pos] at this
    rw [Int.natAbs_natCast] at hlimit
    exact absurd (hlimit.trans hbound) (by decide)

/-- **The text of a number is a 64-bit numeral exactly if the number is a natural number in
range.** -/
theorem word?_showNumber (x : Double) (i : Nat) :
    Text.word? 10 (showNumber x).toList = some i ↔ x.toInt? = some (i : Int) ∧ i ≤ maxWord := by
  have hout : wholeLimit ≤ i → ¬ i ≤ maxWord := by
    intro hle hword
    exact absurd (hle.trans hword) (by decide)
  cases x with
  | nan =>
    have hword : Text.word? 10 (showNumber .nan).toList = none := by decide
    simp [hword, Double.toInt?]
  | infinity negative =>
    have hword : Text.word? 10 (showNumber (.infinity negative)).toList = none := by
      cases negative <;> decide
    simp [hword, Double.toInt?]
  | finite negative rank =>
    rw [showNumber]
    split
    · rename_i n hint
      rw [hint]
      split
      · rw [String.toList_ofList, word?_expansion, Option.some.injEq]
      · rename_i hlimit
        rw [String.toList_ofList]
        refine iff_of_false (word?_shortest negative rank fun m hm => ?_) ?_
        · rw [hint, Option.some.injEq] at hm
          rw [← hm]
          exact Nat.le_of_not_lt hlimit
        · rintro ⟨hn, hle⟩
          rw [Option.some.injEq] at hn
          exact hout (by omega) hle
    · rename_i hnone
      rw [String.toList_ofList, hnone]
      exact iff_of_false (word?_shortest negative rank fun m hm => by simp [hnone] at hm) (by simp)

end Value

/-! ### Indexing -/

namespace Expr

open Text (maxWord)

variable {items : List Value} {x : Double}

/-- The characters that a decimal is written with. -/
theorem mem_positional {d : Decimal} {c : Char} (h : c ∈ d.positional false) :
    c = '.' ∨ Decimal.isDigit c = true := by
  have hdigits := (Text.isRun_decimal d.digits).digits
  unfold Decimal.positional at h
  dsimp only at h
  split at h
  · simp only [Bool.false_eq_true, if_false, List.append_nil, List.mem_append] at h
    rcases h with h | h
    · exact .inr (hdigits c h)
    · exact .inr (Json.isDigit_replicate _ c h)
  · split at h
    · rcases List.mem_append.mp h with h | h
      · exact .inr (hdigits c (List.mem_of_mem_take h))
      · rcases List.mem_cons.mp h with rfl | h
        · exact .inl rfl
        · exact .inr (hdigits c (List.mem_of_mem_drop h))
    · simp only [List.mem_append, List.mem_cons, List.not_mem_nil, or_false] at h
      rcases h with ((rfl | rfl) | h) | h
      · exact .inr rfl
      · exact .inl rfl
      · exact .inr (Json.isDigit_replicate _ c h)
      · exact .inr (hdigits c h)

/-- No number is shown as the name of a list's length. -/
theorem showNumber_ne_length (x : Double) : Value.showNumber x ≠ "length" := by
  have hsigned : ∀ (negative : Bool) (cs : List Char),
      (∀ c ∈ cs, c = '.' ∨ Decimal.isDigit c = true) →
        String.ofList ((if negative then ['-'] else []) ++ cs) ≠ "length" := by
    intro negative cs hcs heq
    have hmem : 'l' ∈ (if negative then ['-'] else []) ++ cs := by
      rw [← String.toList_ofList (l := _ ++ cs), heq]
      decide
    rcases List.mem_append.mp hmem with h | h
    · cases negative <;> simp at h
    · exact absurd (hcs 'l' h) (by decide)
  cases x with
  | nan => decide
  | infinity negative => cases negative <;> decide
  | finite negative rank =>
    have hshortest := hsigned negative _ fun c => mem_positional (d := Decimal.shortest .up rank)
    rw [Value.showNumber]
    split
    · rename_i n _
      split
      · have := hsigned (decide (n < 0)) (Text.decimal n.natAbs) fun c hc =>
          .inr ((Text.isRun_decimal _).digits c hc)
        simpa using this
      · exact hshortest
    · exact hshortest

/-- In a list whose places have 64 bits, a number and its text give the same item. -/
theorem itemNamed_showNumber (h : items.length ≤ maxWord) (x : Double) :
    itemNamed items (Value.showNumber x) = itemAt items x := by
  unfold itemNamed itemAt
  cases hword : Text.word? 10 (Value.showNumber x).toList with
  | some i =>
    obtain ⟨hint, -⟩ := (Value.word?_showNumber x i).mp hword
    rw [hint]
  | none =>
    dsimp only
    split
    · rename_i i hint
      have hi : ¬ i ≤ maxWord := by
        intro hle
        rw [(Value.word?_showNumber x i).mpr ⟨hint, hle⟩] at hword
        simp at hword
      rw [List.getElem?_eq_none (by omega), Option.getD_none]
    · rfl

theorem itemAt_of_rational? {i : Nat} (h : x.rational? = some (i : ℚ)) :
    itemAt items x = items[i]?.getD .undefined := by
  have hint : x.toInt? = some (i : Int) := Double.toInt?_eq_some_iff.mpr (by exact_mod_cast h)
  rw [itemAt, hint]

theorem itemAt_of_forall_ne (h : ∀ i < items.length, x.rational? ≠ some (i : ℚ)) :
    itemAt items x = .undefined := by
  unfold itemAt
  split
  · rename_i i hint
    have hvalue : x.rational? = some (i : ℚ) := by exact_mod_cast Double.toInt?_eq_some_iff.mp hint
    have hi : items.length ≤ i := by
      by_contra hlt
      exact h i (Nat.lt_of_not_le hlt) hvalue
    rw [List.getElem?_eq_none hi, Option.getD_none]
  · rfl

/-- **A list has the same item for a number as for the number's text**: the one in the place that
the number gives, and none if there is no such place. -/
theorem index_agrees_with_property (items : List Value) (h : items.length < 2 ^ 63) (x : Double) :
    readIndex (.list items) (.num x) = readProperty (.list items) (Value.num x).display ∧
      (∀ (i : Nat) (v : Value), x.rational? = some (i : ℚ) → items[i]? = some v →
        readIndex (.list items) (.num x) = .ok v) ∧
      ((∀ i < items.length, x.rational? ≠ some (i : ℚ)) →
        readIndex (.list items) (.num x) = .ok .undefined) := by
  have hlength : items.length ≤ maxWord := by
    have hmax : maxWord = 2 ^ 64 - 1 := rfl
    omega
  refine ⟨?_, fun i v hvalue hitem => ?_, fun hnone => ?_⟩
  · rw [readIndex, Value.display, readProperty, if_neg (showNumber_ne_length x),
      itemNamed_showNumber hlength]
  · rw [readIndex, itemAt_of_rational? hvalue, hitem, Option.getD_some]
  · rw [readIndex, itemAt_of_forall_ne hnone]

/-- Negative zero gives the first item. -/
theorem index_agrees_with_property_zero :
    [Value.null].length < 2 ^ 63 ∧
      Double.zero.neg.rational? = some ((0 : Nat) : ℚ) ∧
      readIndex (.list [.null]) (.num Double.zero.neg) = .ok .null ∧
      readProperty (.list [.null]) (Value.num Double.zero.neg).display = .ok .null := by
  have hlength : [Value.null].length < 2 ^ 63 := by decide
  have hvalue : Double.zero.neg.rational? = some ((0 : Nat) : ℚ) := by
    have hzero : Double.zero.neg.isZero = true := by decide
    exact_mod_cast Double.toInt?_eq_some_iff.mp (Double.toInt?_of_isZero hzero)
  obtain ⟨hsame, hitem, -⟩ := index_agrees_with_property [.null] hlength Double.zero.neg
  have hnull := hitem 0 .null hvalue rfl
  exact ⟨hlength, hvalue, hnull, hsame ▸ hnull⟩

end Expr

end Resumable
