import Mathlib.Data.List.Induction
import Resumable.Proofs.Decimal.Signed
import Resumable.Proofs.Double.Nearest
import Resumable.Value.Convert

/-!
# Texts that stand for numbers

A text stands for a number if, without the blanks at its ends, it is empty, an infinity, a signed
decimal, or an integer of radix sixteen, eight or two behind its mark. The conversion goes by these
forms with two exceptions, both behind a mark: an integer past 64 bits is refused, and a plus sign
before the digits is let through.

## The model

* `Text.WritesNatural`: a text is a natural number in a radix.
* `Marked`, `WritesMarked`: what stands behind the mark of a radix, and the integer it is.
* `IsNumeric`: the forms of a number.

## What is proved

* `natural?_eq_some_iff`, `word?_eq_some_iff`, `radixMark_eq_some_iff`: each reader accepts exactly
  its form.
* `number_of_text`: a text is a number exactly if it has one of the forms, the two exceptions apart,
  and an integer behind a mark converts to the nearest number.
-/

namespace Resumable

/-! ### Natural numbers in a radix -/

namespace Text

variable {radix n : Nat} {cs : List Char}

/-- A text is a natural number in a radix: at least one digit and nothing else, the most significant
digit first. -/
inductive WritesNatural (radix : Nat) : List Char → Nat → Prop where
  /-- One digit. -/
  | digit {c : Char} {d : Nat} (h : digitOf radix c = some d) : WritesNatural radix [c] d
  /-- A digit more. -/
  | snoc {cs : List Char} {n : Nat} {c : Char} {d : Nat} (init : WritesNatural radix cs n)
      (h : digitOf radix c = some d) : WritesNatural radix (cs ++ [c]) (n * radix + d)

theorem natural?_of_ne_nil (h : cs ≠ []) :
    natural? radix cs = (digitsOf radix cs).map (ofDigits radix) := by
  obtain ⟨c, cs, rfl⟩ := List.exists_cons_of_ne_nil h
  rfl

theorem natural?_singleton (c : Char) : natural? radix [c] = digitOf radix c := by
  rw [natural?_of_ne_nil (List.cons_ne_nil c []), digitsOf]
  cases h : digitOf radix c with
  | none => simp [h]
  | some d => simp [h, ofDigits]

theorem natural?_concat (h : cs ≠ []) (c : Char) :
    natural? radix (cs ++ [c]) = (natural? radix cs).bind fun n =>
      (digitOf radix c).map fun d => n * radix + d := by
  rw [natural?_of_ne_nil (by simp), natural?_of_ne_nil h, digitsOf, digitsOf, List.mapM_append]
  cases cs.mapM (digitOf radix) with
  | none => rfl
  | some ds =>
    cases hc : digitOf radix c with
    | none => simp [hc]
    | some d => simp [hc, ofDigits]

/-- A text is read as a natural number exactly if it is one. -/
theorem natural?_eq_some_iff : natural? radix cs = some n ↔ WritesNatural radix cs n := by
  constructor
  · intro h
    induction cs using List.reverseRecOn generalizing n with
    | nil => simp [natural?] at h
    | append_singleton cs c ih =>
      by_cases hne : cs = []
      · subst hne
        rw [List.nil_append, natural?_singleton] at h
        exact .digit h
      · rw [natural?_concat hne] at h
        obtain ⟨m, hm, h⟩ := Option.bind_eq_some_iff.mp h
        obtain ⟨d, hd, rfl⟩ := Option.map_eq_some_iff.mp h
        exact .snoc (ih hm) hd
  · intro h
    induction h with
    | digit hd => rw [natural?_singleton, hd]
    | @snoc cs n c d init hd ih =>
      have hne : cs ≠ [] := by
        rintro rfl
        simp [natural?] at ih
      rw [natural?_concat hne, ih, Option.bind_some, hd, Option.map_some]

/-- A text is one natural number at most. -/
theorem WritesNatural.eq {m : Nat} (h : WritesNatural radix cs n) (h' : WritesNatural radix cs m) :
    m = n := by
  rw [← natural?_eq_some_iff] at h h'
  exact Option.some.inj (h'.symm.trans h)

theorem not_writesNatural_plus (cs : List Char) : ¬ WritesNatural radix ('+' :: cs) n := by
  intro h
  have hplus : digitOf radix '+' = none := rfl
  rw [← natural?_eq_some_iff, natural?, digitsOf, List.mapM_cons, hplus] at h
  simp at h

/-- A text is read as a 64-bit numeral exactly if it is a natural number in range, with or without a
plus sign before it. -/
theorem word?_eq_some_iff : word? radix cs = some n ↔
    (WritesNatural radix cs n ∨ ∃ digits, cs = '+' :: digits ∧ WritesNatural radix digits n) ∧
      n ≤ maxWord := by
  simp only [word?, Option.filter_eq_some_iff, decide_eq_true_eq, natural?_eq_some_iff]
  refine and_congr_left fun _ => ?_
  split
  · rename_i rest
    constructor
    · exact fun h => .inr ⟨rest, rfl, h⟩
    · rintro (h | ⟨digits, heq, h⟩)
      · exact absurd h (not_writesNatural_plus rest)
      · rwa [(List.cons.inj heq).2]
  · rename_i hplus
    constructor
    · exact .inl
    · rintro (h | ⟨digits, rfl, -⟩)
      · exact h
      · exact absurd rfl (hplus digits)

end Text

namespace Value

open Text (WritesNatural maxWord)

variable {radix n : Nat} {cs digits : List Char}

/-! ### The forms of a number -/

/-- The marks of the radices. -/
def marks : List (List Char × Nat) :=
  [(['0', 'x'], 16), (['0', 'X'], 16), (['0', 'o'], 8), (['0', 'O'], 8), (['0', 'b'], 2),
    (['0', 'B'], 2)]

/-- A text is a mark of a radix and something behind it. -/
def Marked (radix : Nat) (behind cs : List Char) : Prop :=
  ∃ mark, (mark, radix) ∈ marks ∧ cs = mark ++ behind

/-- A text is a natural number behind the mark of its radix. -/
def WritesMarked (cs : List Char) (n : Nat) : Prop :=
  ∃ radix digits, Marked radix digits cs ∧ WritesNatural radix digits n

/-- A text is a natural number with a plus sign behind the mark of its radix. -/
def WritesPlus (cs : List Char) (n : Nat) : Prop :=
  ∃ radix digits, Marked radix ('+' :: digits) cs ∧ WritesNatural radix digits n

/-- The forms of a number. -/
inductive IsNumeric : List Char → Prop where
  /-- Nothing at all. -/
  | empty : IsNumeric []
  /-- An infinity. -/
  | infinity {word : String} (h : word ∈ ["Infinity", "+Infinity", "-Infinity"]) :
      IsNumeric word.toList
  /-- A signed decimal. -/
  | decimal {cs : List Char} {negative : Bool} {d : Decimal}
      (h : Decimal.WritesSigned cs negative d) : IsNumeric cs
  /-- An integer behind the mark of its radix. -/
  | marked {cs : List Char} {n : Nat} (h : WritesMarked cs n) : IsNumeric cs

/-! ### Marks -/

theorem radixMark_eq_some_iff : radixMark cs = some (radix, digits) ↔ Marked radix digits cs := by
  constructor
  · intro h
    unfold radixMark at h
    split at h <;> simp only [Option.some.injEq, Prod.mk.injEq, reduceCtorEq] at h <;>
      obtain ⟨rfl, rfl⟩ := h
    · exact ⟨['0', 'x'], by decide, rfl⟩
    · exact ⟨['0', 'X'], by decide, rfl⟩
    · exact ⟨['0', 'o'], by decide, rfl⟩
    · exact ⟨['0', 'O'], by decide, rfl⟩
    · exact ⟨['0', 'b'], by decide, rfl⟩
    · exact ⟨['0', 'B'], by decide, rfl⟩
  · rintro ⟨mark, hmark, rfl⟩
    simp only [marks, List.mem_cons, Prod.mk.injEq, List.not_mem_nil, or_false] at hmark
    rcases hmark with ⟨rfl, rfl⟩ | ⟨rfl, rfl⟩ | ⟨rfl, rfl⟩ | ⟨rfl, rfl⟩ | ⟨rfl, rfl⟩ | ⟨rfl, rfl⟩ <;>
      rfl

theorem not_marked_of_radixMark (h : radixMark cs = none) : ¬ Marked radix digits cs := by
  intro hmarked
  rw [radixMark_eq_some_iff.mpr hmarked] at h
  simp at h

/-- A text has at most one mark. -/
theorem Marked.eq {radix' : Nat} {digits' : List Char} (h : Marked radix digits cs)
    (h' : Marked radix' digits' cs) : radix' = radix ∧ digits' = digits := by
  have heq := (radixMark_eq_some_iff.mpr h').symm.trans (radixMark_eq_some_iff.mpr h)
  exact Prod.mk.inj (Option.some.inj heq)

theorem Marked.writesMarked_iff (h : Marked radix digits cs) :
    WritesMarked cs n ↔ WritesNatural radix digits n := by
  constructor
  · rintro ⟨radix', digits', h', hn⟩
    obtain ⟨rfl, rfl⟩ := h.eq h'
    exact hn
  · exact fun hn => ⟨radix, digits, h, hn⟩

theorem Marked.writesPlus_iff (h : Marked radix digits cs) :
    WritesPlus cs n ↔ ∃ rest, digits = '+' :: rest ∧ WritesNatural radix rest n := by
  constructor
  · rintro ⟨radix', rest, h', hn⟩
    obtain ⟨rfl, rfl⟩ := h.eq h'
    exact ⟨rest, rfl, hn⟩
  · rintro ⟨rest, rfl, hn⟩
    exact ⟨radix, rest, h, hn⟩

/-- Behind the zero of a mark stands a letter, which no signed decimal has there. -/
theorem Marked.signed?_eq_none (h : Marked radix digits cs) : Decimal.signed? cs = none := by
  have hletter : ∀ c ∈ ['x', 'X', 'o', 'O', 'b', 'B'], ∀ rest,
      Decimal.signed? ('0' :: c :: rest) = none := by
    intro c hc rest
    have hdigit : Decimal.isDigit c = false ∧ c ≠ 'e' ∧ c ≠ 'E' := by
      simp only [List.mem_cons, List.not_mem_nil, or_false] at hc
      rcases hc with rfl | rfl | rfl | rfl | rfl | rfl <;> decide
    have hspan : Decimal.spanDigits ('0' :: c :: rest) = (['0'], c :: rest) :=
      Decimal.spanDigits_append (Decimal.isRun_singleton (by decide))
        (Text.ends_cons hdigit.1 rest)
    have hpoint : Decimal.takePoint (c :: rest) = ([], c :: rest) := by
      unfold Decimal.takePoint
      split
      · simp_all
      · rfl
    have hexponent : Decimal.exponent? (c :: rest) = none := by
      apply Decimal.exponent?_eq_none
      rintro _ ⟨⟩
      exact hdigit.2
    simp [Decimal.signed?_eq, Decimal.takeSign, hspan, hpoint, Decimal.scaling?, hexponent]
  obtain ⟨mark, hmark, rfl⟩ := h
  simp only [marks, List.mem_cons, Prod.mk.injEq, List.not_mem_nil, or_false] at hmark
  rcases hmark with ⟨rfl, -⟩ | ⟨rfl, -⟩ | ⟨rfl, -⟩ | ⟨rfl, -⟩ | ⟨rfl, -⟩ | ⟨rfl, -⟩ <;>
    exact hletter _ (by decide) digits

/-! ### Conversion -/

theorem Marked.ne (h : Marked radix digits cs) {w : List Char} (hw : radixMark w = none) :
    cs ≠ w := by
  rintro rfl
  exact not_marked_of_radixMark hw h

/-- Behind a mark stands an integer of 64 bits, or the text is no number. -/
theorem Marked.numberOfTrimmed_eq (h : Marked radix digits cs) :
    numberOfTrimmed cs = match Text.word? radix digits with
      | some n => .ofNat n
      | none => .nan := by
  have hempty : ¬ cs.isEmpty = true := by
    rw [List.isEmpty_iff]
    exact h.ne rfl
  have hplus : ¬ (cs = "Infinity".toList ∨ cs = "+Infinity".toList) := by
    rw [not_or]
    exact ⟨h.ne rfl, h.ne rfl⟩
  have hminus : cs ≠ "-Infinity".toList := h.ne rfl
  unfold numberOfTrimmed
  cases hword : Text.word? radix digits <;>
    simp only [if_neg hempty, if_neg hplus, if_neg hminus, radixMark_eq_some_iff.mpr h, hword]

/-- A text with a mark has no other form than that of an integer behind it. -/
theorem Marked.isNumeric_iff (h : Marked radix digits cs) :
    IsNumeric cs ↔ ∃ n, WritesMarked cs n := by
  constructor
  · intro hnumeric
    cases hnumeric with
    | empty => exact absurd rfl (h.ne rfl)
    | infinity hword =>
      simp only [List.mem_cons, List.not_mem_nil, or_false] at hword
      rcases hword with rfl | rfl | rfl <;> exact absurd rfl (h.ne rfl)
    | decimal hd =>
      rw [← Decimal.signed?_eq_some_iff, h.signed?_eq_none] at hd
      simp at hd
    | marked hn => exact ⟨_, hn⟩
  · exact fun ⟨n, hn⟩ => .marked hn

/-- A text without a mark is a number exactly if it has one of the other forms. -/
theorem isNaN_of_radixMark (h : radixMark cs = none) :
    (numberOfTrimmed cs).isNaN = false ↔ IsNumeric cs := by
  by_cases hempty : cs = []
  · subst hempty
    exact iff_of_true rfl .empty
  by_cases hplus : cs = "Infinity".toList ∨ cs = "+Infinity".toList
  · rw [numberOfTrimmed, if_neg (by simpa using hempty), if_pos hplus]
    refine iff_of_true rfl ?_
    rcases hplus with rfl | rfl <;> exact .infinity (by decide)
  by_cases hminus : cs = "-Infinity".toList
  · rw [numberOfTrimmed, if_neg (by simpa using hempty), if_neg hplus, if_pos hminus, hminus]
    exact iff_of_true rfl (.infinity (by decide))
  rw [numberOfTrimmed, if_neg (by simpa using hempty), if_neg hplus, if_neg hminus, h]
  dsimp only
  split
  · rename_i negative d hd
    exact iff_of_true (Double.isNaN_ofRank negative _) (.decimal (Decimal.signed?_eq_some_iff.mp hd))
  · rename_i hnone
    refine iff_of_false (by simp [Double.isNaN]) fun hnumeric => ?_
    cases hnumeric with
    | empty => exact hempty rfl
    | infinity hword =>
      simp only [List.mem_cons, List.not_mem_nil, or_false] at hword
      rcases hword with rfl | rfl | rfl <;> simp at hplus hminus
    | decimal hd => simp [Decimal.signed?_eq_some_iff.mpr hd] at hnone
    | marked hmarked =>
      obtain ⟨radix, digits, hmarked, -⟩ := hmarked
      exact not_marked_of_radixMark h hmarked

/-- A text with a mark is a number exactly if an integer of 64 bits stands behind it, with or without
a plus sign. -/
theorem Marked.isNaN_iff (h : Marked radix digits cs) : (numberOfTrimmed cs).isNaN = false ↔
    (IsNumeric cs ∧ ∀ n, WritesMarked cs n → n ≤ maxWord) ∨
      ∃ n, WritesPlus cs n ∧ n ≤ maxWord := by
  have hword : (numberOfTrimmed cs).isNaN = false ↔ ∃ n, Text.word? radix digits = some n := by
    rw [h.numberOfTrimmed_eq]
    split
    · rename_i n hn
      exact iff_of_true (Double.isNaN_ofNat n) ⟨n, hn⟩
    · rename_i hnone
      exact iff_of_false (by simp [Double.isNaN]) (by simp [hnone])
  simp only [hword, Text.word?_eq_some_iff, h.isNumeric_iff, h.writesMarked_iff, h.writesPlus_iff]
  constructor
  · rintro ⟨n, hn | hn, hle⟩
    · exact .inl ⟨⟨n, hn⟩, fun m hm => hn.eq hm ▸ hle⟩
    · exact .inr ⟨n, hn, hle⟩
  · rintro (⟨⟨n, hn⟩, hle⟩ | ⟨n, hn, hle⟩)
    · exact ⟨n, .inl hn, hle n hn⟩
    · exact ⟨n, .inr hn, hle⟩

/-- An integer of 64 bits behind a mark converts to the nearest number. -/
theorem isNearest_of_marked (h : WritesMarked cs n ∨ WritesPlus cs n) (hn : n ≤ maxWord) :
    Double.IsNearest n (numberOfTrimmed cs) := by
  have hword : ∃ radix digits, Marked radix digits cs ∧ Text.word? radix digits = some n := by
    rcases h with ⟨radix, digits, hmarked, hdigits⟩ | ⟨radix, digits, hmarked, hdigits⟩
    · exact ⟨radix, digits, hmarked, Text.word?_eq_some_iff.mpr ⟨.inl hdigits, hn⟩⟩
    · exact ⟨radix, _, hmarked, Text.word?_eq_some_iff.mpr ⟨.inr ⟨digits, rfl, hdigits⟩, hn⟩⟩
  obtain ⟨radix, digits, hmarked, hword⟩ := hword
  rw [hmarked.numberOfTrimmed_eq, hword]
  apply Double.isNearest_ofNat
  apply Double.isFinite_ofNat
  calc 2 * (n * Double.one) ≤ 2 * (maxWord * Double.one) :=
        Nat.mul_le_mul_left 2 (Nat.mul_le_mul_right _ hn)
    _ < Double.units Double.topRank := by decide +kernel

/-- **A text is a number exactly if it has one of the forms**, but for two exceptions behind a mark:
an integer past 64 bits is none, and an integer with a plus sign is one. An integer of 64 bits
behind a mark converts to the nearest number. -/
theorem number_of_text (s : String) :
    ((Value.str s).toNumber.isNaN = false ↔
      (IsNumeric (Text.trim s.toList) ∧
        ∀ n, WritesMarked (Text.trim s.toList) n → n ≤ maxWord) ∨
      ∃ n, WritesPlus (Text.trim s.toList) n ∧ n ≤ maxWord) ∧
    ∀ n, WritesMarked (Text.trim s.toList) n ∨ WritesPlus (Text.trim s.toList) n → n ≤ maxWord →
      Double.IsNearest n (Value.str s).toNumber := by
  rw [toNumber, numberOfText]
  generalize Text.trim s.toList = cs
  refine ⟨?_, fun n h hn => isNearest_of_marked h hn⟩
  cases hmark : radixMark cs with
  | none =>
    have hfree : ∀ radix digits, ¬ Marked radix digits cs :=
      fun radix digits => not_marked_of_radixMark hmark
    rw [isNaN_of_radixMark hmark]
    constructor
    · exact fun h => .inl ⟨h, fun n ⟨radix, digits, hmarked, _⟩ => absurd hmarked (hfree _ _)⟩
    · rintro (⟨h, -⟩ | ⟨n, ⟨radix, digits, hmarked, -⟩, -⟩)
      · exact h
      · exact absurd hmarked (hfree _ _)
  | some m =>
    obtain ⟨radix, digits⟩ := m
    exact (radixMark_eq_some_iff.mp hmark).isNaN_iff

/-- The integer `2 ^ 53 + 1` lies halfway between two numbers and goes to the even one. -/
theorem number_of_text_halfway :
    WritesMarked (Text.trim " 0X20000000000001".toList) (2 ^ 53 + 1) ∧
      Double.IsNearest (2 ^ 53 + 1 : Nat) (Value.str " 0X20000000000001").toNumber := by
  have hmarked : WritesMarked (Text.trim " 0X20000000000001".toList) (2 ^ 53 + 1) := by
    refine ⟨16, "20000000000001".toList, ⟨['0', 'X'], by decide, by decide⟩, ?_⟩
    exact Text.natural?_eq_some_iff.mp (by decide)
  exact ⟨hmarked, (number_of_text " 0X20000000000001").2 _ (.inl hmarked) (by decide)⟩

/-- The integer `2 ^ 64` behind its mark has the form of a number and is lost, and an integer with a
plus sign behind the mark does not have it and is let through. -/
theorem marked_integer_lost :
    (IsNumeric (Text.trim "0x10000000000000000".toList) ∧
      (Value.str "0x10000000000000000").toNumber.isNaN = true) ∧
    (¬ IsNumeric (Text.trim "0x+1".toList) ∧ (Value.str "0x+1").toNumber.isNaN = false) := by
  refine ⟨⟨?_, ?_⟩, ?_, ?_⟩
  · have hmarked : Marked 16 "10000000000000000".toList
        (Text.trim "0x10000000000000000".toList) := ⟨['0', 'x'], by decide, by decide⟩
    have hnatural : WritesNatural 16 "10000000000000000".toList (2 ^ 64) :=
      Text.natural?_eq_some_iff.mp (by decide)
    exact .marked (hmarked.writesMarked_iff.mpr hnatural)
  · decide +kernel
  · have hmarked : Marked 16 "+1".toList (Text.trim "0x+1".toList) :=
      ⟨['0', 'x'], by decide, by decide⟩
    rw [hmarked.isNumeric_iff]
    rintro ⟨n, hn⟩
    exact Text.not_writesNatural_plus _ (hmarked.writesMarked_iff.mp hn)
  · decide +kernel

end Value

end Resumable
