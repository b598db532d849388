import Resumable.Expr.Limits
import Resumable.Proofs.Expr.Reading
import Resumable.Proofs.Expr.Spelling
import Resumable.Proofs.Source.Pieces

/-!
# How far phrases extend

Three measures of a phrase are limited: how deep its brackets nest, how many nodes it has and how
many signs follow each other in it. Nesting is measured on the characters of a text, nodes and signs
on a list of marks that is written out for the phrase.

## The model

* `Source.Nests`: reading a text takes the scanner to a depth and back to its state.
* `Phrase.size`, `Phrase.signRun`: the nodes of a phrase and its longest run of signs.

## What is proved

* `nestingDepth_of_spelled`: a text that spells a phrase nests as deep as the phrase.
* `limit?_eq_none_iff`: a phrase passes no limit if it has few enough nodes and signs.
-/

namespace Resumable

/-! ### Depth of a text -/

namespace Source

variable {s : Scanner} {cs ds : List Char} {c q : Char} {m n : Nat}

theorem Scanner.depth_step_le (s : Scanner) (c : Char) : (s.step c).depth ≤ s.depth + 1 := by
  unfold step count
  split <;> split <;> try split
  all_goals simp only [depth]; omega

theorem depth_le_deepest (s : Scanner) (cs : List Char) : s.depth ≤ deepest s cs := by
  cases cs with
  | nil => exact Int.le_refl _
  | cons c cs => exact Int.le_max_left _ _

theorem deepest_append (s : Scanner) (cs ds : List Char) :
    deepest s (cs ++ ds) = max (deepest s cs) (deepest (s.run cs) ds) := by
  induction cs generalizing s with
  | nil => exact (Int.max_eq_right (depth_le_deepest s ds)).symm
  | cons c cs ih =>
    rw [List.cons_append, deepest, deepest, ih, ← Int.max_assoc]
    rfl

/-- A character opens at most one bracket. -/
theorem deepest_le (s : Scanner) (cs : List Char) : deepest s cs ≤ s.depth + cs.length := by
  induction cs generalizing s with
  | nil => simp [deepest]
  | cons c cs ih =>
    have := ih (s.step c)
    have := s.depth_step_le c
    simp only [deepest, List.length_cons]
    omega

/-- A text nests to a depth: outside strings, reading it takes the scanner that much deeper and back
to its state. -/
def Nests (cs : List Char) (n : Nat) : Prop :=
  ∀ s : Scanner, s.quote = none → s.run cs = s ∧ deepest s cs = s.depth + n

theorem Nests.append (hcs : Nests cs m) (hds : Nests ds n) : Nests (cs ++ ds) (max m n) := by
  intro s hs
  obtain ⟨hrun, hdeep⟩ := hcs s hs
  obtain ⟨hrun', hdeep'⟩ := hds s hs
  rw [Scanner.run_append, hrun, hrun', deepest_append, hrun, hdeep, hdeep']
  exact ⟨rfl, by omega⟩

theorem nests_plain (h : ∀ c ∈ cs, isPlain c = true) : Nests cs 0 := by
  intro s hs
  induction cs with
  | nil => exact ⟨rfl, (Int.add_zero _).symm⟩
  | cons c cs ih =>
    have hstep := Scanner.step_of_isPlain hs (h c (List.mem_cons_self ..))
    obtain ⟨hrun, hdeep⟩ := ih fun d hd => h d (List.mem_cons_of_mem _ hd)
    refine ⟨by rw [Scanner.run, List.foldl_cons, hstep]; exact hrun, ?_⟩
    rw [deepest, hstep, hdeep]
    simp

/-- Inside a string nothing counts until its quote comes again. -/
theorem inside_string (hs : s.quote = none) (h : q ∉ cs) :
    ({ s with quote := some q }).run (cs ++ [q]) = s ∧
      deepest { s with quote := some q } (cs ++ [q]) = s.depth := by
  induction cs with
  | nil =>
    obtain ⟨parens, braces, brackets, quote⟩ := s
    subst hs
    simp [Scanner.run, Scanner.step, deepest, Scanner.depth]
  | cons c cs ih =>
    obtain ⟨hne, hcs⟩ := not_or.mp (List.mem_cons.not.mp h)
    obtain ⟨hrun, hdeep⟩ := ih hcs
    have hstep : ({ s with quote := some q }).step c = { s with quote := some q } := by
      simp [Scanner.step, Ne.symm hne]
    refine ⟨by rw [Scanner.run, List.cons_append, List.foldl_cons, hstep]; exact hrun, ?_⟩
    rw [List.cons_append, deepest, hstep, hdeep]
    simp [Scanner.depth]

theorem nests_string (hq : isQuote q = true) (h : q ∉ cs) : Nests (q :: (cs ++ [q])) 0 := by
  intro s hs
  have hstep : s.step q = { s with quote := some q } := by simp [Scanner.step, hs, hq]
  obtain ⟨hrun, hdeep⟩ := inside_string hs h
  refine ⟨by rw [Scanner.run, List.foldl_cons, hstep]; exact hrun, ?_⟩
  rw [deepest, hstep, hdeep]
  simp

end Source

namespace Expr

open Source (Nests isPlain nests_plain nests_string)

variable {cs blanks w : List Char} {c : Char} {n m : Nat}

/-- An opening bracket takes the scanner one level deeper, and its closing bracket takes it back. -/
theorem Bracket.step_left (b : Bracket) {s : Source.Scanner} (hs : s.quote = none) :
    (s.step b.left).quote = none ∧ (s.step b.left).depth = s.depth + 1 ∧
      (s.step b.left).step b.right = s := by
  obtain ⟨parens, braces, brackets, quote⟩ := s
  obtain rfl : quote = none := hs
  cases b <;> refine ⟨rfl, ?_, ?_⟩
  all_goals
    simp [Source.Scanner.step, Source.isQuote, Source.Scanner.count, Source.Scanner.depth,
      Bracket.left, Bracket.right]
  all_goals omega

/-- A pair of brackets adds one level. -/
theorem Bracket.nests (b : Bracket) (h : Nests cs n) :
    Nests (b.left :: (cs ++ [b.right])) (n + 1) := by
  intro s hs
  obtain ⟨hquote, hdepth, hclose⟩ := b.step_left hs
  obtain ⟨hrun, hdeep⟩ := h (s.step b.left) hquote
  constructor
  · rw [Source.Scanner.run_cons, Source.Scanner.run_append, hrun]
    exact hclose
  · rw [Source.deepest, Source.deepest_append, hrun, hdeep, Source.deepest, hclose,
      Source.deepest, hdepth]
    omega

/-! ### Depth of a phrase -/

theorem isPlain_of_isNameChar (h : isNameChar c = true) : isPlain c = true := by
  cases hplain : isPlain c with
  | true => rfl
  | false =>
    -- A quote or a bracket is in no name.
    simp only [isPlain, Source.isQuote, Bool.and_eq_false_iff, Bool.not_eq_false', Bool.or_eq_true,
      beq_iff_eq, List.contains_iff_mem, List.mem_cons, List.not_mem_nil, or_false]
      at hplain
    rcases hplain with ((rfl | rfl) | rfl) | rfl | rfl | rfl | rfl | rfl | rfl <;>
      exact absurd h (by decide)

theorem isPlain_of_isSpace (h : isSpace c = true) : isPlain c = true := by
  simp only [isSpace, Bool.or_eq_true, beq_iff_eq] at h
  rcases h with ((rfl | rfl) | rfl) | rfl <;> decide

theorem nests_blanks (h : ∀ c ∈ cs, isSpace c = true) : Nests cs 0 :=
  nests_plain fun c hc => isPlain_of_isSpace (h c hc)

/-- There are only digits, letters, points and signs in a numeral. -/
theorem isNameChar_of_writes {d : Decimal} (h : Decimal.Writes w d) :
    ∀ c ∈ w, isNameChar c = true ∨ c = '.' ∨ c = '+' ∨ c = '-' := by
  obtain ⟨run, hfraction, hscaling⟩ := h
  have hdigits : ∀ {ds : List Char}, Decimal.IsRun ds → ∀ c ∈ ds, isNameChar c = true :=
    fun run c hc => Token.isNameChar_of_isDigit (run.digits c hc)
  have hletter : ∀ {c : Char}, c = 'e' ∨ c = 'E' → isNameChar c = true := by
    rintro c (rfl | rfl) <;> decide
  intro c hc
  rcases List.mem_append.mp hc with hc | hc
  · exact Or.inl (hdigits run c hc)
  rcases List.mem_append.mp hc with hc | hc
  · cases hfraction with
    | none => simp at hc
    | point run =>
      rcases List.mem_cons.mp hc with rfl | hc
      · exact Or.inr (Or.inl rfl)
      · exact Or.inl (hdigits run c hc)
  · cases hscaling with
    | none => simp at hc
    | plain letter run =>
      rcases List.mem_cons.mp hc with rfl | hc
      · exact Or.inl (hletter letter)
      · exact Or.inl (hdigits run c hc)
    | plus letter run | minus letter run =>
      rcases List.mem_cons.mp hc with rfl | hc
      · exact Or.inl (hletter letter)
      rcases List.mem_cons.mp hc with rfl | hc
      · simp
      · exact Or.inl (hdigits run c hc)

theorem isPlain_of_writes {d : Decimal} (h : Decimal.Writes w d) : ∀ c ∈ w, isPlain c = true := by
  intro c hc
  rcases isNameChar_of_writes h c hc with hname | rfl | rfl | rfl
  · exact isPlain_of_isNameChar hname
  all_goals decide

namespace Token

variable {t : Token} {ts us : List Token}

/-- Whether a token is a bracket. -/
def isBracket : Token → Bool
  | .opening _ => true
  | .closing _ => true
  | _ => false

theorem Spells.nests (h : Spells t w) (ht : t.isBracket = false) : Nests w 0 := by
  cases h with
  | name first others =>
    refine nests_plain fun c hc => ?_
    rcases List.mem_cons.mp hc with rfl | hc
    · exact isPlain_of_isNameChar (isNameChar_of_isNameStart first)
    · exact isPlain_of_isNameChar (others c hc)
  | number numeral => exact nests_plain (isPlain_of_writes numeral)
  | text isQuote apart => exact nests_string isQuote apart
  | op o => cases o <;> exact nests_plain (List.all_eq_true.mp (by decide))
  | bang | dot | comma | colon => exact nests_plain (List.all_eq_true.mp (by decide))
  | opening | closing => simp [isBracket] at ht

theorem Spelled.append_inv (h : Spelled (ts ++ us) cs) :
    ∃ cs₁ cs₂, cs = cs₁ ++ cs₂ ∧ Spelled ts cs₁ ∧ Spelled us cs₂ := by
  induction ts generalizing cs with
  | nil => exact ⟨[], cs, rfl, .done (by simp), h⟩
  | cons t ts ih =>
    cases h with
    | @token _ _ blanks w rest hblanks spells others =>
      obtain ⟨cs₁, cs₂, rfl, h₁, h₂⟩ := ih others
      exact ⟨blanks ++ (w ++ cs₁), cs₂, by simp, .token hblanks spells h₁, h₂⟩

/-- Tokens nest to a depth: every text that spells them does. -/
def Nest (ts : List Token) (n : Nat) : Prop := ∀ cs, Spelled ts cs → Nests cs n

theorem nest_nil : Nest [] 0 := by
  rintro cs (hblanks | _)
  exact nests_blanks hblanks

theorem Nest.append (hts : Nest ts m) (hus : Nest us n) : Nest (ts ++ us) (max m n) := by
  intro cs h
  obtain ⟨cs₁, cs₂, rfl, h₁, h₂⟩ := h.append_inv
  exact (hts cs₁ h₁).append (hus cs₂ h₂)

theorem Nest.cons (ht : t.isBracket = false) (hts : Nest ts n) : Nest (t :: ts) n := by
  intro cs h
  cases h with
  | token hblanks spells others =>
    have := (nests_blanks hblanks).append ((spells.nests ht).append (hts _ others))
    rwa [Nat.zero_max, Nat.zero_max] at this

theorem Nest.bracketed (b : Bracket) (hts : Nest ts n) :
    Nest (.opening b :: (ts ++ [.closing b])) (n + 1) := by
  intro cs h
  cases h with
  | token hblanks spells others =>
    cases spells
    obtain ⟨cs₁, cs₂, rfl, h₁, h₂⟩ := others.append_inv
    cases h₂ with
    | token hblanks' spells' others' =>
      cases spells'
      have hinner := b.nests ((hts cs₁ h₁).append (nests_blanks hblanks'))
      have := (nests_blanks hblanks).append (hinner.append (nest_nil _ others'))
      simpa using this

end Token

/-- How many nodes the name of a property has. -/
def Key.size : Key → Nat
  | .text _ _ => 2
  | _ => 1

theorem Key.length_marks (k : Key) : k.marks.length = k.size := by cases k <;> rfl

namespace Phrase

open Token (Nest nest_nil)

variable {α : Type} {write : α → List Token} {depth : α → Nat}

/-- The deepest nesting among members. -/
theorem nest_intercalate {as : List α} (h : ∀ a ∈ as, Nest (write a) (depth a)) :
    Nest ([.comma].intercalate (as.map write)) (as.foldr (fun a n => max (depth a) n) 0) := by
  induction as with
  | nil => exact nest_nil
  | cons a as ih =>
    have ha := h a (List.mem_cons_self ..)
    have has := ih fun b hb => h b (List.mem_cons_of_mem _ hb)
    cases as with
    | nil => simpa [List.intercalate] using ha
    | cons b as =>
      have := ha.append (has.cons (t := .comma) rfl)
      simpa [List.intercalate] using this

theorem itemsNesting_eq_foldr (ps : List Phrase) :
    itemsNesting ps = ps.foldr (fun p n => max p.nesting n) 0 := by
  induction ps with
  | nil => rfl
  | cons p ps ih => rw [itemsNesting, ih, List.foldr_cons]

theorem propsNesting_eq_foldr (ps : List (Key × Phrase)) :
    propsNesting ps = ps.foldr (fun kp n => max kp.2.nesting n) 0 := by
  induction ps with
  | nil => rfl
  | cons kp ps ih => rw [propsNesting, ih, List.foldr_cons]

/-- Members between brackets add one level to the deepest of them. -/
theorem nest_listed {as : List α} (b : Bracket) (trailing : Bool)
    (h : ∀ a ∈ as, Nest (write a) (depth a)) :
    Nest (.opening b :: listed b (as.map write) trailing)
      (as.foldr (fun a n => max (depth a) n) 0 + 1) := by
  have hcomma : Nest (if trailing then [Token.comma] else []) 0 := by
    cases trailing with
    | true => exact nest_nil.cons rfl
    | false => exact nest_nil
  have := ((nest_intercalate h).append hcomma).bracketed b
  rwa [List.append_assoc, Nat.max_zero] at this

/-- The tokens of a phrase nest as deep as the phrase. -/
theorem Fits.nest {p : Phrase} (h : Fits p) : Nest p.tokens p.nesting := by
  induction h with
  | keyword | number | text | name => exact nest_nil.cons rfl
  | group inner ih => exact ih.bracketed .round
  | @object props trailing values last ih =>
    rw [tokens, nesting, propTokens_eq_map, propsNesting_eq_foldr]
    refine nest_listed .curly trailing fun kp hkp => ((ih kp hkp).cons rfl).cons ?_
    cases kp.1 <;> rfl
  | @array items trailing values last ih =>
    rw [tokens, nesting, itemTokens_eq_map, itemsNesting_eq_foldr]
    exact nest_listed .square trailing ih
  | @member p n base tight ih =>
    have hread : Nest [.dot, .name n] 0 := (nest_nil.cons rfl).cons rfl
    have := ih.append hread
    rwa [Nat.max_zero] at this
  | index base tight subscript ihp ihi => exact ihp.append (ihi.bracketed .square)
  | @unary op p operand tight ih => exact ih.cons (by cases op <;> rfl)
  | binary left right leftTight rightTight ihl ihr => exact ihl.append (ihr.cons rfl)

/-- A text that spells a phrase nests as deep as the phrase. -/
theorem nestingDepth_of_spelled {p : Phrase} (hp : Fits p) (h : Token.Spelled p.tokens cs) :
    Source.nestingDepth cs = p.nesting := by
  obtain ⟨-, hdeep⟩ := hp.nest cs h {} rfl
  rw [Source.nestingDepth, hdeep]
  simp [Source.Scanner.depth]

/-- A phrase nests no deeper than its text is long. -/
theorem nesting_le_length {p : Phrase} (hp : Fits p) (h : Token.Spelled p.tokens cs) :
    p.nesting ≤ cs.length := by
  have hle := Source.deepest_le {} cs
  rw [← nestingDepth_of_spelled hp h, Source.nestingDepth]
  simp only [Source.Scanner.depth] at hle
  omega

/-! ### Nodes and signs -/

mutual
/-- How many nodes a phrase has. A string has one for its content, a property read one for what it
reads, and each item, property and property's value one for itself. -/
def size : Phrase → Nat
  | .keyword _ => 1
  | .number _ => 1
  | .text _ _ => 2
  | .name _ => 1
  | .group p => p.size + 1
  | .object props _ => propsSize props + 1
  | .array items _ => itemsSize items + 1
  | .member p _ => p.size + 2
  | .index p i => p.size + 2 + i.size
  | .unary _ p => p.size + 1
  | .binary _ l r => l.size + 1 + r.size

/-- The nodes of properties. -/
def propsSize : List (Key × Phrase) → Nat
  | [] => 0
  | (k, p) :: ps => k.size + 2 + p.size + propsSize ps

/-- The nodes of items. -/
def itemsSize : List Phrase → Nat
  | [] => 0
  | p :: ps => 1 + p.size + itemsSize ps
end

/-- How many signs a phrase starts with. -/
def leadingSigns : Phrase → Nat
  | .member p _ => p.leadingSigns
  | .index p _ => p.leadingSigns
  | .unary _ p => p.leadingSigns + 1
  | .binary _ l _ => l.leadingSigns
  | _ => 0

mutual
/-- How many signs follow each other where a phrase has most of them in a row. -/
def signRun : Phrase → Nat
  | .keyword _ => 0
  | .number _ => 0
  | .text _ _ => 0
  | .name _ => 0
  | .group p => p.signRun
  | .object props _ => propsSignRun props
  | .array items _ => itemsSignRun items
  | .member p _ => p.signRun
  | .index p i => max p.signRun i.signRun
  | .unary _ p => max (p.leadingSigns + 1) p.signRun
  | .binary _ l r => max l.signRun r.signRun

/-- The longest run of signs in the values of properties. -/
def propsSignRun : List (Key × Phrase) → Nat
  | [] => 0
  | (_, p) :: ps => max p.signRun (propsSignRun ps)

/-- The longest run of signs in items. -/
def itemsSignRun : List Phrase → Nat
  | [] => 0
  | p :: ps => max p.signRun (itemsSignRun ps)
end

theorem leadingSigns_le_signRun (p : Phrase) : p.leadingSigns ≤ p.signRun := by
  fun_induction leadingSigns p with
  | case1 p _ ih => rw [signRun]; exact ih
  | case2 p i ih => rw [signRun]; exact Nat.le_trans ih (Nat.le_max_left _ _)
  | case3 => rw [signRun]; exact Nat.le_max_left _ _
  | case4 _ l r ih => rw [signRun]; exact Nat.le_trans ih (Nat.le_max_left _ _)
  | case5 => exact Nat.zero_le _

mutual
theorem length_marks : ∀ (p : Phrase) (rest : List Mark),
    (p.marks rest).length = p.size + rest.length
  | .keyword _, rest | .number _, rest | .name _, rest | .text _ _, rest => by
    simp only [marks, size, List.length_cons]; omega
  | .group p, rest => by
    simp only [marks, size, List.length_cons, length_marks p]; omega
  | .object props _, rest => by
    simp only [marks, size, List.length_cons, length_propMarks props]; omega
  | .array items _, rest => by
    simp only [marks, size, List.length_cons, length_itemMarks items]; omega
  | .member p _, rest => by
    simp only [marks, size, List.length_cons, length_marks p]; omega
  | .index p i, rest => by
    simp only [marks, size, List.length_cons, length_marks p, length_marks i]; omega
  | .unary _ p, rest => by
    simp only [marks, size, List.length_cons, length_marks p]; omega
  | .binary _ l r, rest => by
    simp only [marks, size, List.length_cons, length_marks l, length_marks r]; omega

theorem length_propMarks : ∀ (ps : List (Key × Phrase)) (rest : List Mark),
    (propMarks ps rest).length = propsSize ps + rest.length
  | [], rest => by simp only [propMarks, propsSize]; omega
  | (k, p) :: ps, rest => by
    simp only [propMarks, propsSize, List.length_cons, List.length_append, k.length_marks,
      length_marks p, length_propMarks ps]
    omega

theorem length_itemMarks : ∀ (ps : List Phrase) (rest : List Mark),
    (itemMarks ps rest).length = itemsSize ps + rest.length
  | [], rest => by simp only [itemMarks, itemsSize]; omega
  | p :: ps, rest => by
    simp only [itemMarks, itemsSize, List.length_cons, length_marks p, length_itemMarks ps]
    omega
end

/-- The longest run of signs among marks, if a run is going on before them. -/
def longestRun : Nat → List Mark → Nat
  | run, [] => run
  | run, .plain :: ms => max run (longestRun 0 ms)
  | run, .sign :: ms => longestRun (run + 1) ms

theorem le_longestRun (run : Nat) (ms : List Mark) : run ≤ longestRun run ms := by
  fun_induction longestRun run ms with
  | case1 => exact Nat.le_refl _
  | case2 => exact Nat.le_max_left _ _
  | case3 run ms ih => omega

/-- No limit is passed if neither the number of nodes nor a run of signs is too great. -/
theorem passed?_eq_none_iff {nodes signs : Nat} (hnodes : nodes ≤ maxNodes)
    (hsigns : signs ≤ maxSigns) (ms : List Mark) :
    passed? nodes signs ms = none ↔
      nodes + ms.length ≤ maxNodes ∧ longestRun signs ms ≤ maxSigns := by
  induction ms generalizing nodes signs with
  | nil => simp [passed?, longestRun, hnodes, hsigns]
  | cons m ms ih =>
    rw [passed?.eq_def]
    dsimp only
    split
    · simp only [reduceCtorEq, List.length_cons, false_iff]
      omega
    · cases m with
      | plain =>
        simp only [ih (Nat.not_lt.mp ‹_›) (Nat.zero_le _), longestRun, List.length_cons]
        omega
      | sign =>
        have := le_longestRun (signs + 1) ms
        dsimp only
        split
        · simp only [reduceCtorEq, longestRun, false_iff]
          omega
        · simp only [ih (Nat.not_lt.mp ‹_›) (Nat.not_lt.mp ‹_›), longestRun, List.length_cons]
          omega

mutual
/-- A phrase goes on with a run of signs by those it starts with, and ends every run. -/
theorem longestRun_marks : ∀ (p : Phrase) (run : Nat) (rest : List Mark),
    longestRun run (p.marks rest) =
      max (run + p.leadingSigns) (max p.signRun (longestRun 0 rest))
  | .keyword _, run, rest | .number _, run, rest | .name _, run, rest | .text _ _, run, rest => by
    simp only [marks, longestRun, leadingSigns, signRun]; omega
  | .group p, run, rest => by
    have := leadingSigns_le_signRun p
    simp only [marks, longestRun, leadingSigns, signRun, longestRun_marks p]; omega
  | .object props _, run, rest => by
    simp only [marks, longestRun, leadingSigns, signRun, longestRun_propMarks props]; omega
  | .array items _, run, rest => by
    simp only [marks, longestRun, leadingSigns, signRun, longestRun_itemMarks items]; omega
  | .member p _, run, rest => by
    simp only [marks, longestRun, leadingSigns, signRun, longestRun_marks p]; omega
  | .index p i, run, rest => by
    have := leadingSigns_le_signRun i
    simp only [marks, longestRun, leadingSigns, signRun, longestRun_marks p, longestRun_marks i]
    omega
  | .unary _ p, run, rest => by
    simp only [marks, longestRun, leadingSigns, signRun, longestRun_marks p]; omega
  | .binary _ l r, run, rest => by
    have := leadingSigns_le_signRun r
    simp only [marks, longestRun, leadingSigns, signRun, longestRun_marks l, longestRun_marks r]
    omega

theorem longestRun_propMarks : ∀ (ps : List (Key × Phrase)) (rest : List Mark),
    longestRun 0 (propMarks ps rest) = max (propsSignRun ps) (longestRun 0 rest)
  | [], rest => by simp only [propMarks, propsSignRun]; omega
  | (k, p) :: ps, rest => by
    have := leadingSigns_le_signRun p
    cases k
    all_goals
      simp only [propMarks, propsSignRun, Key.marks, List.cons_append, List.nil_append, longestRun,
        longestRun_marks p, longestRun_propMarks ps]
      omega

theorem longestRun_itemMarks : ∀ (ps : List Phrase) (rest : List Mark),
    longestRun 0 (itemMarks ps rest) = max (itemsSignRun ps) (longestRun 0 rest)
  | [], rest => by simp only [itemMarks, itemsSignRun]; omega
  | p :: ps, rest => by
    have := leadingSigns_le_signRun p
    simp only [itemMarks, itemsSignRun, longestRun, longestRun_marks p, longestRun_itemMarks ps]
    omega
end

/-- A phrase passes no limit if it has few enough nodes and no run of too many signs. -/
theorem limit?_eq_none_iff (p : Phrase) :
    p.limit? = none ↔ p.size ≤ maxNodes ∧ p.signRun ≤ maxSigns := by
  have hle := leadingSigns_le_signRun p
  rw [limit?, passed?_eq_none_iff (Nat.zero_le _) (Nat.zero_le _), length_marks, longestRun_marks]
  simp only [List.length_nil, longestRun]
  omega

end Phrase

end Expr

end Resumable
