import Mathlib.Data.List.Basic
import Resumable.Expr.Grammar

/-!
# Precedence

Operators bind with different strength, from `||`, the loosest, over the tiers of the other binary
operators and the signs to the property reads, the tightest; binary operators of one tier associate
to the left. A phrase whose operands bind tightly enough can be written without further
parentheses, and its operators and operands then stand in a row.

## The model

* `Phrase.tokens`: the tokens of a phrase from left to right.
* `Phrase.tier` and `Phrase.Fits`: how tightly a phrase binds, and that each operand binds tightly
  enough where it stands. A looser one has to be a group in parentheses.
* `Phrase.spine`: the operands and binary operators of a phrase in a row, as they are written.

## What is proved

* `IsRow.assembles`: a row of operands is put together to a phrase that fits and is written as
  the row is.
* `assemble_spine`: a phrase that fits is put together from its own row.
-/

namespace Resumable

/-- The token of an operator before its operand. -/
def UnaryOp.token : UnaryOp → Expr.Token
  | .not => .bang
  | .neg => .op .sub

namespace Expr

/-- The word of a keyword. -/
def Keyword.word : Keyword → String
  | .true => "true"
  | .false => "false"
  | .null => "null"
  | .undefined => "undefined"

/-- The token of a property's name. -/
def Key.token : Key → Token
  | .name n => .name n
  | .text quote s => .text quote s
  | .number x => .number x

namespace Phrase

/-! ### Phrases as rows of tokens -/

/-- Pieces with commas between them, a comma behind the last if there is one, and the closing
bracket. -/
def listed (close : Bracket) (pieces : List (List Token)) (trailing : Bool) : List Token :=
  [.comma].intercalate pieces ++ ((if trailing then [.comma] else []) ++ [.closing close])

mutual
/-- The tokens of a phrase. -/
def tokens : Phrase → List Token
  | .keyword k => [.name k.word]
  | .number x => [.number x]
  | .text quote s => [.text quote s]
  | .name n => [.name n]
  | .group p => .opening .round :: (p.tokens ++ [.closing .round])
  | .object props trailing => .opening .curly :: listed .curly (propTokens props) trailing
  | .array items trailing => .opening .square :: listed .square (itemTokens items) trailing
  | .member p n => p.tokens ++ [.dot, .name n]
  | .index p i => p.tokens ++ .opening .square :: (i.tokens ++ [.closing .square])
  | .unary op p => op.token :: p.tokens
  | .binary op l r => l.tokens ++ .op op :: r.tokens

/-- The tokens of each property of an object literal. -/
def propTokens : List (Key × Phrase) → List (List Token)
  | [] => []
  | (k, p) :: ps => (k.token :: .colon :: p.tokens) :: propTokens ps

/-- The tokens of each item of an array literal. -/
def itemTokens : List Phrase → List (List Token)
  | [] => []
  | p :: ps => p.tokens :: itemTokens ps
end

theorem itemTokens_eq_map (ps : List Phrase) : itemTokens ps = ps.map tokens := by
  induction ps with
  | nil => rfl
  | cons p ps ih => rw [itemTokens, ih, List.map_cons]

/-- The tokens of a property. -/
def propertyTokens (kp : Key × Phrase) : List Token := kp.1.token :: .colon :: kp.2.tokens

theorem propTokens_eq_map (ps : List (Key × Phrase)) : propTokens ps = ps.map propertyTokens := by
  induction ps with
  | nil => rfl
  | cons kp ps ih => rw [propTokens, ih, List.map_cons, propertyTokens]

/-! ### Phrases that need no further parentheses -/

/-- How tightly a phrase binds: a binary operator by its own tier, a sign tighter than all of them,
and everything else tighter still. -/
def tier : Phrase → Nat
  | .binary op _ _ => op.tier
  | .unary _ _ => 7
  | _ => 8

/-- A phrase is written as it stands: each operand binds tightly enough, no name is a keyword, and
only behind a member there is a last comma. -/
inductive Fits : Phrase → Prop where
  /-- A keyword. -/
  | keyword (k : Keyword) : Fits (.keyword k)
  /-- A number. -/
  | number (x : Double) : Fits (.number x)
  /-- A string. -/
  | text (quote : Char) (s : String) : Fits (.text quote s)
  /-- A variable is named by no keyword. -/
  | name {n : String} (free : Keyword.ofName? n = none) : Fits (.name n)
  /-- Between parentheses anything may stand. -/
  | group {p : Phrase} (inner : Fits p) : Fits (.group p)
  /-- Behind a property's name anything may stand. -/
  | object {props : List (Key × Phrase)} {trailing : Bool} (values : ∀ kp ∈ props, Fits kp.2)
      (last : trailing = true → props ≠ []) : Fits (.object props trailing)
  /-- As an item anything may stand. -/
  | array {items : List Phrase} {trailing : Bool} (values : ∀ p ∈ items, Fits p)
      (last : trailing = true → items ≠ []) : Fits (.array items trailing)
  /-- A property is read from a phrase without operators. -/
  | member {p : Phrase} {n : String} (base : Fits p) (tight : p.tier = 8) : Fits (.member p n)
  /-- A property is read from a phrase without operators, and as a subscript anything may stand. -/
  | index {p i : Phrase} (base : Fits p) (tight : p.tier = 8) (subscript : Fits i) :
      Fits (.index p i)
  /-- A sign stands before a phrase without binary operators. -/
  | unary {op : UnaryOp} {p : Phrase} (operand : Fits p) (tight : 7 ≤ p.tier) :
      Fits (.unary op p)
  /-- A binary operator takes operators of its own tier on its left only. -/
  | binary {op : BinaryOp} {l r : Phrase} (left : Fits l) (right : Fits r)
      (leftTight : op.tier ≤ l.tier) (rightTight : op.tier < r.tier) : Fits (.binary op l r)

theorem one_le_tier (op : BinaryOp) : 1 ≤ op.tier := by cases op <;> decide

theorem tier_le_six (op : BinaryOp) : op.tier ≤ 6 := by cases op <;> decide

theorem one_le_phrase_tier (p : Phrase) : 1 ≤ p.tier := by
  cases p with
  | binary op l r => exact one_le_tier op
  | _ => simp [tier]

/-- What is no binary operator binds tighter than all of them. -/
theorem seven_le_tier {p : Phrase} (h : ∀ op l r, p = .binary op l r → False) : 7 ≤ p.tier := by
  cases p with
  | binary op l r => exact (h op l r rfl).elim
  | _ => simp [tier]

/-! ### Rows -/

/-- The tokens of operators, each with the operand behind it. -/
def rowTokens (row : List (BinaryOp × Phrase)) : List Token :=
  row.flatMap fun x => .op x.1 :: x.2.tokens

@[simp] theorem rowTokens_nil : rowTokens [] = [] := rfl

@[simp] theorem rowTokens_cons (op : BinaryOp) (p : Phrase) (row : List (BinaryOp × Phrase)) :
    rowTokens ((op, p) :: row) = .op op :: (p.tokens ++ rowTokens row) := rfl

@[simp] theorem rowTokens_append (a b : List (BinaryOp × Phrase)) :
    rowTokens (a ++ b) = rowTokens a ++ rowTokens b := by
  rw [rowTokens, List.flatMap_append, rowTokens, rowTokens]

/-- The first operand of a phrase, and its binary operators with the operand behind each. -/
def spine : Phrase → Phrase × List (BinaryOp × Phrase)
  | .binary op l r => (l.spine.1, l.spine.2 ++ (op, r.spine.1) :: r.spine.2)
  | p => (p, [])

theorem spine_of_tight {p : Phrase} (h : 7 ≤ p.tier) : p.spine = (p, []) := by
  cases p with
  | binary op l r => exact absurd h (by have := tier_le_six op; simp only [tier]; omega)
  | _ => rfl

/-- The row of a phrase is written as the phrase is. -/
theorem tokens_spine (p : Phrase) : p.spine.1.tokens ++ rowTokens p.spine.2 = p.tokens := by
  fun_induction spine p with
  | case1 op l r ihl ihr => simp [tokens, ← ihl, ← ihr]
  | case2 => simp

/-- A phrase that may stand in a row as it is. -/
structure IsOperand (p : Phrase) : Prop where
  /-- It fits. -/
  fits : Fits p
  /-- It has no binary operator outside brackets. -/
  tight : 7 ≤ p.tier

/-- Operands in a row, with operators of a least tier between them. -/
structure IsRow (least : Nat) (first : Phrase) (row : List (BinaryOp × Phrase)) : Prop where
  /-- The first operand. -/
  first : IsOperand first
  /-- The other operands. -/
  others : ∀ x ∈ row, IsOperand x.2
  /-- The operators are of the least tier or tighter. -/
  least : ∀ x ∈ row, least ≤ x.1.tier

variable {least n t : Nat} {op : BinaryOp} {p first : Phrase} {row run : List (BinaryOp × Phrase)}
  {rest : List (BinaryOp × Phrase × List (BinaryOp × Phrase))}

theorem IsRow.mono {more : Nat} (h : IsRow more first row) (hle : least ≤ more) :
    IsRow least first row :=
  { h with least := fun x hx => Nat.le_trans hle (h.least x hx) }

theorem IsOperand.isRow (h : IsOperand p) : IsRow p.tier p.spine.1 p.spine.2 := by
  rw [spine_of_tight h.tight]
  exact ⟨h, by simp, by simp⟩

/-- A phrase that fits has a row, and no operator of the row is looser than the phrase. -/
theorem Fits.isRow (h : Fits p) : IsRow p.tier p.spine.1 p.spine.2 := by
  induction h with
  | @binary op l r left right leftTight rightTight ihl ihr =>
    have hl := ihl.mono leftTight
    have hr := ihr.mono (Nat.le_of_lt rightTight)
    refine ⟨hl.first, fun x hx => ?_, fun x hx => ?_⟩
    all_goals
      simp only [spine, List.mem_append, List.mem_cons] at hx
      rcases hx with hx | rfl | hx
    · exact hl.others x hx
    · exact hr.first
    · exact hr.others x hx
    · exact hl.least x hx
    · exact Nat.le_refl _
    · exact hr.least x hx
  | _ => exact IsOperand.isRow ⟨by constructor <;> assumption, by simp [tier]⟩

/-! ### Putting a row together -/

/-- The operators and operands of segments, in a row again. -/
def joined (rest : List (BinaryOp × Phrase × List (BinaryOp × Phrase))) :
    List (BinaryOp × Phrase) :=
  rest.flatMap fun s => (s.1, s.2.1) :: s.2.2

/-- Cutting a row at the operators of a tier loses nothing, and leaves no other operator of that
tier. -/
theorem row_of_segments (h : segments t row = (run, rest)) :
    row = run ++ joined rest ∧ (∀ x ∈ run, x.1.tier ≠ t) ∧
      ∀ s ∈ rest, s.1.tier = t ∧ ∀ x ∈ s.2.2, x.1.tier ≠ t := by
  induction row generalizing run rest with
  | nil =>
    obtain ⟨rfl, rfl⟩ := Prod.mk.inj h
    simp [joined]
  | cons x row ih =>
    obtain ⟨op, p⟩ := x
    obtain ⟨run', rest', hsegments⟩ : ∃ run' rest', segments t row = (run', rest') := ⟨_, _, rfl⟩
    obtain ⟨hrow, hrun, hrest⟩ := ih hsegments
    simp only [segments, hsegments] at h
    split at h
    · rename_i hop
      obtain ⟨rfl, rfl⟩ := Prod.mk.inj h
      refine ⟨by rw [hrow]; rfl, by simp, fun s hs => ?_⟩
      rcases List.mem_cons.mp hs with rfl | hs
      · exact ⟨hop, hrun⟩
      · exact hrest s hs
    · rename_i hop
      obtain ⟨rfl, rfl⟩ := Prod.mk.inj h
      refine ⟨by rw [hrow]; rfl, fun x hx => ?_, hrest⟩
      rcases List.mem_cons.mp hx with rfl | hx
      · exact hop
      · exact hrun x hx

/-- The row of a segment, and the row before the first one, have only tighter operators. -/
theorem IsRow.of_segments (h : IsRow t first row) (hsegments : segments t row = (run, rest)) :
    IsRow (t + 1) first run ∧ ∀ s ∈ rest, s.1.tier = t ∧ IsRow (t + 1) s.2.1 s.2.2 := by
  obtain ⟨rfl, hrun, hrest⟩ := row_of_segments hsegments
  have tighter : ∀ x ∈ run ++ joined rest, x.1.tier ≠ t → t + 1 ≤ x.1.tier := by
    intro x hx hne
    have := h.least x hx
    omega
  have inRun : ∀ x ∈ run, x ∈ run ++ joined rest := fun x hx => List.mem_append_left _ hx
  refine ⟨⟨h.first, fun x hx => h.others x (inRun x hx), fun x hx => tighter x (inRun x hx)
    (hrun x hx)⟩, fun s hs => ?_⟩
  obtain ⟨hop, hne⟩ := hrest s hs
  have inRest : ∀ x ∈ (s.1, s.2.1) :: s.2.2, x ∈ run ++ joined rest := fun x hx =>
    List.mem_append_right _ (List.mem_flatMap.mpr ⟨s, hs, hx⟩)
  have inTail : ∀ x ∈ s.2.2, x ∈ run ++ joined rest := fun x hx =>
    inRest x (List.mem_cons_of_mem _ hx)
  exact ⟨hop, h.others _ (inRest _ (List.mem_cons_self ..)), fun x hx => h.others x (inTail x hx),
    fun x hx => tighter x (inTail x hx) (hne x hx)⟩

/-- What putting a row together has to give: a phrase that fits, binds at least as tightly as the
loosest operator of the row, and is written as the row is. -/
structure Assembles (least : Nat) (first : Phrase) (row : List (BinaryOp × Phrase)) (p : Phrase) :
    Prop where
  /-- The phrase fits. -/
  fits : Fits p
  /-- It binds tightly enough. -/
  tight : least ≤ p.tier
  /-- It is written as the row is. -/
  tokens : p.tokens = first.tokens ++ rowTokens row

/-- Taking up segments one after the other, each with its operator of the tier, associates them to
the left. -/
theorem Assembles.foldl {build : Phrase → List (BinaryOp × Phrase) → Phrase}
    (hbuild : ∀ first row, IsRow (t + 1) first row → Assembles (t + 1) first row (build first row))
    (hrest : ∀ s ∈ rest, s.1.tier = t ∧ IsRow (t + 1) s.2.1 s.2.2)
    (hp : Assembles t first row p) :
    Assembles t first (row ++ joined rest)
      (rest.foldl (fun left s => .binary s.1 left (build s.2.1 s.2.2)) p) := by
  induction rest generalizing row p with
  | nil =>
    rw [joined, List.flatMap_nil, List.append_nil]
    exact hp
  | cons s rest ih =>
    obtain ⟨hop, hs⟩ := hrest s (List.mem_cons_self ..)
    have hright := hbuild _ _ hs
    have hstep : Assembles t first (row ++ (s.1, s.2.1) :: s.2.2)
        (.binary s.1 p (build s.2.1 s.2.2)) := by
      refine ⟨.binary hp.fits hright.fits (hop ▸ hp.tight) (hop ▸ hright.tight),
        Nat.le_of_eq hop.symm, ?_⟩
      simp [Phrase.tokens, hp.tokens, hright.tokens]
    have := ih (fun s hs => hrest s (List.mem_cons_of_mem _ hs)) hstep
    rwa [List.append_assoc] at this

/-- **A row is put together**, with `n` tiers left, to a phrase that is written as the row is. -/
theorem IsRow.assembles (h : IsRow (7 - n) first row) (hn : n ≤ 6) :
    Assembles (7 - n) first row (assemble n first row) := by
  induction n generalizing first row with
  | zero =>
    -- No operator is that tight, so there is only the first operand.
    have hrow : row = [] := by
      cases row with
      | nil => rfl
      | cons x row =>
        have := h.least x (List.mem_cons_self ..)
        have := tier_le_six x.1
        omega
    subst hrow
    exact ⟨h.first.fits, h.first.tight, by simp [assemble]⟩
  | succ n ih =>
    have htier : 7 - (n + 1) = 6 - n := by omega
    have hnext : 7 - n = 6 - n + 1 := by omega
    rw [htier] at h ⊢
    rw [hnext] at ih
    obtain ⟨run, rest, hsegments⟩ : ∃ run rest, segments (6 - n) row = (run, rest) := ⟨_, _, rfl⟩
    obtain ⟨hfirst, hrest⟩ := h.of_segments hsegments
    obtain ⟨rfl, -, -⟩ := row_of_segments hsegments
    rw [assemble, hsegments]
    have hstart := ih hfirst (by omega)
    exact Assembles.foldl (fun first row hrow => ih hrow (by omega)) hrest
      { hstart with tight := Nat.le_of_succ_le hstart.tight }

/-! ### Taking a phrase apart and putting it together -/

theorem segments_of_tighter (h : ∀ x ∈ row, x.1.tier ≠ t) : segments t row = (row, []) := by
  induction row with
  | nil => rfl
  | cons x row ih =>
    simp only [segments, ih fun y hy => h y (List.mem_cons_of_mem _ hy),
      if_neg (h x (List.mem_cons_self ..))]

/-- At the last operator of a tier, the last segment starts. -/
theorem segments_append_cons (hop : op.tier = t) (hrun : ∀ x ∈ run, x.1.tier ≠ t) :
    segments t (row ++ (op, p) :: run) =
      ((segments t row).1, (segments t row).2 ++ [(op, p, run)]) := by
  induction row with
  | nil => simp [segments, segments_of_tighter hrun, hop]
  | cons x row ih =>
    simp only [List.cons_append, segments, ih]
    split <;> rfl

theorem assemble_of_tighter (h : ∀ x ∈ row, x.1.tier ≠ 6 - n) :
    assemble (n + 1) first row = assemble n first row := by
  simp only [assemble, segments_of_tighter h, List.foldl_nil]

/-- At the last operator of the loosest tier, a row falls into the two operands of that operator. -/
theorem assemble_append_cons (hop : op.tier = 6 - n) (hrun : ∀ x ∈ run, x.1.tier ≠ 6 - n) :
    assemble (n + 1) first (row ++ (op, p) :: run) =
      .binary op (assemble (n + 1) first row) (assemble n p run) := by
  simp only [assemble, segments_append_cons hop hrun, List.foldl_append, List.foldl_cons,
    List.foldl_nil]

/-- **A phrase that fits is put together from its own row**: with `n` tiers left, if it binds
tightly enough. -/
theorem assemble_spine (h : Fits p) (hn : n ≤ 6) (htight : 7 - n ≤ p.tier) :
    assemble n p.spine.1 p.spine.2 = p := by
  induction n generalizing p with
  | zero => rw [spine_of_tight htight, assemble]
  | succ n ih =>
    have htier : 7 - (n + 1) = 6 - n := by omega
    have hnext : 7 - n = 6 - n + 1 := by omega
    rw [htier] at htight
    rw [hnext] at ih
    have tighter : ∀ {q : Phrase}, Fits q → 6 - n + 1 ≤ q.tier →
        ∀ x ∈ q.spine.2, x.1.tier ≠ 6 - n := by
      intro q hq hle x hx
      have := hq.isRow.least x hx
      omega
    have direct : ∀ {q : Phrase}, Fits q → 6 - n + 1 ≤ q.tier →
        assemble (n + 1) q.spine.1 q.spine.2 = q := by
      intro q hq hle
      rw [assemble_of_tighter (tighter hq hle)]
      exact ih hq (by omega) hle
    -- Left of an operator of this tier there may be others of it, so the phrase is taken apart.
    have loose : ∀ q : Phrase, Fits q → 6 - n ≤ q.tier →
        assemble (n + 1) q.spine.1 q.spine.2 = q := by
      intro q
      fun_induction spine q with
      | case1 op l r ihl ihr =>
        intro hq hle
        by_cases hop : op.tier = 6 - n
        · cases hq with
          | binary left right leftTight rightTight =>
            have hright : 6 - n + 1 ≤ r.tier := by omega
            rw [assemble_append_cons hop (tighter right hright),
              ihl left (by omega), ih right (by omega) hright]
        · exact direct hq (by simp only [tier] at hle ⊢; omega)
      | case2 q other =>
        intro hq hle
        have hoperand : 7 ≤ q.tier := seven_le_tier other
        have := direct hq (by omega)
        rwa [spine_of_tight hoperand] at this
    exact loose p h htight

end Phrase

end Expr

end Resumable
