import Resumable.Proofs.Expr.Rendering

/-!
# Expressions that are read are small

The limits on an expression are checked elsewhere than on its tree: nesting on the characters of the
text, nodes on the phrase. They bound the tree all the same. Every node of the tree is the node of a
phrase that has at least one node of its own, and every step into an item, a property's value or a
subscript enters a bracket of the text.

## The model

* `Expr.nodes`: how many nodes the tree of an expression has.
* `Leads`: a path leads from an expression down to a part of it, with a number of steps that go into
  an item, a property's value or a subscript.

## What is proved

* `nodes_toExpr_le`: the tree that a phrase writes has no more nodes than the phrase.
* `Fits.steps_le_nesting`: a path in that tree has no more such steps than the phrase nests
  brackets.
* `parsed_is_small`: a tree that is read has at most 4096 nodes, and no path in it has more than 64
  such steps.
-/

namespace Resumable.Expr

/-! ### The model -/

mutual
/-- How many nodes the tree of an expression has. -/
def nodes : Expr → Nat
  | .undefined => 1
  | .null => 1
  | .bool _ => 1
  | .num _ => 1
  | .str _ => 1
  | .name _ => 1
  | .member e _ => e.nodes + 1
  | .index e i => e.nodes + i.nodes + 1
  | .object props => propsNodes props + 1
  | .array items => itemsNodes items + 1
  | .unary _ e => e.nodes + 1
  | .binary _ l r => l.nodes + r.nodes + 1

/-- The nodes of the values of an object literal's properties. -/
def propsNodes : List (String × Expr) → Nat
  | [] => 0
  | (_, e) :: ps => e.nodes + propsNodes ps

/-- The nodes of an array literal's items. -/
def itemsNodes : List Expr → Nat
  | [] => 0
  | e :: es => e.nodes + itemsNodes es
end

/-- A path leads from an expression down to a part of it. The number counts its steps into an item
of an array, the value of a property or a subscript; other steps do not count. -/
inductive Leads : Expr → Nat → Expr → Prop where
  /-- The path that takes no step. -/
  | here (e : Expr) : Leads e 0 e
  /-- Into the object of a property read. -/
  | member {e part : Expr} {n : Nat} (property : String) (path : Leads e n part) :
      Leads (.member e property) n part
  /-- Into the object of a read by subscript. -/
  | object {e part : Expr} {n : Nat} (i : Expr) (path : Leads e n part) :
      Leads (.index e i) n part
  /-- Into the subscript. -/
  | subscript {i part : Expr} {n : Nat} (e : Expr) (path : Leads i n part) :
      Leads (.index e i) (n + 1) part
  /-- Into the value of a property. -/
  | value {props : List (String × Expr)} {prop : String × Expr} {part : Expr} {n : Nat}
      (mem : prop ∈ props) (path : Leads prop.2 n part) : Leads (.object props) (n + 1) part
  /-- Into an item. -/
  | item {items : List Expr} {e part : Expr} {n : Nat} (mem : e ∈ items)
      (path : Leads e n part) : Leads (.array items) (n + 1) part
  /-- Into the operand of a sign. -/
  | operand {e part : Expr} {n : Nat} (op : UnaryOp) (path : Leads e n part) :
      Leads (.unary op e) n part
  /-- Into the left operand. -/
  | left {l part : Expr} {n : Nat} (op : BinaryOp) (r : Expr) (path : Leads l n part) :
      Leads (.binary op l r) n part
  /-- Into the right operand. -/
  | right {r part : Expr} {n : Nat} (op : BinaryOp) (l : Expr) (path : Leads r n part) :
      Leads (.binary op l r) n part

namespace Phrase

variable {p : Phrase} {part : Expr} {n : Nat}

/-! ### Nodes -/

theorem nodes_keyword (k : Keyword) : k.toExpr.nodes = 1 := by cases k <;> rfl

mutual
/-- Every node of the tree is a node of the phrase. -/
theorem nodes_toExpr_le : ∀ p : Phrase, p.toExpr.nodes ≤ p.size
  | .keyword k => by rw [toExpr, size, nodes_keyword]
  | .number _ | .text _ _ | .name _ => by simp only [toExpr, size, nodes]; omega
  | .group p => by
    have := nodes_toExpr_le p
    simp only [toExpr, size]; omega
  | .object props _ => by
    have := nodes_toProps_le props
    simp only [toExpr, size, nodes]; omega
  | .array items _ => by
    have := nodes_toItems_le items
    simp only [toExpr, size, nodes]; omega
  | .member p _ => by
    have := nodes_toExpr_le p
    simp only [toExpr, size, nodes]; omega
  | .index p i => by
    have := nodes_toExpr_le p
    have := nodes_toExpr_le i
    simp only [toExpr, size, nodes]; omega
  | .unary _ p => by
    have := nodes_toExpr_le p
    simp only [toExpr, size, nodes]; omega
  | .binary _ l r => by
    have := nodes_toExpr_le l
    have := nodes_toExpr_le r
    simp only [toExpr, size, nodes]; omega

theorem nodes_toProps_le : ∀ ps : List (Key × Phrase), propsNodes (toProps ps) ≤ propsSize ps
  | [] => Nat.le_refl 0
  | (k, p) :: ps => by
    have := nodes_toExpr_le p
    have := nodes_toProps_le ps
    simp only [toProps, propsSize, propsNodes]; omega

theorem nodes_toItems_le : ∀ ps : List Phrase, itemsNodes (toItems ps) ≤ itemsSize ps
  | [] => Nat.le_refl 0
  | p :: ps => by
    have := nodes_toExpr_le p
    have := nodes_toItems_le ps
    simp only [toItems, itemsSize, itemsNodes]; omega
end

/-! ### Paths -/

theorem toItems_eq_map (ps : List Phrase) : toItems ps = ps.map toExpr := by
  induction ps with
  | nil => rfl
  | cons p ps ih => rw [toItems, ih, List.map_cons]

theorem toProps_eq_map (ps : List (Key × Phrase)) :
    toProps ps = ps.map fun kp => (kp.1.toName, kp.2.toExpr) := by
  induction ps with
  | nil => rfl
  | cons p ps ih => rw [toProps, ih, List.map_cons]

/-- Every step into an item, a property's value or a subscript enters a bracket. -/
theorem Fits.steps_le_nesting (h : Fits p) (hpath : Leads p.toExpr n part) : n ≤ p.nesting := by
  induction h generalizing n with
  | @keyword k =>
    have hleaf : ∀ m, Leads k.toExpr m part → m = 0 := by
      cases k <;> · rintro m ⟨⟩; rfl
    rw [hleaf n hpath]
    exact Nat.zero_le _
  | number | text | name =>
    cases hpath
    exact Nat.zero_le _
  | group inner ih => exact Nat.le_succ_of_le (ih hpath)
  | @object props trailing values last ih =>
    rw [toExpr, toProps_eq_map] at hpath
    cases hpath with
    | here => exact Nat.zero_le _
    | value mem path =>
      obtain ⟨kp, hkp, rfl⟩ := List.mem_map.mp mem
      exact Nat.succ_le_succ ((ih kp hkp path).trans (nesting_le_props hkp))
  | @array items trailing values last ih =>
    rw [toExpr, toItems_eq_map] at hpath
    cases hpath with
    | here => exact Nat.zero_le _
    | item mem path =>
      obtain ⟨q, hq, rfl⟩ := List.mem_map.mp mem
      exact Nat.succ_le_succ ((ih q hq path).trans (nesting_le_items hq))
  | member base tight ih =>
    cases hpath with
    | here => exact Nat.zero_le _
    | member _ path => exact ih path
  | index base tight subscript ihp ihi =>
    cases hpath with
    | here => exact Nat.zero_le _
    | object _ path => exact (ihp path).trans (Nat.le_max_left ..)
    | subscript _ path => exact (Nat.succ_le_succ (ihi path)).trans (Nat.le_max_right ..)
  | unary operand tight ih =>
    cases hpath with
    | here => exact Nat.zero_le _
    | operand _ path => exact ih path
  | binary left right leftTight rightTight ihl ihr =>
    cases hpath with
    | here => exact Nat.zero_le _
    | left _ _ path => exact (ihl path).trans (Nat.le_max_left ..)
    | right _ _ path => exact (ihr path).trans (Nat.le_max_right ..)

end Phrase

/-! ### What is read -/

/-- **An expression that is read is small**: its tree has at most 4096 nodes, and no path in it goes
more than 64 times into an item, a property's value or a subscript. -/
theorem parsed_is_small {cs : List Char} {e : Expr} (h : parse cs = .ok e) :
    e.nodes ≤ 4096 ∧ ∀ n part, Leads e n part → n ≤ 64 := by
  obtain ⟨p, hread, rfl⟩ := exists_phrase_of_parse h
  obtain ⟨hfits, -, hbounded⟩ := readPhrase_eq_ok_iff.mp hread
  constructor
  · exact (Phrase.nodes_toExpr_le p).trans hbounded.nodes
  · intro n part hpath
    exact (hfits.steps_le_nesting hpath).trans hbounded.nesting

/-- Arrays that nest as deep as they may are read. -/
theorem parsed_is_small_deepest :
    ∃ e, parse (List.replicate 64 '[' ++ 'a' :: List.replicate 64 ']') = .ok e ∧ e.nodes = 65 ∧
      e.nodes ≤ 4096 ∧ ∀ n part, Leads e n part → n ≤ 64 := by
  have hnodes : (parse (List.replicate 64 '[' ++ 'a' :: List.replicate 64 ']')).toOption.map nodes =
      some 65 := by decide +kernel
  cases hparse : parse (List.replicate 64 '[' ++ 'a' :: List.replicate 64 ']') with
  | error err =>
    rw [hparse] at hnodes
    cases hnodes
  | ok e =>
    rw [hparse] at hnodes
    exact ⟨e, rfl, Option.some.inj hnodes, parsed_is_small hparse⟩

end Resumable.Expr
