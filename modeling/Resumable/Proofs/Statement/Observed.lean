import Resumable.Proofs.Expr.Names
import Resumable.Statement.Call

/-!
# What a statement sees of its variables

A statement is evaluated, asked for an address or executed. In each of these it reads one text, and
of the variables it sees those that the text mentions. The order in which variables arrived and the
values of all others show nowhere.

## The model

* `firstArgument?` and `Shape.expr?`: the texts that are read for an address and for an effect.
* `Observes`: a name is mentioned in one of the texts that are read.
* `Effect.Agree` and `SameIn`: what two environments make of a statement is the same, but for
  variables that are not compared.

## What is proved

* `address_congr`, `exec_agree`: addresses and effects depend on the names mentioned only.
* `unmentioned_unobserved`: so do the value of a text, in either reading, and everything else.
-/

namespace Resumable

open Environment (AgreeOn)

variable {a b : Environment} {on : String → Prop}

/-- Where no name repeats, the order of the variables does not count. -/
theorem Environment.agreeOn_of_perm (hdistinct : a.names.Nodup)
    (hperm : a.bindings.Perm b.bindings) (on : String → Prop) : AgreeOn on a b := by
  intro n _
  have hdistinct' : b.names.Nodup := (hperm.map Prod.fst).nodup_iff.mp hdistinct
  refine Option.ext fun v => ?_
  rw [get?, get?, Fields.get?_eq_some_iff hdistinct, Fields.get?_eq_some_iff hdistinct']
  exact hperm.mem_iff

namespace Statement

variable {function text : String}

/-! ### Texts that are read -/

/-- The text of the first argument in the call of a statement. -/
def firstArgument? (function text : String) : Option (List Char) :=
  (arguments? function.toList text.toList).map (Source.firstPiece ',')

/-- The text that a statement of a shape evaluates. -/
def Shape.expr? : Shape → Option String
  | .declare _ expr => some expr
  | .assign _ expr => some expr
  | .assignField _ _ expr => some expr
  | .raise _ => none
  | .expression text => some text

/-- A statement mentions a name in one of the texts that are read of it. -/
inductive Observes (function text : String) : String → Prop where
  /-- In the whole, which is evaluated. -/
  | value {n : String} (mentions : Expr.Mentions text.toList n) : Observes function text n
  /-- In the first argument of its call, which gives an address. -/
  | address {argument : List Char} {n : String} (called : firstArgument? function text = some argument)
      (mentions : Expr.Mentions argument n) : Observes function text n
  /-- In the expression that it executes. -/
  | effect {expr n : String} (executes : (classify text).expr? = some expr)
      (mentions : Expr.Mentions expr.toList n) : Observes function text n

/-! ### Addresses and effects -/

theorem address_congr (h : ∀ argument, firstArgument? function text = some argument →
    AgreeOn (Expr.Mentions argument) a b) : address function a text = address function b text := by
  cases harguments : arguments? function.toList text.toList with
  | none => simp only [address, harguments]
  | some arguments =>
    have hvalue : Expr.evaluate a (Source.firstPiece ',' arguments) =
        Expr.evaluate b (Source.firstPiece ',' arguments) :=
      Expr.evaluate_congr (h _ (by rw [firstArgument?, harguments, Option.map_some]))
    rw [Expr.evaluate, Expr.evaluate] at hvalue
    simp only [address, harguments, addressOf, hvalue]

/-- Two effects of a statement are the same: they write environments that agree on some names, or
are one value or one error. -/
inductive Effect.Agree (on : String → Prop) : Effect → Effect → Prop where
  /-- Both write the environment. -/
  | wrote {a b : Environment} (agree : AgreeOn on a b) : Agree on (.wrote a) (.wrote b)
  /-- Both are the same value. -/
  | value (v : Value) : Agree on (.value v) (.value v)
  /-- Both are the same error. -/
  | raised (message : String) : Agree on (.raised message) (.raised message)

/-- A statement keeps environments in agreement on names among which are those it mentions. -/
theorem exec_agree {shape : Shape} (hab : AgreeOn on a b)
    (h : ∀ expr, shape.expr? = some expr → AgreeOn (Expr.Mentions expr.toList) a b) :
    Effect.Agree on (exec a shape) (exec b shape) := by
  cases shape with
  | declare name expr | assign name expr =>
    rw [exec, exec, Expr.evaluate_congr (h expr rfl)]
    exact .wrote (hab.set name _)
  | assignField object field expr =>
    rw [exec, exec, Expr.evaluate_congr (h expr rfl)]
    exact .wrote (hab.modify object _)
  | raise message => exact .raised message
  | expression text =>
    rw [exec, exec, Expr.evaluate_congr (h text rfl)]
    exact .value _

/-- Two environments make the same of a statement, whatever is done with it. -/
structure SameIn (function text : String) (on : String → Prop) (a b : Environment) : Prop where
  /-- It has the same value. -/
  value : Expr.evaluate a text.toList = Expr.evaluate b text.toList
  /-- To the grammar it has the same value, or none for the same reason. -/
  reading : Expr.evalText a text.toList = Expr.evalText b text.toList
  /-- It asks for the same address. -/
  address : address function a text = address function b text
  /-- It has the same effect. -/
  effect : Effect.Agree on (exec a (classify text)) (exec b (classify text))

theorem sameIn_of_agreeOn (hon : ∀ n, Observes function text n → on n) (hab : AgreeOn on a b) :
    SameIn function text on a b where
  value := Expr.evaluate_congr (hab.mono fun n hn => hon n (.value hn))
  reading := Expr.evalText_congr (hab.mono fun n hn => hon n (.value hn))
  address := address_congr fun _ hcalled => hab.mono fun n hn => hon n (.address hcalled hn)
  effect := exec_agree hab fun _ hexpr => hab.mono fun n hn => hon n (.effect hexpr hn)

/-- **What a text does not mention is not observed**: two environments that give the same values to
the names that a text mentions give the same value to the text, and the grammar finds the same value
or the same error. So it is for the value, the address and the effect of a statement; in particular
neither the order of the variables nor the value of one that is not mentioned shows in any of them. -/
theorem unmentioned_unobserved (a b : Environment) :
    (∀ cs, AgreeOn (Expr.Mentions cs) a b →
        Expr.evaluate a cs = Expr.evaluate b cs ∧ Expr.evalText a cs = Expr.evalText b cs) ∧
      (∀ function text on, (∀ n, Observes function text n → on n) → AgreeOn on a b →
        SameIn function text on a b) ∧
      (a.names.Nodup → a.bindings.Perm b.bindings → ∀ function text,
        SameIn function text (fun _ => True) a b) ∧
      ∀ function text name value, ¬ Observes function text name →
        SameIn function text (· ≠ name) a (a.set name value) := by
  refine ⟨fun cs h => ⟨Expr.evaluate_congr h, Expr.evalText_congr h⟩,
    fun function text on hon hab => sameIn_of_agreeOn hon hab,
    fun hdistinct hperm function text => ?_, fun function text name value hname => ?_⟩
  · exact sameIn_of_agreeOn (fun _ _ => trivial) (Environment.agreeOn_of_perm hdistinct hperm _)
  · refine sameIn_of_agreeOn (fun n hn => ?_) (a.agreeOn_set name value)
    rintro rfl
    exact hname hn

/-- Of the variables, a call with one in brackets for its argument sees this one: neither the value
nor the place of another shows in it. -/
theorem unmentioned_unobserved_single :
    let a : Environment := ⟨[("x", .bool true), ("y", .null)]⟩
    let b : Environment := ⟨[("y", .undefined), ("x", .bool true)]⟩
    let c : Environment := ⟨[("y", .null), ("x", .bool true)]⟩
    (AgreeOn (Expr.Mentions "[x]".toList) a b ∧
        Expr.evaluate a "[x]".toList = Expr.evaluate b "[x]".toList ∧
        Expr.evalText a "[x]".toList = Expr.evalText b "[x]".toList) ∧
      (AgreeOn (Observes "fetch" "fetch([x])") a b ∧
        SameIn "fetch" "fetch([x])" (Observes "fetch" "fetch([x])") a b) ∧
      (a.names.Nodup ∧ a.bindings.Perm c.bindings ∧
        SameIn "fetch" "fetch([x])" (fun _ => True) a c) ∧
      ¬ Observes "fetch" "fetch([x])" "y" ∧
        SameIn "fetch" "fetch([x])" (· ≠ "y") a (a.set "y" (.bool false)) := by
  intro a b c
  have hargument : ∀ n, Expr.Mentions "[x]".toList n → n = "[x]" ∨ n = "x" := by
    intro n hn
    have hparse : Expr.parse (Text.trim "[x]".toList) = .ok (.array [.name "x"]) := by cbv
    obtain rfl | ⟨e, he, hmem⟩ := hn.of_not_mem (by decide +kernel)
    · exact .inl (by decide +kernel)
    · obtain rfl := Except.ok.inj (he.symm.trans hparse)
      exact .inr (by simpa [Expr.names, Expr.itemNames] using hmem)
  have hwhole : ∀ n, Expr.Mentions "fetch([x])".toList n → n = "fetch([x])" := by
    intro n hn
    have hparse : (Expr.parse (Text.trim "fetch([x])".toList)).isOk = false := by cbv
    obtain rfl | ⟨e, he, -⟩ := hn.of_not_mem (by decide +kernel)
    · decide +kernel
    · rw [he] at hparse
      cases hparse
  have hobserves : ∀ n, Observes "fetch" "fetch([x])" n →
      n = "fetch([x])" ∨ n = "[x]" ∨ n = "x" := by
    have hcalled : firstArgument? "fetch" "fetch([x])" = some "[x]".toList := by decide +kernel
    have hexecutes : (classify "fetch([x])").expr? = some "fetch([x])" := by decide +kernel
    rintro n (hn | ⟨hargument', hn⟩ | ⟨hexpr, hn⟩)
    · exact .inl (hwhole n hn)
    · obtain rfl := Option.some.inj (hcalled.symm.trans hargument')
      exact .inr (hargument n hn)
    · obtain rfl := Option.some.inj (hexecutes.symm.trans hexpr)
      exact .inl (hwhole n hn)
  have hmentioned : AgreeOn (Expr.Mentions "[x]".toList) a b := by
    intro n hn
    rcases hargument n hn with rfl | rfl <;> rfl
  have hobserved : AgreeOn (Observes "fetch" "fetch([x])") a b := by
    intro n hn
    rcases hobserves n hn with rfl | rfl | rfl <;> rfl
  have hy : ¬ Observes "fetch" "fetch([x])" "y" := fun h => absurd (hobserves "y" h) (by decide)
  have hdistinct : a.names.Nodup := by decide
  have hperm : a.bindings.Perm c.bindings := List.Perm.swap ..
  obtain ⟨htext, hstatement, -, hother⟩ := unmentioned_unobserved a b
  obtain ⟨-, -, horder, -⟩ := unmentioned_unobserved a c
  exact ⟨⟨hmentioned, htext "[x]".toList hmentioned⟩,
    ⟨hobserved, hstatement "fetch" "fetch([x])" _ (fun _ hn => hn) hobserved⟩,
    ⟨hdistinct, hperm, horder hdistinct hperm "fetch" "fetch([x])"⟩,
    hy, hother "fetch" "fetch([x])" "y" (.bool false) hy⟩

end Statement

end Resumable
