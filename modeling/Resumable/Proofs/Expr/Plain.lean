import Resumable.Expr.Eval

/-!
# Evaluation by plain recursion

The evaluator unwinds the operators down the left side of an expression into a row and applies them
in a loop, so that a long row costs one level of its depth limit. Plain recursion knows neither the
loop nor the limit: it evaluates the left operand, then the right one.

## The model

* `plain`: the value of an expression by recursion over its tree.
* `height`: how many levels an expression has, a whole left side of operators counting as one.
* `chain`: operators applied one after the other, each to all that stands before it.

## What is proved

* `evalNode_plain`: if operands have their plain values, the loop gives the plain value of the
  whole.
* `evalWithin_agrees`: within a number of levels the value is the plain one, unless the expression
  is at least that high and its evaluation goes too deep.
* `eval_agrees_with_plain`: up to the height that the limit allows, an expression has its plain
  value, and a higher one has it too or goes too deep.
-/

namespace Resumable.Expr

variable {env : Environment} {α β : Type}

/-! ### The model -/

mutual
/-- The value of an expression by plain recursion, from left to right. The first failure ends it. A
logical operator gives one of its operands, and evaluates the right one only if it gives that. -/
def plain (env : Environment) : Expr → Except EvalError Value
  | .undefined => .ok .undefined
  | .null => .ok .null
  | .bool b => .ok (.bool b)
  | .num x => .ok (.num x)
  | .str s => .ok (.str s)
  | .name n => match env.get? n with
    | some v => .ok v
    | none => .error (.unbound n)
  | .member e property => do
    let v ← plain env e
    ofProperty (readProperty v property)
  | .index e i => do
    let v ← plain env e
    let subscript ← plain env i
    ofProperty (readIndex v subscript)
  | .object props => do
    let fields ← plainProps env props
    return .obj (Fields.ofEntries fields)
  | .array items => do
    let vs ← plainItems env items
    return .list vs
  | .unary op e => do
    let v ← plain env e
    return applyUnary op v
  | .binary .and l r => do
    let a ← plain env l
    if a.isTruthy then plain env r else return a
  | .binary .or l r => do
    let a ← plain env l
    if a.isTruthy then return a else plain env r
  | .binary op l r => do
    let a ← plain env l
    let b ← plain env r
    return applyBinary op a b

/-- The plain values of an object literal's properties. -/
def plainProps (env : Environment) :
    List (String × Expr) → Except EvalError (List (String × Value))
  | [] => return []
  | (key, e) :: ps => do
    let v ← plain env e
    let fields ← plainProps env ps
    return (key, v) :: fields

/-- The plain values of an array literal's items. -/
def plainItems (env : Environment) : List Expr → Except EvalError (List Value)
  | [] => return []
  | e :: es => do
    let v ← plain env e
    let vs ← plainItems env es
    return v :: vs
end

/-- Whether an expression is an operator with two operands. -/
def isBinary : Expr → Bool
  | .binary _ _ _ => true
  | _ => false

mutual
/-- How many levels an expression has above its lowest ones. An operator with two operands stands one
level above them, but on the same level as a left operand that is such an operator itself. -/
def height : Expr → Nat
  | .undefined => 0
  | .null => 0
  | .bool _ => 0
  | .num _ => 0
  | .str _ => 0
  | .name _ => 0
  | .member e _ => e.height + 1
  | .index e i => max (e.height + 1) (i.height + 1)
  | .object props => propsHeight props
  | .array items => itemsHeight items
  | .unary _ e => e.height + 1
  | .binary _ l r => max (if l.isBinary then l.height else l.height + 1) (r.height + 1)

/-- The level above an object literal's properties. -/
def propsHeight : List (String × Expr) → Nat
  | [] => 0
  | (_, e) :: ps => max (e.height + 1) (propsHeight ps)

/-- The level above an array literal's items. -/
def itemsHeight : List Expr → Nat
  | [] => 0
  | e :: es => max (e.height + 1) (itemsHeight es)
end

/-- Operators applied one after the other, each to all that stands before it. -/
def chain (first : Expr) (row : List (BinaryOp × Expr)) : Expr :=
  row.foldl (fun l x => .binary x.1 l x.2) first

/-! ### The loop gives plain values -/

theorem plainItems_eq_mapM (es : List Expr) : plainItems env es = es.mapM (plain env) := by
  induction es with
  | nil => rfl
  | cons e es ih => rw [plainItems, List.mapM_cons, ih]

theorem plainProps_eq_mapM (ps : List (String × Expr)) :
    plainProps env ps = ps.mapM fun (key, e) => do
      let v ← plain env e
      return (key, v) := by
  induction ps with
  | nil => rfl
  | cons p ps ih =>
    obtain ⟨key, e⟩ := p
    rw [plainProps, List.mapM_cons, ih, bind_assoc]
    simp only [pure_bind]

/-- One operator more in front of a row: the plain value of its application starts the rest. -/
theorem applyRow_plain (op : BinaryOp) (l r : Expr) (row : List (BinaryOp × Expr)) :
    (do
      let a ← plain env l
      applyRow (plain env) a ((op, r) :: row)) =
    (do
      let a ← plain env (.binary op l r)
      applyRow (plain env) a row) := by
  cases op with
  | and | or =>
    simp only [plain, applyRow, decides, bind_assoc]
    refine bind_congr fun a => ?_
    by_cases ha : a.isTruthy = true <;> simp [applyBinary, ha]
  | _ => simp only [plain, applyRow, decides, Bool.false_eq_true, if_false, bind_assoc, pure_bind]

/-- Unwinding moves operators from an expression to a row and changes nothing else. -/
theorem applyRow_unwind (e : Expr) (row : List (BinaryOp × Expr)) :
    (do
      let a ← plain env (unwind e row).1
      applyRow (plain env) a (unwind e row).2) =
    (do
      let a ← plain env e
      applyRow (plain env) a row) := by
  fun_induction unwind e row with
  | case1 row op l r ih => rw [ih, applyRow_plain]
  | case2 => rfl

theorem evalNode_plain (e : Expr) : evalNode env (plain env) e = plain env e := by
  cases e with
  | binary op l r =>
    calc evalNode env (plain env) (.binary op l r)
      _ = (do
            let a ← plain env (unwind l [(op, r)]).1
            applyRow (plain env) a (unwind l [(op, r)]).2) := rfl
      _ = (do
            let a ← plain env (.binary op l r)
            applyRow (plain env) a []) := by rw [applyRow_unwind, applyRow_plain]
      _ = plain env (.binary op l r) := bind_pure _
  | object props => rw [plain, plainProps_eq_mapM, evalNode]
  | array items => rw [plain, plainItems_eq_mapM, evalNode]
  | name n => rw [plain]; rfl
  | _ => simp only [evalNode, plain]

/-! ### What an operand can do to the whole -/

/-- The operands of an expression: the expressions that are evaluated one level below it. -/
def operands : Expr → List Expr
  | .member e _ => [e]
  | .index e i => [e, i]
  | .object props => props.map Prod.snd
  | .array items => items
  | .unary _ e => [e]
  | .binary op l r => (unwind l [(op, r)]).1 :: (unwind l [(op, r)]).2.map Prod.snd
  | _ => []

/-- A result is a given one, unless it went too deep where that may happen. -/
def AgreesUnless (deep : Prop) (x y : Except EvalError α) : Prop :=
  x = y ∨ deep ∧ x = .error .tooDeep

variable {deep : Prop} {f g : Expr → Except EvalError Value}

theorem AgreesUnless.refl (x : Except EvalError α) : AgreesUnless deep x x := Or.inl rfl

theorem AgreesUnless.bind {x y : Except EvalError α} {k l : α → Except EvalError β}
    (hxy : AgreesUnless deep x y) (hkl : ∀ a, AgreesUnless deep (k a) (l a)) :
    AgreesUnless deep (x >>= k) (y >>= l) := by
  rcases hxy with rfl | ⟨hdeep, rfl⟩
  · cases x with
    | error err => exact .refl _
    | ok a => exact hkl a
  · exact Or.inr ⟨hdeep, rfl⟩

theorem AgreesUnless.mapM {as : List α} {k l : α → Except EvalError β}
    (h : ∀ a ∈ as, AgreesUnless deep (k a) (l a)) :
    AgreesUnless deep (as.mapM k) (as.mapM l) := by
  induction as with
  | nil => exact .refl _
  | cons a as ih =>
    have has := ih fun b hb => h b (List.mem_cons_of_mem _ hb)
    rw [List.mapM_cons, List.mapM_cons]
    exact (h a (List.mem_cons_self ..)).bind fun b => has.bind fun bs => .refl _

theorem AgreesUnless.applyRow {row : List (BinaryOp × Expr)}
    (h : ∀ e ∈ row.map Prod.snd, AgreesUnless deep (f e) (g e)) (a : Value) :
    AgreesUnless deep (applyRow f a row) (applyRow g a row) := by
  induction row generalizing a with
  | nil => exact .refl _
  | cons x row ih =>
    obtain ⟨op, e⟩ := x
    have hrow := ih fun e he => h e (List.mem_cons_of_mem _ he)
    rw [Expr.applyRow, Expr.applyRow]
    split
    · exact hrow a
    · exact (h e (List.mem_cons_self ..)).bind fun b => hrow _

/-- An expression goes too deep only through one of its operands. -/
theorem AgreesUnless.evalNode {e : Expr}
    (h : ∀ x ∈ e.operands, AgreesUnless deep (f x) (g x)) :
    AgreesUnless deep (evalNode env f e) (evalNode env g e) := by
  cases e with
  | member e property => exact (h e (by simp [operands])).bind fun v => .refl _
  | index e i =>
    exact (h e (by simp [operands])).bind fun v =>
      (h i (by simp [operands])).bind fun subscript => .refl _
  | object props =>
    refine AgreesUnless.bind (AgreesUnless.mapM fun p hp => ?_) fun fields => .refl _
    exact (h p.2 (List.mem_map_of_mem hp)).bind fun v => .refl _
  | array items => exact (AgreesUnless.mapM h).bind fun vs => .refl _
  | unary op e => exact (h e (by simp [operands])).bind fun v => .refl _
  | binary op l r =>
    exact (h _ (List.mem_cons_self ..)).bind fun a =>
      .applyRow (fun e he => h e (List.mem_cons_of_mem _ he)) a
  | _ => exact .refl _

/-! ### Heights -/

/-- The level of an expression as a left operand: it opens one of its own unless it is an operator
with two operands. -/
def leftHeight (e : Expr) : Nat := if e.isBinary then e.height else e.height + 1

theorem height_le_leftHeight (e : Expr) : e.height ≤ e.leftHeight := by
  rw [leftHeight]
  split <;> omega

theorem leftHeight_binary (op : BinaryOp) (l r : Expr) :
    (binary op l r).leftHeight = max l.leftHeight (r.height + 1) := rfl

/-- What unwinding takes out of an expression is lower than it. -/
theorem height_unwind (e : Expr) (row : List (BinaryOp × Expr)) :
    (unwind e row).1.height < e.leftHeight ∧
      ∀ x ∈ (unwind e row).2, x ∈ row ∨ x.2.height < e.leftHeight := by
  fun_induction unwind e row with
  | case1 row op l r ih =>
    obtain ⟨hfirst, hrow⟩ := ih
    rw [leftHeight_binary]
    refine ⟨by omega, fun x hx => ?_⟩
    rcases hrow x hx with hx | hlt
    · rcases List.mem_cons.mp hx with rfl | hx
      · exact Or.inr (by dsimp only; omega)
      · exact Or.inl hx
    · exact Or.inr (by omega)
  | case2 e row hne =>
    have hleft : e.leftHeight = e.height + 1 := by
      cases e with
      | binary op l r => exact absurd rfl (hne op l r)
      | _ => rfl
    rw [hleft]
    exact ⟨Nat.lt_succ_self _, fun x hx => Or.inl hx⟩

theorem height_lt_props {x : Expr} {ps : List (String × Expr)} (h : x ∈ ps.map Prod.snd) :
    x.height < propsHeight ps := by
  induction ps with
  | nil => exact absurd h List.not_mem_nil
  | cons p ps ih =>
    obtain ⟨key, e⟩ := p
    rw [propsHeight]
    rcases List.mem_cons.mp h with rfl | h
    · omega
    · have := ih h; omega

theorem height_lt_items {x : Expr} {es : List Expr} (h : x ∈ es) : x.height < itemsHeight es := by
  induction es with
  | nil => exact absurd h List.not_mem_nil
  | cons e es ih =>
    rw [itemsHeight]
    rcases List.mem_cons.mp h with rfl | h
    · omega
    · have := ih h; omega

/-- Operands are lower than the expression they belong to. -/
theorem height_lt_of_mem_operands {e x : Expr} (h : x ∈ e.operands) : x.height < e.height := by
  cases e with
  | member e property =>
    obtain rfl : x = e := by simpa [operands] using h
    rw [height]; omega
  | index e i =>
    rw [height]
    rcases (by simpa [operands] using h : x = e ∨ x = i) with rfl | rfl <;> omega
  | object props => rw [height]; exact height_lt_props h
  | array items => rw [height]; exact height_lt_items h
  | unary op e =>
    obtain rfl : x = e := by simpa [operands] using h
    rw [height]; omega
  | binary op l r =>
    obtain ⟨hfirst, hrow⟩ := height_unwind l [(op, r)]
    have hheight : (binary op l r).height = max l.leftHeight (r.height + 1) := rfl
    rw [hheight]
    rcases List.mem_cons.mp h with rfl | h
    · omega
    · obtain ⟨y, hy, rfl⟩ := List.mem_map.mp h
      rcases hrow y hy with hy | hlt
      · obtain rfl := List.mem_singleton.mp hy
        dsimp only; omega
      · omega
  | _ => simp [operands] at h

/-- A chain is not higher than its parts ask for, however long it is. -/
theorem height_chain_le {n : Nat} {first : Expr} {row : List (BinaryOp × Expr)}
    (hfirst : first.leftHeight ≤ n) (hrow : ∀ x ∈ row, x.2.height < n) :
    (chain first row).height ≤ n := by
  induction row generalizing first with
  | nil => exact Nat.le_trans (height_le_leftHeight first) hfirst
  | cons x row ih =>
    obtain ⟨op, r⟩ := x
    have hr : r.height < n := hrow _ (List.mem_cons_self ..)
    show (chain (.binary op first r) row).height ≤ n
    refine ih ?_ fun y hy => hrow y (List.mem_cons_of_mem _ hy)
    rw [leftHeight_binary]
    omega

/-! ### The limit -/

/-- Within a number of levels an expression has its plain value, unless it is at least that high and
its evaluation goes too deep. -/
theorem evalWithin_agrees (env : Environment) (levels : Nat) (e : Expr) :
    AgreesUnless (levels ≤ e.height) (evalWithin env levels e) (plain env e) := by
  induction levels generalizing e with
  | zero => exact Or.inr ⟨Nat.zero_le _, rfl⟩
  | succ levels ih =>
    rw [evalWithin, ← evalNode_plain e]
    refine AgreesUnless.evalNode fun x hx => ?_
    have hlt := height_lt_of_mem_operands hx
    rcases ih x with heq | ⟨hle, hdeep⟩
    · exact Or.inl heq
    · exact Or.inr ⟨by omega, hdeep⟩

theorem eval_of_height_le {e : Expr} (h : e.height ≤ maxDepth) : eval env e = plain env e := by
  rcases evalWithin_agrees env (maxDepth + 1) e with heq | ⟨hle, -⟩
  · exact heq
  · omega

/-- **The loop agrees with plain recursion**: an expression that is not higher than the limit has its
plain value, or fails as plain recursion does; any other one does so too or goes too deep. Hence a
chain of low operands has its plain value, however long it is. -/
theorem eval_agrees_with_plain (env : Environment) :
    (∀ e : Expr, e.height ≤ maxDepth → eval env e = plain env e) ∧
      (∀ e : Expr, eval env e = plain env e ∨ eval env e = .error .tooDeep) ∧
      ∀ (first : Expr) (row : List (BinaryOp × Expr)), first.height < maxDepth →
        (∀ x ∈ row, x.2.height < maxDepth) →
          eval env (chain first row) = plain env (chain first row) := by
  refine ⟨fun e he => eval_of_height_le he, fun e => ?_, fun first row hfirst hrow => ?_⟩
  · exact (evalWithin_agrees env (maxDepth + 1) e).imp_right And.right
  · refine eval_of_height_le (height_chain_le ?_ hrow)
    rw [leftHeight]
    split <;> omega

/-- A row of a thousand operators is one level high, and the name that none of them asks for need not
be bound. -/
theorem eval_agrees_with_plain_thousand :
    (Expr.bool true).height < maxDepth ∧
      (∀ x ∈ List.replicate 1000 (BinaryOp.or, Expr.name "a"), x.2.height < maxDepth) ∧
      (chain (.bool true) (List.replicate 1000 (.or, .name "a"))).height ≤ maxDepth ∧
      eval .empty (chain (.bool true) (List.replicate 1000 (.or, .name "a"))) =
        plain .empty (chain (.bool true) (List.replicate 1000 (.or, .name "a"))) := by
  have hfirst : (Expr.bool true).height < maxDepth := by decide
  have hrow : ∀ x ∈ List.replicate 1000 (BinaryOp.or, Expr.name "a"), x.2.height < maxDepth := by
    intro x hx
    obtain rfl := List.eq_of_mem_replicate hx
    exact hfirst
  have hchain : (chain (.bool true) (List.replicate 1000 (.or, .name "a"))).height ≤ maxDepth :=
    height_chain_le (by decide) hrow
  exact ⟨hfirst, hrow, hchain, (eval_agrees_with_plain .empty).2.2 _ _ hfirst hrow⟩

end Resumable.Expr
