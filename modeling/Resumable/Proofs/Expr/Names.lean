import Resumable.Proofs.Expr.Plain
import Resumable.Proofs.Statement.Declaring

/-!
# The names in an expression

An expression is evaluated with the values of the names that occur in it. A text may be more than
the expression it writes: it is looked up as a name as a whole, and the first of two words with a
point between them is looked up too. This module says that nothing else of an environment counts.

## The model

* `Expr.names`: the names that occur in an expression.
* `Mentions`: the names that a text mentions, in one of the three ways in which it is read.
* `Environment.AgreeOn`: two environments give some names the same values.

## What is proved

* `evalWithin_congr`: the value of an expression depends on the names in it only, however deep its
  evaluation goes.
* `parse_trim`: a text that writes an expression writes it without the blanks at its ends too.
* `evalText_congr`, `evaluate_congr`: the value of a text depends on the names that it mentions only.
-/

namespace Resumable

/-! ### Environments that agree -/

namespace Environment

variable {on : String → Prop} {a b : Environment}

/-- Two environments agree on names: each of them has the same value in both, or is bound in
neither. -/
def AgreeOn (on : String → Prop) (a b : Environment) : Prop := ∀ n, on n → a.get? n = b.get? n

theorem AgreeOn.mono {less : String → Prop} (h : AgreeOn on a b) (hless : ∀ n, less n → on n) :
    AgreeOn less a b := fun n hn => h n (hless n hn)

theorem AgreeOn.set (h : AgreeOn on a b) (name : String) (value : Value) :
    AgreeOn on (a.set name value) (b.set name value) := by
  intro n hn
  rw [get?_set, get?_set, h n hn]

theorem AgreeOn.modify (h : AgreeOn on a b) (name : String) (f : Value → Value) :
    AgreeOn on (a.modify name f) (b.modify name f) := by
  intro n hn
  rw [get?_modify, get?_modify]
  by_cases hname : n = name
  · rw [if_pos hname, if_pos hname, ← hname, h n hn]
  · rw [if_neg hname, if_neg hname, h n hn]

/-- Environments agree on all names but one if it is bound anew in one of them. -/
theorem agreeOn_set (env : Environment) (name : String) (value : Value) :
    AgreeOn (· ≠ name) env (env.set name value) := by
  intro n hn
  rw [get?_set, if_neg hn]

end Environment

namespace Expr

open Environment (AgreeOn)

variable {a b : Environment} {cs w : List Char} {e x : Expr}

/-! ### Names in expressions -/

mutual
/-- The names that occur in an expression. -/
def names : Expr → List String
  | .undefined => []
  | .null => []
  | .bool _ => []
  | .num _ => []
  | .str _ => []
  | .name n => [n]
  | .member e _ => e.names
  | .index e i => e.names ++ i.names
  | .object props => propNames props
  | .array items => itemNames items
  | .unary _ e => e.names
  | .binary _ l r => l.names ++ r.names

/-- The names that occur in an object literal's properties. -/
def propNames : List (String × Expr) → List String
  | [] => []
  | (_, e) :: ps => e.names ++ propNames ps

/-- The names that occur in an array literal's items. -/
def itemNames : List Expr → List String
  | [] => []
  | e :: es => e.names ++ itemNames es
end

theorem names_subset_props {ps : List (String × Expr)} (h : x ∈ ps.map Prod.snd) :
    x.names ⊆ propNames ps := by
  induction ps with
  | nil => exact absurd h List.not_mem_nil
  | cons p ps ih =>
    obtain ⟨key, e⟩ := p
    rw [propNames]
    rcases List.mem_cons.mp h with rfl | h
    · exact List.subset_append_left _ _
    · exact List.subset_append_of_subset_right _ (ih h)

theorem names_subset_items {es : List Expr} (h : x ∈ es) : x.names ⊆ itemNames es := by
  induction es with
  | nil => exact absurd h List.not_mem_nil
  | cons e es ih =>
    rw [itemNames]
    rcases List.mem_cons.mp h with rfl | h
    · exact List.subset_append_left _ _
    · exact List.subset_append_of_subset_right _ (ih h)

/-- What unwinding takes out of an expression has names of that expression only. -/
theorem names_unwind (e : Expr) (row : List (BinaryOp × Expr)) :
    (unwind e row).1.names ⊆ e.names ∧
      ∀ y ∈ (unwind e row).2, y ∈ row ∨ y.2.names ⊆ e.names := by
  fun_induction unwind e row with
  | case1 op l r row ih =>
    obtain ⟨hfirst, hrow⟩ := ih
    have hl : l.names ⊆ (binary op l r).names := by
      rw [names]
      exact List.subset_append_left _ _
    have hr : r.names ⊆ (binary op l r).names := by
      rw [names]
      exact List.subset_append_right _ _
    refine ⟨List.Subset.trans hfirst hl, fun y hy => ?_⟩
    rcases hrow y hy with hy | hsub
    · rcases List.mem_cons.mp hy with rfl | hy
      · exact Or.inr hr
      · exact Or.inl hy
    · exact Or.inr (List.Subset.trans hsub hl)
  | case2 => exact ⟨fun _ h => h, fun y hy => Or.inl hy⟩

/-- The names of operands are names of the expression they belong to. -/
theorem names_subset_of_mem_operands (h : x ∈ e.operands) : x.names ⊆ e.names := by
  cases e with
  | member e property =>
    obtain rfl : x = e := by simpa [operands] using h
    rw [names]
    exact fun _ h => h
  | index e i =>
    rw [names]
    rcases (by simpa [operands] using h : x = e ∨ x = i) with rfl | rfl
    · exact List.subset_append_left _ _
    · exact List.subset_append_right _ _
  | object props => rw [names]; exact names_subset_props h
  | array items => rw [names]; exact names_subset_items h
  | unary op e =>
    obtain rfl : x = e := by simpa [operands] using h
    rw [names]
    exact fun _ h => h
  | binary op l r =>
    obtain ⟨hfirst, hrow⟩ := names_unwind (binary op l r) []
    rcases List.mem_cons.mp h with rfl | h
    · exact hfirst
    · obtain ⟨y, hy, rfl⟩ := List.mem_map.mp h
      rcases hrow y hy with hy | hsub
      · exact absurd hy List.not_mem_nil
      · exact hsub
  | _ => simp [operands] at h

/-! ### Evaluation -/

/-- Of the environment itself, an expression needs the value of the name that it is. -/
theorem evalNode_congr (operand : Expr → Except EvalError Value) (h : AgreeOn (· ∈ e.names) a b) :
    evalNode a operand e = evalNode b operand e := by
  cases e with
  | name n => rw [evalNode, evalNode, h n (by simp [names])]
  | _ => rfl

theorem evalWithin_congr (levels : Nat) : ∀ {e : Expr}, AgreeOn (· ∈ e.names) a b →
    evalWithin a levels e = evalWithin b levels e := by
  induction levels with
  | zero => exact fun _ => rfl
  | succ levels ih =>
    intro e h
    have hoperands : ∀ x ∈ e.operands,
        AgreesUnless False (evalWithin a levels x) (evalWithin b levels x) :=
      fun x hx => Or.inl (ih (h.mono fun _ hn => names_subset_of_mem_operands hx hn))
    rcases AgreesUnless.evalNode hoperands with hnode | ⟨hfalse, -⟩
    · rw [evalWithin, evalWithin, hnode, evalNode_congr _ h]
    · exact hfalse.elim

theorem evalText_of_names (h : ∀ e, parse cs = .ok e → AgreeOn (· ∈ e.names) a b) :
    evalText a cs = evalText b cs := by
  unfold evalText
  cases hparse : parse cs with
  | error err => rfl
  | ok e => exact evalWithin_congr _ (h e hparse)

/-! ### Blanks at the ends of a text -/

namespace Token

variable {t : Token} {ts : List Token}

theorem isBlank_of_isSpace {c : Char} (h : isSpace c = true) : Text.isBlank c = true := by
  simp only [isSpace, Bool.or_eq_true, beq_iff_eq] at h
  rcases h with ((rfl | rfl) | rfl) | rfl <;> decide

theorem not_isBlank_of_isQuote {c : Char} (h : Source.isQuote c = true) :
    Text.isBlank c = false := by
  rcases Source.isQuote_iff.mp h with rfl | rfl | rfl <;> decide

/-- A token neither starts nor ends with a blank. -/
theorem Spells.edges (h : Spells t w) : (∃ c rest, w = c :: rest ∧ Text.isBlank c = false) ∧
    ∃ init c, w = init ++ [c] ∧ Text.isBlank c = false := by
  -- All tokens but strings have no blanks at all.
  have solid : (∀ c ∈ w, Text.isBlank c = false) → w ≠ [] →
      (∃ c rest, w = c :: rest ∧ Text.isBlank c = false) ∧
        ∃ init c, w = init ++ [c] ∧ Text.isBlank c = false := by
    intro hall hne
    obtain ⟨c, rest, hfirst⟩ := List.exists_cons_of_ne_nil hne
    obtain ⟨init, d, hlast⟩ := (List.eq_nil_or_concat' w).resolve_left hne
    exact ⟨⟨c, rest, hfirst, hall c (by simp [hfirst])⟩, init, d, hlast, hall d (by simp [hlast])⟩
  cases h with
  | @name c cs first others =>
    refine solid (fun d hd => not_isBlank_of_isNameChar ?_) (List.cons_ne_nil c cs)
    exact (isName_of_spells (.name first others)).1.all d hd
  | number numeral =>
    refine solid (fun d hd => ?_) ?_
    · rcases isNameChar_of_writes numeral d hd with hname | rfl | rfl | rfl
      · exact not_isBlank_of_isNameChar hname
      all_goals decide
    · obtain ⟨c, rest, hw, -⟩ := (Spells.number numeral).head
      rw [hw]
      exact List.cons_ne_nil c rest
  | @text quote s isQuote apart =>
    have hblank := not_isBlank_of_isQuote isQuote
    exact ⟨⟨quote, _, rfl, hblank⟩, quote :: s, quote, rfl, hblank⟩
  | op o =>
    cases o <;> exact solid (List.forall_iff_forall_mem.mp (by decide)) (List.cons_ne_nil _ _)
  | bang | dot | comma | colon =>
    exact solid (List.forall_iff_forall_mem.mp (by decide)) (List.cons_ne_nil _ _)
  | opening b | closing b =>
    cases b <;> exact solid (List.forall_iff_forall_mem.mp (by decide)) (List.cons_ne_nil _ _)

theorem Spelled.trimStart (h : Spelled ts cs) : Spelled ts (Text.trimStart cs) := by
  cases h with
  | done hblanks =>
    have htrim := Text.trimStart_append (fun c hc => isBlank_of_isSpace (hblanks c hc)) Text.ends_nil
    rw [List.append_nil] at htrim
    rw [htrim]
    exact .done fun c hc => absurd hc List.not_mem_nil
  | @token t ts blanks w rest hblanks spells others =>
    obtain ⟨⟨c, ds, rfl, hc⟩, -⟩ := spells.edges
    have hends : Text.Ends Text.isBlank (c :: ds ++ rest) := Text.ends_cons hc (ds ++ rest)
    rw [Text.trimStart_append (fun c hc => isBlank_of_isSpace (hblanks c hc)) hends]
    exact spells.spelled_cons others

theorem Spelled.trimEnd (h : Spelled ts cs) : Spelled ts (Text.trimEnd cs) := by
  induction h with
  | @done blanks hblanks =>
    refine .done fun c hc => hblanks c ?_
    exact (Text.trimEnd_prefix blanks).subset hc
  | @token t ts blanks w rest hblanks spells others ih =>
    obtain ⟨-, init, c, hw, hc⟩ := spells.edges
    have htrim : Text.trimEnd (blanks ++ (w ++ rest)) = blanks ++ (w ++ Text.trimEnd rest) := by
      have := Text.trimEnd_append_cons hc (blanks ++ init) rest
      simpa [hw] using this
    rw [htrim]
    exact .token hblanks spells ih

end Token

/-- A text that writes an expression writes it without the blanks at its ends too. -/
theorem parse_trim (h : parse cs = .ok e) : parse (Text.trim cs) = .ok e := by
  obtain ⟨p, hread, rfl⟩ := exists_phrase_of_parse h
  obtain ⟨hfits, hspelled, hbounded⟩ := readPhrase_eq_ok_iff.mp hread
  have htrimmed : Token.Spelled p.tokens (Text.trim cs) := hspelled.trimStart.trimEnd
  rw [parse, readPhrase_eq_ok_iff.mpr ⟨hfits, htrimmed, hbounded⟩]
  rfl

/-! ### Names in texts -/

/-- A name that a text mentions. -/
inductive Mentions (cs : List Char) : String → Prop where
  /-- The whole text, without the blanks at its ends. -/
  | whole : Mentions cs (String.ofList (Text.trim cs))
  /-- The first of two words with a point between them. -/
  | base {b f : List Char} (based : b ≠ []) (fielded : f ≠ [])
      (words : ∀ c ∈ b ++ f, Text.isWord c = true) (text : Text.trim cs = b ++ '.' :: f) :
      Mentions cs (String.ofList b)
  /-- A name in the expression that the text writes. -/
  | inside {e : Expr} {n : String} (writes : parse (Text.trim cs) = .ok e) (occurs : n ∈ e.names) :
      Mentions cs n

/-- A text without a point mentions itself and the names in its expression. -/
theorem Mentions.of_not_mem {n : String} (h : Mentions cs n) (hpoint : '.' ∉ Text.trim cs) :
    n = String.ofList (Text.trim cs) ∨ ∃ e, parse (Text.trim cs) = .ok e ∧ n ∈ e.names := by
  cases h with
  | whole => exact .inl rfl
  | base based fielded words text => exact absurd (by simp [text]) hpoint
  | inside writes occurs => exact .inr ⟨_, writes, occurs⟩

theorem mentions_of_projection? {base field : String}
    (h : projection? (Text.trim cs) = some (base, field)) : Mentions cs base := by
  obtain ⟨b, f, hcs, hb, hf, rfl, -⟩ := of_projection? h
  have hwords : ∀ c ∈ b ++ f, Text.isWord c = true := by
    intro c hc
    rcases List.mem_append.mp hc with hc | hc
    · exact hb c hc
    · exact hf c hc
  have hspan : Text.spanWord (b ++ '.' :: f) = (b, '.' :: f) :=
    Text.span_append hb (Text.ends_cons (by decide +kernel) f)
  rw [hcs, projection?, hspan] at h
  refine .base ?_ ?_ hwords hcs
  · rintro rfl
    cases h
  · rintro rfl
    cases b <;> cases h

theorem evalText_congr (h : AgreeOn (Mentions cs) a b) : evalText a cs = evalText b cs :=
  evalText_of_names fun _ hparse n hn => h n (.inside (parse_trim hparse) hn)

theorem evaluate_congr (h : AgreeOn (Mentions cs) a b) : evaluate a cs = evaluate b cs := by
  have hwhole := h _ .whole
  have htext : evalText a (Text.trim cs) = evalText b (Text.trim cs) :=
    evalText_of_names fun _ hparse n hn => h n (.inside hparse hn)
  simp only [evaluate, evaluateTrimmed, hwhole, htext]
  cases hproj : projection? (Text.trim cs) with
  | none => rfl
  | some words => simp only [h words.1 (mentions_of_projection? hproj)]

end Expr

end Resumable
