import Resumable.Expr.Parse
import Resumable.Proofs.Expr.Extent

/-!
# Texts that are expressions

A text renders an expression if it spells the tokens of a phrase that writes the expression: with
parentheses where the precedence of the operators asks for them and anywhere else, with any blanks
between tokens, and with any spelling of numbers and strings.

## The model

* `Key.Names` and `Phrase.Writes`: the name that a key gives a property, and the expression that a
  phrase writes, one rule for each form.
* `Phrase.Renders`: a phrase ties a text to an expression.
* `Phrase.Bounded`: a phrase keeps the limits on nesting, signs and nodes.

## What is proved

* `ofText?_eq_some_iff`: the phrase found in a text is the one that the text spells.
* `writes_iff`: every phrase writes one expression, which `toExpr` computes.
* `parse_eq_ok_iff`: a text is read as an expression exactly if it renders the expression within
  the limits.
-/

namespace Resumable.Expr

/-- The name that a key gives a property. A numeral names by its text. -/
inductive Key.Names : Key → String → Prop where
  /-- A plain name names by itself. -/
  | name (n : String) : Names (.name n) n
  /-- A string literal names by what stands between its quotes. -/
  | text (quote : Char) (s : String) : Names (.text quote s) s
  /-- A numeral names by the text of its value. -/
  | number (x : Double) : Names (.number x) (Value.showNumber x)

namespace Phrase

open Token (MayTouch Spelled)

variable {α : Type} {write : α → List Token} {t : Token} {ts rest : List Token} {p : Phrase}
  {cs : List Char} {e : Expr}

/-! ### Tokens of a phrase that touch -/

/-- Tokens go on with any others that start with no name and no number, each token touching the
next. -/
def Joins (ts : List Token) : Prop :=
  ∀ rest, rest.IsChain MayTouch → Stops Token.isWord rest → (ts ++ rest).IsChain MayTouch

/-- Before the start of a phrase there may be any operator. -/
theorem Starts.isEquality (h : Starts ts) : ∀ u ∈ ts.head?, u.isEquality = false := by
  obtain ⟨t, us, rfl, ht⟩ := h
  intro u hu
  obtain rfl : t = u := by simpa using hu
  cases t with
  | op o =>
    cases o with
    | eq | strictEq => simp [Token.isStart] at ht
    | _ => rfl
  | _ => rfl

/-- Behind most tokens anything may stand. -/
theorem isChain_cons_of_free (ht : ∀ u, MayTouch t u) (h : ts.IsChain MayTouch) :
    (t :: ts).IsChain MayTouch := List.isChain_cons.mpr ⟨fun u _ => ht u, h⟩

theorem isChain_listed {as : List α} (close : Bracket) (trailing : Bool)
    (h : ∀ a ∈ as, Joins (write a)) (hrest : rest.IsChain MayTouch) :
    (listed close (as.map write) trailing ++ rest).IsChain MayTouch := by
  have hclose : (.closing close :: rest).IsChain MayTouch :=
    isChain_cons_of_free (fun _ => trivial) hrest
  -- What stands behind the last member.
  obtain ⟨after, hafter, hchain, hstop⟩ : ∃ after : List Token,
      (if trailing then [.comma] else []) ++ [.closing close] ++ rest = after ∧
      after.IsChain MayTouch ∧ Stops Token.isWord after := by
    cases trailing with
    | true => exact ⟨_, rfl, isChain_cons_of_free (fun _ => trivial) hclose, stops_cons rfl _⟩
    | false => exact ⟨_, rfl, hclose, stops_cons rfl _⟩
  induction as with
  | nil =>
    rw [← hafter] at hchain
    exact hchain
  | cons a as ih =>
    have ha := h a (List.mem_cons_self ..)
    have has := ih fun b hb => h b (List.mem_cons_of_mem _ hb)
    cases as with
    | nil =>
      rw [List.map_singleton, listed_singleton, List.append_assoc, hafter]
      exact ha after hchain hstop
    | cons b as =>
      rw [List.map_cons, List.map_cons, listed_cons_cons, List.append_assoc]
      exact ha _ (isChain_cons_of_free (fun _ => trivial) has) (stops_cons rfl _)

/-- Each token of a phrase may touch the next. -/
theorem Fits.joins (h : Fits p) : Joins p.tokens := by
  induction h with
  | keyword | number | name => exact fun rest hrest hstop => List.isChain_cons.mpr ⟨hstop, hrest⟩
  | text => exact fun rest hrest _ => isChain_cons_of_free (fun _ => trivial) hrest
  | @group p inner ih =>
    intro rest hrest _
    rw [tokens, List.cons_append, List.append_assoc]
    refine isChain_cons_of_free (fun _ => trivial) (ih _ ?_ (stops_cons rfl _))
    exact isChain_cons_of_free (fun _ => trivial) hrest
  | @object props trailing values last ih =>
    intro rest hrest _
    rw [tokens, propTokens_eq_map, List.cons_append]
    refine isChain_cons_of_free (fun _ => trivial) (isChain_listed .curly trailing ?_ hrest)
    intro kp hkp rest hrest hstop
    have hvalue : (.colon :: (kp.2.tokens ++ rest)).IsChain MayTouch :=
      isChain_cons_of_free (fun _ => trivial) (ih kp hkp rest hrest hstop)
    refine List.isChain_cons.mpr ⟨fun u hu => ?_, hvalue⟩
    obtain rfl : .colon = u := by simpa using hu
    cases kp.1 <;> trivial
  | @array items trailing values last ih =>
    intro rest hrest _
    rw [tokens, itemTokens_eq_map, List.cons_append]
    exact isChain_cons_of_free (fun _ => trivial) (isChain_listed .square trailing ih hrest)
  | @member p n base tight ih =>
    intro rest hrest hstop
    rw [tokens, List.append_assoc]
    refine ih _ (List.isChain_cons.mpr ⟨fun u hu => ?_, ?_⟩) (stops_cons rfl _)
    · obtain rfl : .name n = u := by simpa using hu
      rfl
    · exact List.isChain_cons.mpr ⟨hstop, hrest⟩
  | @index p i base tight subscript ihp ihi =>
    intro rest hrest _
    rw [tokens, List.append_assoc, List.cons_append, List.append_assoc]
    refine ihp _ (isChain_cons_of_free (fun _ => trivial) ?_) (stops_cons rfl _)
    refine ihi _ ?_ (stops_cons rfl _)
    exact isChain_cons_of_free (fun _ => trivial) hrest
  | @unary op p operand tight ih =>
    intro rest hrest hstop
    have hhead := ((starts_tokens p).append rest).isEquality
    refine List.isChain_cons.mpr ⟨?_, ih rest hrest hstop⟩
    cases op <;> exact hhead
  | @binary op l r left right leftTight rightTight ihl ihr =>
    intro rest hrest hstop
    rw [tokens, List.append_assoc]
    refine ihl _ (List.isChain_cons.mpr ⟨?_, ihr rest hrest hstop⟩) (stops_cons rfl _)
    exact ((starts_tokens r).append rest).isEquality

theorem Fits.isChain (h : Fits p) : p.tokens.IsChain MayTouch := by
  have := h.joins [] .nil stops_nil
  rwa [List.append_nil] at this

/-! ### Reading a text -/

/-- The phrase found in a text is the one that fits and whose tokens the text spells. -/
theorem ofText?_eq_some_iff : ofText? cs = some p ↔ Fits p ∧ Spelled p.tokens cs := by
  constructor
  · intro h
    obtain ⟨ts, hts, hphrase⟩ := Option.bind_eq_some_iff.mp h
    split at hphrase
    · rename_i q hread
      cases hphrase
      obtain ⟨hfits, rfl⟩ := sound_phrase? ts p [] hread
      rw [List.append_nil] at hts
      exact ⟨hfits, Token.spelled_of_scan hts⟩
    · simp at hphrase
  · rintro ⟨hfits, hspelled⟩
    have hnesting := Nat.lt_succ_of_le (nesting_le_length hfits hspelled)
    have hread := complete_phrase? p [] ⟨hfits, hnesting⟩ ⟨stops_nil, stops_nil⟩
    rw [List.append_nil] at hread
    rw [ofText?, Token.ofText?_of_spelled hspelled hfits.isChain]
    simp only [Option.bind_eq_bind, Option.bind_some, hread]

/-! ### The expression that a phrase writes -/

mutual
/-- A phrase writes an expression: what it has beyond the tree falls away, and the rest is kept
where it stands. -/
inductive Writes : Phrase → Expr → Prop where
  /-- The word `true`. -/
  | true : Writes (.keyword .true) (.bool Bool.true)
  /-- The word `false`. -/
  | false : Writes (.keyword .false) (.bool Bool.false)
  /-- The word `null`. -/
  | null : Writes (.keyword .null) .null
  /-- The word `undefined`. -/
  | undefined : Writes (.keyword .undefined) .undefined
  /-- A numeral. -/
  | number (x : Double) : Writes (.number x) (.num x)
  /-- A string literal, without its quotes. -/
  | text (quote : Char) (s : String) : Writes (.text quote s) (.str s)
  /-- A variable. -/
  | name (n : String) : Writes (.name n) (.name n)
  /-- Parentheses leave the expression between them as it is. -/
  | group {p : Phrase} {e : Expr} (inner : Writes p e) : Writes (.group p) e
  /-- An object literal, without a last comma. -/
  | object {props : List (Key × Phrase)} {fields : List (String × Expr)} (trailing : Bool)
      (values : WritesProps props fields) : Writes (.object props trailing) (.object fields)
  /-- An array literal, without a last comma. -/
  | array {items : List Phrase} {es : List Expr} (trailing : Bool) (values : WritesItems items es) :
      Writes (.array items trailing) (.array es)
  /-- A property by its name. -/
  | member {p : Phrase} {e : Expr} (n : String) (base : Writes p e) :
      Writes (.member p n) (.member e n)
  /-- A property by the value of an expression. -/
  | index {p i : Phrase} {e d : Expr} (base : Writes p e) (subscript : Writes i d) :
      Writes (.index p i) (.index e d)
  /-- An operator before its operand. -/
  | unary {p : Phrase} {e : Expr} (op : UnaryOp) (operand : Writes p e) :
      Writes (.unary op p) (.unary op e)
  /-- An operator between its operands. -/
  | binary {l r : Phrase} {d e : Expr} (op : BinaryOp) (left : Writes l d) (right : Writes r e) :
      Writes (.binary op l r) (.binary op d e)

/-- The properties of an object literal write fields, in the same order. -/
inductive WritesProps : List (Key × Phrase) → List (String × Expr) → Prop where
  /-- No property. -/
  | nil : WritesProps [] []
  /-- One property more. -/
  | cons {k : Key} {n : String} {p : Phrase} {e : Expr} {props : List (Key × Phrase)}
      {fields : List (String × Expr)} (key : k.Names n) (value : Writes p e)
      (others : WritesProps props fields) : WritesProps ((k, p) :: props) ((n, e) :: fields)

/-- The items of an array literal write expressions, in the same order. -/
inductive WritesItems : List Phrase → List Expr → Prop where
  /-- No item. -/
  | nil : WritesItems [] []
  /-- One item more. -/
  | cons {p : Phrase} {e : Expr} {items : List Phrase} {es : List Expr} (value : Writes p e)
      (others : WritesItems items es) : WritesItems (p :: items) (e :: es)
end

theorem names_iff {k : Key} {n : String} : k.Names n ↔ k.toName = n := by
  constructor
  · rintro (_ | _ | _) <;> rfl
  · rintro rfl
    cases k with
    | name n => exact .name n
    | text quote s => exact .text quote s
    | number x => exact .number x

mutual
/-- What a phrase writes is what `toExpr` computes. -/
theorem Writes.toExpr_eq : ∀ {p : Phrase} {e : Expr}, Writes p e → p.toExpr = e
  | _, _, .true | _, _, .false | _, _, .null | _, _, .undefined => rfl
  | _, _, .number _ | _, _, .text _ _ | _, _, .name _ => rfl
  | _, _, .group inner => inner.toExpr_eq
  | _, _, .object _ values => by rw [toExpr, values.toProps_eq]
  | _, _, .array _ values => by rw [toExpr, values.toItems_eq]
  | _, _, .member _ base => by rw [toExpr, base.toExpr_eq]
  | _, _, .index base subscript => by rw [toExpr, base.toExpr_eq, subscript.toExpr_eq]
  | _, _, .unary _ operand => by rw [toExpr, operand.toExpr_eq]
  | _, _, .binary _ left right => by rw [toExpr, left.toExpr_eq, right.toExpr_eq]

theorem WritesProps.toProps_eq : ∀ {props : List (Key × Phrase)} {fields : List (String × Expr)},
    WritesProps props fields → toProps props = fields
  | _, _, .nil => rfl
  | _, _, .cons key value others => by
    rw [toProps, names_iff.mp key, value.toExpr_eq, others.toProps_eq]

theorem WritesItems.toItems_eq : ∀ {items : List Phrase} {es : List Expr},
    WritesItems items es → toItems items = es
  | _, _, .nil => rfl
  | _, _, .cons value others => by rw [toItems, value.toExpr_eq, others.toItems_eq]
end

mutual
/-- Every phrase writes the expression that `toExpr` computes. -/
theorem writes_toExpr : ∀ p : Phrase, Writes p p.toExpr
  | .keyword .true => .true
  | .keyword .false => .false
  | .keyword .null => .null
  | .keyword .undefined => .undefined
  | .number x => .number x
  | .text quote s => .text quote s
  | .name n => .name n
  | .group p => .group (writes_toExpr p)
  | .object props trailing => .object trailing (writes_toProps props)
  | .array items trailing => .array trailing (writes_toItems items)
  | .member p n => .member n (writes_toExpr p)
  | .index p i => .index (writes_toExpr p) (writes_toExpr i)
  | .unary op p => .unary op (writes_toExpr p)
  | .binary op l r => .binary op (writes_toExpr l) (writes_toExpr r)

theorem writes_toProps : ∀ props : List (Key × Phrase), WritesProps props (toProps props)
  | [] => .nil
  | (_, p) :: props => .cons (names_iff.mpr rfl) (writes_toExpr p) (writes_toProps props)

theorem writes_toItems : ∀ items : List Phrase, WritesItems items (toItems items)
  | [] => .nil
  | p :: items => .cons (writes_toExpr p) (writes_toItems items)
end

/-- A phrase writes one expression, and `toExpr` computes it. -/
theorem writes_iff : Writes p e ↔ p.toExpr = e :=
  ⟨Writes.toExpr_eq, fun h => h ▸ writes_toExpr p⟩

/-! ### Texts and expressions -/

/-- A phrase ties a text to an expression. -/
structure Renders (p : Phrase) (cs : List Char) (e : Expr) : Prop where
  /-- Parentheses stand wherever precedence asks for them. -/
  fits : Fits p
  /-- The text spells the tokens of the phrase. -/
  spelled : Spelled p.tokens cs
  /-- The phrase writes the expression. -/
  writes : Writes p e

/-- A phrase keeps the limits. -/
structure Bounded (p : Phrase) : Prop where
  /-- Brackets do not nest too deep. -/
  nesting : p.nesting ≤ maxNesting
  /-- Not too many signs follow each other. -/
  signs : p.signRun ≤ maxSigns
  /-- There are not too many nodes. -/
  nodes : p.size ≤ maxNodes

end Phrase

open Phrase in
theorem readPhrase_eq_ok_iff {cs : List Char} {p : Phrase} :
    readPhrase cs = .ok p ↔ Fits p ∧ Token.Spelled p.tokens cs ∧ Bounded p := by
  constructor
  · intro h
    unfold readPhrase at h
    dsimp only at h
    split at h
    · cases h
    · rename_i hdepth
      split at h
      · cases h
      · rename_i q hq
        split at h
        · cases h
        · rename_i hlimit
          cases h
          obtain ⟨hfits, hspelled⟩ := ofText?_eq_some_iff.mp hq
          obtain ⟨hnodes, hsigns⟩ := (limit?_eq_none_iff p).mp hlimit
          rw [nestingDepth_of_spelled hfits hspelled] at hdepth
          exact ⟨hfits, hspelled, Nat.not_lt.mp hdepth, hsigns, hnodes⟩
  · rintro ⟨hfits, hspelled, hnesting, hsigns, hnodes⟩
    have hdepth := nestingDepth_of_spelled hfits hspelled
    rw [readPhrase, if_neg (by rw [hdepth]; exact Nat.not_lt.mpr hnesting),
      ofText?_eq_some_iff.mpr ⟨hfits, hspelled⟩]
    simp only [(limit?_eq_none_iff p).mpr ⟨hnodes, hsigns⟩]

theorem exists_phrase_of_parse {cs : List Char} {e : Expr} (h : parse cs = .ok e) :
    ∃ p : Phrase, readPhrase cs = .ok p ∧ p.toExpr = e := by
  cases hread : readPhrase cs with
  | error err =>
    rw [parse, hread] at h
    cases h
  | ok p =>
    rw [parse, hread] at h
    cases h
    exact ⟨p, rfl, rfl⟩

/-- **A text is read as an expression exactly if it renders the expression** within the limits on
nesting, signs and nodes. -/
theorem parse_eq_ok_iff (cs : List Char) (e : Expr) :
    parse cs = .ok e ↔ ∃ p : Phrase, p.Renders cs e ∧ p.Bounded := by
  constructor
  · intro h
    obtain ⟨p, hread, hexpr⟩ := exists_phrase_of_parse h
    obtain ⟨hfits, hspelled, hbounded⟩ := readPhrase_eq_ok_iff.mp hread
    exact ⟨p, ⟨hfits, hspelled, Phrase.writes_iff.mpr hexpr⟩, hbounded⟩
  · rintro ⟨p, ⟨hfits, hspelled, hwrites⟩, hbounded⟩
    rw [parse, readPhrase_eq_ok_iff.mpr ⟨hfits, hspelled, hbounded⟩, ← Phrase.writes_iff.mp hwrites]
    rfl

end Resumable.Expr
