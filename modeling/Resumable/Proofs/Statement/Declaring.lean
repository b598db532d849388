import Resumable.Proofs.Expr.Shortcuts
import Resumable.Proofs.Statement.Parts
import Resumable.Statement.Exec

/-!
# Declared variables are read back

What a name is, is said twice: statements take word characters for a name, and the grammar of
expressions takes basic letters, digits, the underscore and the dollar sign. A variable that is
declared under a name of the grammar has the value of its expression from then on. The dollar sign
is the exception: it stands in no word, so that a statement with such a name declares nothing.

## The model

* `declaring`: the statement that declares a variable with the value of an expression.

## What is proved

* `isWord_of_isNameChar`: of the characters of names, only the dollar sign stands in no word.
* `evaluate_of_isName`: a bound name has its value, whatever else could be read in its text.
* `classify_declaring`, `classify_declaring_dollar`: what a declaration is, without and with a
  dollar sign in its name.
* `declared_reads_back`: a declared variable is read back and no other one is touched.
-/

namespace Resumable

variable {env : Environment} {name : String} {cs : List Char} {v : Value}

/-! ### Names -/

namespace Text

theorem isWord_of_isNameChar {c : Char} (h : Expr.isNameChar c = true) (hc : c ≠ '$') :
    isWord c = true := by
  have hnat : c.val.toNat = c.toNat := rfl
  have hdollar : c.toNat ≠ 0x24 := by
    intro h
    exact hc (Char.toNat_inj.mp h)
  simp only [Expr.isNameChar, Expr.isNameStart, Decimal.isDigit, Bool.or_eq_true, Bool.and_eq_true,
    decide_eq_true_eq, beq_iff_eq, Char.le_def, Char.ext_iff, UInt32.le_iff_toNat_le,
    ← UInt32.toNat_inj, Char.reduceVal, UInt32.reduceToNat] at h
  exact (isWord_iff (by omega)).mpr (by omega)

theorem isWord_dollar : isWord '$' = false := by decide +kernel

end Text

namespace Expr

open Token (Spelled)
open Phrase (Fits)

theorem not_isBlank_of_isNameChar {c : Char} (h : isNameChar c = true) :
    Text.isBlank c = false := by
  by_cases hc : c = '$'
  · subst hc
    decide
  · exact Text.isBlank_of_isWord (Text.isWord_of_isNameChar h hc)

theorem IsName.ends_isBlank (h : IsName cs) (rest : List Char) :
    Text.Ends Text.isBlank (cs ++ rest) := by
  obtain ⟨c, ds, rfl, hc⟩ := h.first
  exact Text.ends_cons (not_isBlank_of_isNameChar (Token.isNameChar_of_isNameStart hc)) _

/-- Before its first dollar sign, a name has word characters only. -/
theorem IsName.exists_dollar (h : IsName cs) (hdollar : '$' ∈ cs) :
    ∃ before behind, cs = before ++ '$' :: behind ∧ ∀ c ∈ before, Text.isWord c = true := by
  obtain ⟨before, behind, hcs, hbefore⟩ := List.eq_append_cons_of_mem hdollar
  refine ⟨before, behind, hcs, fun c hc => ?_⟩
  have hmem : c ∈ cs := by
    rw [hcs]
    exact List.mem_append_left _ hc
  exact Text.isWord_of_isNameChar (h.all c hmem) fun heq => hbefore (heq ▸ hc)

theorem IsName.trim_eq (h : IsName cs) : Text.trim cs = cs :=
  Text.trim_eq_self
    (fun c hc => not_isBlank_of_isNameChar (h.all c (List.mem_of_mem_head? hc)))
    fun c hc => not_isBlank_of_isNameChar (h.all c (List.mem_of_mem_getLast? hc))

/-- To the grammar, a name is the variable and nothing else; so it has no value if nothing is
bound. -/
theorem IsName.eval_ne (h : IsName cs) (hfree : Keyword.ofName? (String.ofList cs) = none) :
    ¬ ∃ p : Phrase, Fits p ∧ Spelled p.tokens cs ∧ p.toExpr.eval {} = .ok v := by
  rintro ⟨p, hfits, hspelled, heval⟩
  obtain rfl := Phrase.eq_of_spelled hfits hspelled (.name hfree) h.spelled
  cases heval

/-- A bound name has its value. -/
theorem evaluate_of_isName (h : IsName name.toList) (hfree : Keyword.ofName? name = none)
    (hget : env.get? name = some v) : evaluate env name.toList = v := by
  rw [← String.ofList_toList (s := name)] at hfree hget
  have hnumber : numberLiteral? name.toList = none := by
    cases hnumber : numberLiteral? name.toList with
    | none => rfl
    | some x => exact absurd (exists_phrase_of_numberLiteral? hnumber) (h.eval_ne hfree)
  have hstring : stringLiteral? name.toList = none := by
    cases hstring : stringLiteral? name.toList with
    | none => rfl
    | some s => exact absurd (exists_phrase_of_stringLiteral? hstring) (h.eval_ne hfree)
  rw [evaluate, h.trim_eq]
  simp only [evaluateTrimmed, hfree, hnumber, hstring, hget]

/-- A leading blank does not count. -/
theorem evaluate_cons {c : Char} (hc : Text.isBlank c = true) (cs : List Char) :
    evaluate env (c :: cs) = evaluate env cs := by
  rw [evaluate, evaluate, Text.trim, Text.trim, Text.trimStart, List.dropWhile_cons_of_pos hc]
  rfl

end Expr

namespace Statement

open Text (Ends ends_cons isBlank isWord append_inj_of_ends isWord_dollar)

/-! ### Declarations -/

/-- The statement that declares a variable with the value of an expression. -/
def declaring (name expr : String) : String := "let " ++ name ++ " = " ++ expr

theorem toList_declaring (name expr : String) : (declaring name expr).toList =
    "let".toList ++ ([' '] ++ (name.toList ++ ([' '] ++ '=' :: ' ' :: expr.toList))) := by
  simp [declaring]

theorem isBlank_space : ∀ c ∈ [' '], isBlank c = true := List.all_eq_true.mp (by decide)

theorem ends_isWord_space (rest : List Char) : Ends isWord ([' '] ++ rest) :=
  ends_isWord_of_blank isBlank_space (List.cons_ne_nil ' ' []) rest

/-- The keyword of `declaring`, a blank and a name. -/
def Declarator.ofWord (w : Word) : Declarator where
  keyword := "let".toList
  gap := [' ']
  name := w
  known := by decide
  apart := List.cons_ne_nil ' ' []
  blank := isBlank_space

/-- A name of the grammar without a dollar sign is a word. -/
theorem exists_word (hname : Expr.IsName name.toList) (hdollar : '$' ∉ name.toList) :
    ∃ w : Word, w.chars = name.toList := by
  obtain ⟨c, cs, hcs, -⟩ := hname.first
  have hne : name.toList ≠ [] := by
    rw [hcs]
    exact List.cons_ne_nil c cs
  have hwords : ∀ c ∈ name.toList, isWord c = true := fun c hc =>
    Text.isWord_of_isNameChar (hname.all c hc) fun h => hdollar (h ▸ hc)
  exact ⟨⟨name.toList, hne, hwords⟩, rfl⟩

/-- A declaration under a name without a dollar sign. -/
theorem classify_declaring (hname : Expr.IsName name.toList) (hdollar : '$' ∉ name.toList)
    (expr : String) :
    classify (declaring name expr) = .declare name (String.ofList (' ' :: expr.toList)) := by
  obtain ⟨w, hw⟩ := exists_word hname hdollar
  have htext : (Declarator.ofWord w).text ++ ([' '] ++ '=' :: ' ' :: expr.toList) =
      (declaring name expr).toList := by
    rw [Declarator.text_append, toList_declaring, ← hw]
    rfl
  have hclassify : classify (declaring name expr) = _ := classify_of_text
    (a := ⟨.declared (.ofWord w), [' '], ' ' :: expr.toList, isBlank_space, List.cons_ne_nil _ _,
      by simp⟩) htext
  have hword : w.text = name := by
    rw [Word.text, hw, String.ofList_toList]
  rw [hclassify, ← hword]
  rfl

theorem isWord_let : ∀ c ∈ "let".toList, isWord c = true := isWord_of_mem_keywords (by decide)

/-- With a dollar sign in the name, no equals sign follows the word behind the keyword: that word
ends before the dollar sign. -/
theorem Declarator.text_append_ne_declaring {gap : List Char} (d : Declarator)
    (hname : Expr.IsName name.toList) (hdollar : '$' ∈ name.toList)
    (hgap : ∀ c ∈ gap, isBlank c = true) (value : List Char) (expr : String) :
    d.text ++ (gap ++ '=' :: value) ≠ (declaring name expr).toList := by
  intro h
  rw [d.text_append, toList_declaring] at h
  obtain ⟨-, h⟩ := append_inj_of_ends (isWord_of_mem_keywords d.known)
    (ends_isWord_of_blank d.blank d.apart _) isWord_let (ends_isWord_space _) h
  obtain ⟨-, h⟩ := append_inj_of_ends d.blank (d.name.ends_isBlank _) isBlank_space
    (hname.ends_isBlank _) h
  obtain ⟨before, behind, hsplit, hbefore⟩ := hname.exists_dollar hdollar
  rw [hsplit, List.append_assoc, List.cons_append] at h
  obtain ⟨-, h⟩ := append_inj_of_ends d.name.words (ends_isWord_of_equals hgap value) hbefore
    (ends_cons isWord_dollar _) h
  exact equals_ne hgap (by decide) (by decide) _ _ h

/-- With a dollar sign in the name, the text is no assignment. Nor is it one to a variable with the
name of the keyword, since no equals sign follows the keyword. -/
theorem Assignment.text_ne_declaring (a : Assignment) (hname : Expr.IsName name.toList)
    (hdollar : '$' ∈ name.toList) (expr : String) : a.text ≠ (declaring name expr).toList := by
  intro h
  rw [text] at h
  cases htarget : a.target with
  | declared d =>
    rw [htarget] at h
    exact d.text_append_ne_declaring hname hdollar a.blank a.value expr h
  | plain w =>
    rw [htarget, Target.text, toList_declaring] at h
    obtain ⟨-, h⟩ := append_inj_of_ends w.words (ends_isWord_of_equals a.blank a.value) isWord_let
      (ends_isWord_space _) h
    obtain ⟨-, h⟩ := append_inj_of_ends a.blank (ends_cons isBlank_equals a.value) isBlank_space
      (hname.ends_isBlank _) h
    obtain ⟨c, cs, hcs, hc⟩ := hname.first
    rw [hcs] at h
    obtain ⟨rfl, -⟩ := List.cons.inj h
    exact absurd hc (by decide)
  | field o f =>
    rw [htarget, Target.field_append, toList_declaring] at h
    obtain ⟨-, h⟩ := append_inj_of_ends o.words (ends_cons isWord_point _) isWord_let
      (ends_isWord_space _) h
    cases h

/-- A declaration under a name with a dollar sign is an expression as a whole. -/
theorem classify_declaring_dollar (hname : Expr.IsName name.toList) (hdollar : '$' ∈ name.toList)
    (expr : String) : classify (declaring name expr) = .expression (declaring name expr) := by
  refine classify_eq_expression_iff.mpr
    ⟨rfl, fun a => a.text_ne_declaring hname hdollar expr, ?_⟩
  rintro ⟨rest, h, -⟩
  rw [toList_declaring] at h
  cases h

/-- **A declared variable is read back**: under a name of the grammar that has no dollar sign in it,
a declaration binds the value of its expression and touches no other variable, and the name has that
value afterwards. With a dollar sign in its name, a declaration is not one: it is an expression and
binds nothing. -/
theorem declared_reads_back (env : Environment) (expr : String) (hname : Expr.IsName name.toList)
    (hfree : Expr.Keyword.ofName? name = none) :
    ('$' ∉ name.toList → ∃ after, exec env (classify (declaring name expr)) = .wrote after ∧
        after.get? name = some (Expr.evaluate env expr.toList) ∧
        (∀ other, other ≠ name → after.get? other = env.get? other) ∧
        Expr.evaluate after name.toList = Expr.evaluate env expr.toList) ∧
      ('$' ∈ name.toList → exec env (classify (declaring name expr)) =
        .value (Expr.evaluate env (declaring name expr).toList)) := by
  constructor
  · intro hdollar
    have hvalue : Expr.evaluate env (String.ofList (' ' :: expr.toList)).toList =
        Expr.evaluate env expr.toList := by
      rw [String.toList_ofList]
      exact Expr.evaluate_cons (by decide) expr.toList
    have hget : (env.set name (Expr.evaluate env expr.toList)).get? name =
        some (Expr.evaluate env expr.toList) := by
      rw [Environment.get?_set, if_pos rfl]
    refine ⟨env.set name (Expr.evaluate env expr.toList), ?_, hget, fun other hother => ?_,
      Expr.evaluate_of_isName hname hfree hget⟩
    · rw [classify_declaring hname hdollar, exec, hvalue]
    · rw [Environment.get?_set, if_neg hother]
  · intro hdollar
    rw [classify_declaring_dollar hname hdollar, exec]

/-- A variable whose name starts with a keyword of the grammar. -/
theorem declared_reads_back_word :
    Expr.IsName "null_2".toList ∧ Expr.Keyword.ofName? "null_2" = none ∧ '$' ∉ "null_2".toList ∧
      ∃ after, exec {} (classify (declaring "null_2" "[true]")) = .wrote after ∧
        after.get? "null_2" = some (Expr.evaluate {} "[true]".toList) ∧
        (∀ other, other ≠ "null_2" → after.get? other = ({} : Environment).get? other) ∧
        Expr.evaluate after "null_2".toList = Expr.evaluate {} "[true]".toList := by
  have hname : Expr.IsName "null_2".toList :=
    ⟨⟨_, _, rfl, by decide⟩, List.all_eq_true.mp (by decide)⟩
  have hfree : Expr.Keyword.ofName? "null_2" = none := by decide
  have hdollar : '$' ∉ "null_2".toList := by decide
  exact ⟨hname, hfree, hdollar, (declared_reads_back {} "[true]" hname hfree).1 hdollar⟩

/-- A name of the grammar under which nothing can be declared. -/
theorem declared_dollar_lost :
    Expr.IsName "$x".toList ∧ Expr.Keyword.ofName? "$x" = none ∧
      Expr.parse "true".toList = .ok (.bool true) ∧
      ∀ after, exec {} (classify "let $x = true") ≠ .wrote after := by
  have hname : Expr.IsName "$x".toList :=
    ⟨⟨_, _, rfl, by decide⟩, List.all_eq_true.mp (by decide)⟩
  have hclassify : classify "let $x = true" = .expression "let $x = true" :=
    classify_declaring_dollar hname (by decide) "true"
  refine ⟨hname, by decide, by cbv, fun after h => ?_⟩
  rw [hclassify] at h
  cases h

end Statement

end Resumable
