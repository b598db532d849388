import Resumable.Proofs.Expr.Rendering
import Resumable.Proofs.Source.Pieces

/-!
# Expressions are not cut

Two readers look at the text of an expression. The scanner takes one character after the other and
knows only how many brackets are open and whether it stands in a string; the grammar finds the whole
structure. They agree: brackets are open for the scanner where the grammar has opened them, and a
separator of the grammar stands in a string or between brackets, where the scanner does not cut.

## The model

* `Token.Covers`: no text that spells tokens shows a separator, if the scanner comes to it at some
  depth or deeper. A comma between members is covered from depth one on only.

## What is proved

* `Fits.covers`: the tokens of a phrase are covered from the top level on.
* `scanner_agrees_with_grammar`: the depth of a text is that of its phrase, and texts of phrases that
  are joined by semicolons, or by commas, are cut into these texts again.
-/

namespace Resumable

namespace Source

variable {separator q : Char} {s : Scanner} {cs : List Char}

/-- Inside a string nothing is exposed until its quote comes again. -/
theorem uncut_inside (h : q ∉ cs) :
    Uncut separator { s with quote := some q } (cs ++ [q]) := by
  have hidden : ∀ c, ¬ (({ s with quote := some q } : Scanner).exposes c = true ∧
      c = separator) := by
    intro c hc
    simp [Scanner.exposes] at hc
  induction cs with
  | nil => exact uncut_cons_iff.mpr ⟨hidden q, uncut_nil⟩
  | cons c cs ih =>
    rw [List.mem_cons, not_or] at h
    have hstep : ({ s with quote := some q } : Scanner).step c = { s with quote := some q } := by
      simp [Scanner.step, Ne.symm h.1]
    refine uncut_cons_iff.mpr ⟨hidden c, ?_⟩
    rw [hstep]
    exact ih h.2

theorem uncut_string (hs : s.quote = none) (hq : isQuote q = true) (h : q ∉ cs) :
    Uncut separator s (q :: (cs ++ [q])) := by
  have hstep : s.step q = { s with quote := some q } := by simp [Scanner.step, hs, hq]
  refine uncut_cons_iff.mpr ⟨fun hc => ?_, ?_⟩
  · simp [Scanner.exposes, hq] at hc
  · rw [hstep]
    exact uncut_inside h

/-- Where a bracket is open, a character that is no bracket is not exposed. -/
theorem not_exposes (hs : s.quote = none) (hdepth : 1 ≤ s.depth) {c : Char}
    (hc : isPlain c = true) : ¬ s.exposes c = true := by
  intro hexposes
  rw [Scanner.exposes, Scanner.step_of_isPlain hs hc] at hexposes
  simp only [Bool.and_eq_true, Scanner.isTop, beq_iff_eq] at hexposes
  simp only [Scanner.depth] at hdepth
  omega

end Source

namespace Expr

open Source (Uncut Scanner uncut_nil uncut_cons_iff uncut_append_iff uncut_of_not_mem)

variable {separator : Char} {cs blanks w : List Char}

namespace Token

variable {t : Token} {ts us : List Token} {least : Int}

/-- Tokens are covered from a depth on: the scanner is where it was behind every text that spells
them, and the text shows no separator. -/
structure Covers (separator : Char) (least : Int) (ts : List Token) : Prop where
  /-- Their texts nest to some depth and come back. -/
  returns : ∃ n, Nest ts n
  /-- Their texts show no separator. -/
  uncut : ∀ cs, Spelled ts cs → ∀ s : Scanner, s.quote = none → least ≤ s.depth →
    Uncut separator s cs

theorem Covers.mono {more : Int} (h : Covers separator least ts) (hle : least ≤ more) :
    Covers separator more ts where
  returns := h.returns
  uncut cs hcs s hs hdepth := h.uncut cs hcs s hs (Int.le_trans hle hdepth)

theorem Covers.append (hts : Covers separator least ts) (hus : Covers separator least us) :
    Covers separator least (ts ++ us) := by
  obtain ⟨n, hn⟩ := hts.returns
  obtain ⟨k, hk⟩ := hus.returns
  refine ⟨⟨max n k, hn.append hk⟩, fun cs h s hs hdepth => ?_⟩
  obtain ⟨cs₁, cs₂, rfl, h₁, h₂⟩ := h.append_inv
  refine uncut_append_iff.mpr ⟨hts.uncut cs₁ h₁ s hs hdepth, ?_⟩
  rw [(hn cs₁ h₁ s hs).1]
  exact hus.uncut cs₂ h₂ s hs hdepth

variable (hsep : separator = ';' ∨ separator = ',')

include hsep

theorem not_mem_blanks (hblanks : ∀ c ∈ blanks, isSpace c = true) : separator ∉ blanks := by
  intro hmem
  have hspace := hblanks separator hmem
  rcases hsep with rfl | rfl <;> exact absurd hspace (by decide)

/-- No name has a separator in it. -/
theorem not_isNameChar_separator : isNameChar separator = false := by
  rcases hsep with rfl | rfl <;> decide

/-- A token that is no bracket shows no separator; as a comma it needs an open bracket for that. -/
theorem Spells.uncut (h : Spells t w) (ht : t.isBracket = false) {s : Scanner}
    (hs : s.quote = none) (hcomma : t = .comma → 1 ≤ s.depth) : Uncut separator s w := by
  have hname := not_isNameChar_separator hsep
  cases h with
  | @name c cs first others =>
    refine uncut_of_not_mem fun hmem => ?_
    rcases List.mem_cons.mp hmem with rfl | hmem
    · simp [isNameChar_of_isNameStart first] at hname
    · simp [others separator hmem] at hname
  | number numeral =>
    refine uncut_of_not_mem fun hmem => ?_
    rcases isNameChar_of_writes numeral separator hmem with hchar | rfl | rfl | rfl
    · simp [hchar] at hname
    all_goals simp at hsep
  | text isQuote apart => exact Source.uncut_string hs isQuote apart
  | op o => rcases hsep with rfl | rfl <;> cases o <;> exact uncut_of_not_mem (by decide)
  | bang | dot | colon => rcases hsep with rfl | rfl <;> exact uncut_of_not_mem (by decide)
  | comma =>
    refine uncut_cons_iff.mpr ⟨fun hcut => ?_, uncut_nil⟩
    exact Source.not_exposes hs (hcomma rfl) (by decide) hcut.1
  | opening | closing => simp [isBracket] at ht

theorem covers_nil : Covers separator least [] where
  returns := ⟨0, nest_nil⟩
  uncut := by
    rintro cs (hblanks | _) s - -
    exact uncut_of_not_mem (not_mem_blanks hsep hblanks)

theorem Covers.cons (ht : t.isBracket = false) (hcomma : t = .comma → 1 ≤ least)
    (hts : Covers separator least ts) : Covers separator least (t :: ts) := by
  obtain ⟨n, hn⟩ := hts.returns
  refine ⟨⟨n, hn.cons ht⟩, fun cs h s hs hdepth => ?_⟩
  cases h with
  | @token _ _ blanks w rest hblanks spells others =>
    have hblank := (nests_blanks hblanks s hs).1
    have hspelling := (spells.nests ht s hs).1
    rw [uncut_append_iff, uncut_append_iff, hblank, hspelling]
    refine ⟨uncut_of_not_mem (not_mem_blanks hsep hblanks), ?_, hts.uncut rest others s hs hdepth⟩
    exact spells.uncut hsep ht hs fun hc => Int.le_trans (hcomma hc) hdepth

/-- Between brackets commas are covered too. -/
theorem Covers.bracketed (b : Bracket) (hts : Covers separator 1 ts) :
    Covers separator 0 (.opening b :: (ts ++ [.closing b])) := by
  obtain ⟨n, hn⟩ := hts.returns
  refine ⟨⟨n + 1, hn.bracketed b⟩, fun cs h s hs hdepth => ?_⟩
  have hbracket : separator ≠ b.left ∧ separator ≠ b.right := by
    rcases hsep with rfl | rfl <;> cases b <;> decide
  cases h with
  | token hblanks spells others =>
    cases spells
    obtain ⟨cs₁, cs₂, rfl, h₁, h₂⟩ := others.append_inv
    obtain ⟨hquote, hdeeper, -⟩ := b.step_left hs
    have hclosing : separator ∉ cs₂ := by
      cases h₂ with
      | @token _ _ blanks w rest hblanks' spells' others' =>
        cases spells'
        obtain ⟨hrest⟩ := others'
        simp only [List.mem_append, List.mem_singleton, not_or]
        exact ⟨not_mem_blanks hsep hblanks', hbracket.2, not_mem_blanks hsep hrest⟩
    -- The scanner passes the blanks, goes one level deeper and stands before the members.
    rw [uncut_append_iff, (nests_blanks hblanks s hs).1, List.singleton_append, uncut_cons_iff,
      uncut_append_iff]
    refine ⟨uncut_of_not_mem (not_mem_blanks hsep hblanks), fun hcut => hbracket.1 hcut.2.symm, ?_,
      uncut_of_not_mem hclosing⟩
    exact hts.uncut cs₁ h₁ _ hquote (by omega)

end Token

namespace Phrase

open Token (Covers covers_nil)

variable {α : Type} {write : α → List Token} {p : Phrase}
  (hsep : separator = ';' ∨ separator = ',')

include hsep

theorem covers_intercalate {as : List α} (h : ∀ a ∈ as, Covers separator 1 (write a)) :
    Covers separator 1 ([.comma].intercalate (as.map write)) := by
  induction as with
  | nil => exact covers_nil hsep
  | cons a as ih =>
    have ha := h a (List.mem_cons_self ..)
    have has := ih fun b hb => h b (List.mem_cons_of_mem _ hb)
    cases as with
    | nil => simpa [List.intercalate] using ha
    | cons b as =>
      have hcomma := has.cons hsep (t := .comma) rfl fun _ => Int.le_refl _
      simpa [List.intercalate] using ha.append hcomma

theorem covers_listed {as : List α} (b : Bracket) (trailing : Bool)
    (h : ∀ a ∈ as, Covers separator 0 (write a)) :
    Covers separator 0 (.opening b :: listed b (as.map write) trailing) := by
  have hmembers : Covers separator 1 ([.comma].intercalate (as.map write)) :=
    covers_intercalate hsep fun a ha => (h a ha).mono (by decide)
  have hcomma : Covers separator 1 (if trailing then [Token.comma] else []) := by
    cases trailing with
    | true => exact (covers_nil hsep).cons hsep rfl fun _ => Int.le_refl _
    | false => exact covers_nil hsep
  have := (hmembers.append hcomma).bracketed hsep b
  rwa [List.append_assoc] at this

/-- The tokens of a phrase are covered from the top level on. -/
theorem Fits.covers (h : Fits p) : Covers separator 0 p.tokens := by
  -- Only commas ask for an open bracket, and no phrase has one outside its brackets.
  have plain : ∀ {t : Token} {ts : List Token}, t.isBracket = false → t ≠ .comma →
      Covers separator 0 ts → Covers separator 0 (t :: ts) :=
    fun ht hne hts => hts.cons hsep ht fun hc => absurd hc hne
  induction h with
  | keyword | number | text | name => exact plain rfl (by simp) (covers_nil hsep)
  | group inner ih => exact (ih.mono (by decide)).bracketed hsep .round
  | @object props trailing values last ih =>
    rw [tokens, propTokens_eq_map]
    refine covers_listed hsep .curly trailing fun kp hkp => ?_
    have hvalue := plain (t := .colon) rfl (by simp) (ih kp hkp)
    obtain ⟨k, p⟩ := kp
    cases k <;> exact plain rfl (by simp [Key.token]) hvalue
  | @array items trailing values last ih =>
    rw [tokens, itemTokens_eq_map]
    exact covers_listed hsep .square trailing ih
  | @member p n base tight ih =>
    exact ih.append (plain rfl (by simp) (plain rfl (by simp) (covers_nil hsep)))
  | index base tight subscript ihp ihi =>
    exact ihp.append ((ihi.mono (by decide)).bracketed hsep .square)
  | @unary op p operand tight ih => cases op <;> exact plain rfl (by simp [UnaryOp.token]) ih
  | binary left right leftTight rightTight ihl ihr => exact ihl.append (plain rfl (by simp) ihr)

/-- The text of a phrase shows no separator and leaves the scanner at its start. -/
theorem uncut_of_ofText? (h : ofText? cs = some p) :
    Uncut separator {} cs ∧ ({} : Scanner).run cs = {} := by
  obtain ⟨hfits, hspelled⟩ := ofText?_eq_some_iff.mp h
  have hdepth : (0 : Int) ≤ ({} : Scanner).depth := by decide
  exact ⟨(hfits.covers hsep).uncut cs hspelled {} rfl hdepth, (hfits.nest cs hspelled {} rfl).1⟩

end Phrase

/-- **Scanner and grammar agree**: a text that is a phrase nests, for the scanner, as deep as brackets
are open at once in the phrase, and texts of phrases that are joined by semicolons, or by commas, are
cut into these texts again. -/
theorem scanner_agrees_with_grammar :
    (∀ (cs : List Char) (p : Phrase), Phrase.ofText? cs = some p →
        Source.nestingDepth cs = p.nesting) ∧
      ∀ separator : Char, separator = ';' ∨ separator = ',' →
        ∀ texts : List (List Char), texts ≠ [] →
          (∀ cs ∈ texts, (Phrase.ofText? cs).isSome = true) →
            Source.pieces separator ([separator].intercalate texts) = texts := by
  constructor
  · intro cs p h
    obtain ⟨hfits, hspelled⟩ := Phrase.ofText?_eq_some_iff.mp h
    exact Phrase.nestingDepth_of_spelled hfits hspelled
  · intro separator hsep texts hne h
    have hexposes : ({} : Scanner).exposes separator = true := by
      rcases hsep with rfl | rfl <;> decide
    refine Source.pieces_intercalate hexposes hne fun cs hcs => ?_
    obtain ⟨p, hp⟩ := Option.isSome_iff_exists.mp (h cs hcs)
    exact Phrase.uncut_of_ofText? hsep hp

/-- A bracket, a quote and both separators in a string, and commas between brackets, are nothing to
either reader. -/
theorem scanner_agrees_with_grammar_quoted :
    (Phrase.ofText? "[a, '),;`']".toList).isSome = true ∧
      (Phrase.ofText? " -x[(y)] ".toList).map Phrase.nesting = some 2 ∧
      Source.nestingDepth " -x[(y)] ".toList = 2 ∧
      Source.pieces ',' "[a, '),;`'], -x[(y)] ".toList =
        ["[a, '),;`']".toList, " -x[(y)] ".toList] := by
  have harray : (Phrase.ofText? "[a, '),;`']".toList).isSome = true := by decide +kernel
  have hindex : (Phrase.ofText? " -x[(y)] ".toList).map Phrase.nesting = some 2 := by
    decide +kernel
  obtain ⟨p, hp, hnesting⟩ := Option.map_eq_some_iff.mp hindex
  refine ⟨harray, hindex, ?_, ?_⟩
  · rw [scanner_agrees_with_grammar.1 _ p hp, hnesting]
  · refine scanner_agrees_with_grammar.2 ',' (Or.inr rfl)
      ["[a, '),;`']".toList, " -x[(y)] ".toList] (by simp) ?_
    intro cs hcs
    rcases List.mem_pair.mp hcs with rfl | rfl
    · exact harray
    · rw [hp]; rfl

end Expr

end Resumable
