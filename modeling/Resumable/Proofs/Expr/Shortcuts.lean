import Mathlib
import Resumable.Expr.Eval
import Resumable.Proofs.Expr.Rendering

/-!
# Texts with a direct reading

Keywords, plain numerals, quoted strings, bound names and a field of a name are evaluated without
the grammar. This module compares that with what the grammar makes of the same texts.

## The model

* `Readable`: the names of all variables are names to the grammar.
* `Exponential`: a text is a numeral with a fraction and with an exponent that has no sign.

## What is proved

* `evaluate_of_evalText`: wherever the grammar gives a text a value, the direct reading gives the
  same one, but for exponential numerals: they look like a field of a name and come out absent.
-/

namespace Resumable

/-! ### Words and names -/

namespace Text

variable {c : Char}

/-- Up to the first letters beyond the basic ones, words are of digits, letters and underscores. -/
theorem isWord_iff (hc : c.toNat < 0xaa) : isWord c = true ↔
    (0x30 ≤ c.toNat ∧ c.toNat ≤ 0x39) ∨ (0x41 ≤ c.toNat ∧ c.toNat ≤ 0x5a) ∨ c.toNat = 0x5f ∨
      (0x61 ≤ c.toNat ∧ c.toNat ≤ 0x7a) := by
  have hlow : wordRanges.take 4 = [(0x30, 0x39), (0x41, 0x5a), (0x5f, 0x5f), (0x61, 0x7a)] := rfl
  have hhigh : ∀ r ∈ wordRanges.drop 4, 0xaa ≤ r.1 := by decide +kernel
  have hbeyond : CodeRanges.has (wordRanges.drop 4) c = false := by
    refine List.any_eq_false.mpr fun r hr => ?_
    have := hhigh r hr
    simp only [Bool.and_eq_true, decide_eq_true_eq]
    omega
  have hsplit : isWord c = (CodeRanges.has (wordRanges.take 4) c ||
      CodeRanges.has (wordRanges.drop 4) c) := by
    rw [isWord, CodeRanges.has, CodeRanges.has, CodeRanges.has, ← List.any_append,
      List.take_append_drop]
  rw [hsplit, hbeyond, hlow]
  simp only [CodeRanges.has, List.any_cons, List.any_nil, Bool.or_false, Bool.or_eq_true,
    Bool.and_eq_true, decide_eq_true_eq]
  omega

theorem isWord_of_isDigit (h : Decimal.isDigit c = true) : isWord c = true := by
  simp only [Decimal.isDigit, Bool.and_eq_true, decide_eq_true_eq, Char.le_def,
    UInt32.le_iff_toNat_le, Char.reduceVal, UInt32.reduceToNat] at h
  have hnat : c.val.toNat = c.toNat := rfl
  exact (isWord_iff (by omega)).mpr (by omega)

/-- Of the basic characters, those of words may stand in names. -/
theorem isNameChar_of_isWord (h : isWord c = true) (hc : c.toNat < 0xaa) :
    Expr.isNameChar c = true := by
  have hword := (isWord_iff hc).mp h
  have hnat : c.val.toNat = c.toNat := rfl
  simp only [Expr.isNameChar, Expr.isNameStart, Decimal.isDigit, Bool.or_eq_true, Bool.and_eq_true,
    decide_eq_true_eq, beq_iff_eq, Char.le_def, Char.ext_iff, UInt32.le_iff_toNat_le,
    ← UInt32.toNat_inj, Char.reduceVal, UInt32.reduceToNat]
  omega

end Text

namespace Expr

open Token (Spells Spelled)
open Phrase (Fits)

variable {cs b f w : List Char} {p : Phrase} {env : Environment} {v : Value} {t : Token}
  {ts : List Token}

/-- A text is a name to the grammar. -/
structure IsName (cs : List Char) : Prop where
  /-- It has a first character, which may start a name. -/
  first : ∃ c ds, cs = c :: ds ∧ isNameStart c = true
  /-- All its characters may stand in a name. -/
  all : ∀ c ∈ cs, isNameChar c = true

/-- Every variable is named as the grammar names variables. -/
def Readable (env : Environment) : Prop :=
  ∀ n ∈ env.names, IsName n.toList ∧ Keyword.ofName? n = none

/-! ### Texts and their phrases -/

/-- A text spells at most one phrase. -/
theorem Phrase.eq_of_spelled {q : Phrase} (hp : Fits p) (hps : Spelled p.tokens cs) (hq : Fits q)
    (hqs : Spelled q.tokens cs) : p = q := by
  have := ofText?_eq_some_iff.mpr ⟨hp, hps⟩
  rw [ofText?_eq_some_iff.mpr ⟨hq, hqs⟩] at this
  exact (Option.some.inj this).symm

/-- A text with a value spells a phrase with that value. -/
theorem exists_phrase_of_evalText (h : evalText env cs = .ok v) :
    ∃ p : Phrase, Fits p ∧ Spelled p.tokens cs ∧ p.toExpr.eval env = .ok v := by
  unfold evalText at h
  split at h
  · rename_i e he
    obtain ⟨p, hread, rfl⟩ := exists_phrase_of_parse he
    obtain ⟨hfits, hspelled, -⟩ := readPhrase_eq_ok_iff.mp hread
    exact ⟨p, hfits, hspelled, h⟩
  · cases h

theorem Token.Spells.spelled_cons {rest : List Char} (h : Spells t w) (hts : Spelled ts rest) :
    Spelled (t :: ts) (w ++ rest) :=
  Spelled.token (fun _ hc => absurd hc List.not_mem_nil) h hts

theorem Token.Spells.spelled (h : Spells t w) : Spelled [t] w := by
  have := h.spelled_cons (.done fun _ hc => absurd hc List.not_mem_nil)
  rwa [List.append_nil] at this

theorem IsName.spelled (h : IsName cs) : Spelled [.name (String.ofList cs)] cs := by
  obtain ⟨⟨c, ds, rfl, hc⟩, hall⟩ := h
  exact (Spells.name hc fun d hd => hall d (List.mem_cons_of_mem _ hd)).spelled

/-! ### Keywords, literals and bound names -/

theorem Keyword.isName (k : Keyword) : IsName k.word.toList := by
  cases k <;> exact ⟨⟨_, _, rfl, by decide⟩, List.all_eq_true.mp (by decide)⟩

/-- The value of a keyword. -/
def Keyword.value : Keyword → Value
  | .true => .bool Bool.true
  | .false => .bool Bool.false
  | .null => .null
  | .undefined => .undefined

theorem eval_keyword (k : Keyword) : (Phrase.keyword k).toExpr.eval env = .ok k.value := by
  cases k <;> rfl

theorem neg_toDouble (d : Decimal) : (d.toDouble false).neg = d.toDouble true := by
  unfold Decimal.toDouble Double.ofRank
  split <;> rfl

/-- A plain numeral, with or without a minus sign, is a number to the grammar. -/
theorem exists_phrase_of_numberLiteral? {x : Double} (h : numberLiteral? cs = some x) :
    ∃ p : Phrase, Fits p ∧ Spelled p.tokens cs ∧ p.toExpr.eval env = .ok (.num x) := by
  have ofWrites : ∀ {w : List Char} {d : Decimal} {negative : Bool}, Decimal.Writes w d →
      cs = (if negative then '-' :: w else w) → x = d.toDouble negative →
      ∃ p : Phrase, Fits p ∧ Spelled p.tokens cs ∧ p.toExpr.eval env = .ok (.num x) := by
    intro w d negative hw hcs hx
    subst hcs hx
    cases negative with
    | false => exact ⟨.number (d.toDouble false), .number _, (Spells.number hw).spelled, rfl⟩
    | true =>
      refine ⟨.unary .neg (.number (d.toDouble false)), .unary (.number _) (Nat.le_succ 7), ?_, ?_⟩
      · exact (Spells.op .sub).spelled_cons (Spells.number hw).spelled
      · rw [← neg_toDouble]
        rfl
  unfold numberLiteral? at h
  split at h
  rename_i negative digits hsign
  have hcs : cs = if negative then '-' :: digits else digits := by
    split at hsign <;> obtain ⟨rfl, rfl⟩ := Prod.mk.inj hsign <;> rfl
  split at h
  · simp at h
  · rename_i whole hne hspan
    cases h
    obtain ⟨rfl, hrun, -⟩ := Decimal.of_spanDigits hspan hne
    refine ofWrites (.mk hrun .none .none) ?_ rfl
    rw [hcs]
    simp
  · rename_i whole rest hne hspan
    obtain ⟨rfl, hrun, -⟩ := Decimal.of_spanDigits hspan hne
    split at h
    · simp at h
    · rename_i fraction hne' hspan'
      cases h
      obtain ⟨rfl, hrun', -⟩ := Decimal.of_spanDigits hspan' hne'
      refine ofWrites (.mk hrun (.point hrun') .none) ?_ rfl
      rw [hcs]
      simp
    · simp at h
  · simp at h

theorem of_enclosedBy? {quote : Char} {content : List Char}
    (h : enclosedBy? quote cs = some content) :
    cs = quote :: (content ++ [quote]) ∧ quote ∉ content := by
  unfold enclosedBy? at h
  split at h
  · rename_i c rest
    split at h
    · rename_i hc
      split at h
      · rename_i content' d hspan
        cases h
        obtain ⟨rfl, hall, hends⟩ := Text.of_span hspan
        obtain rfl : d = quote := by simpa using hends.head
        refine ⟨by rw [hc], fun hmem => ?_⟩
        simpa using hall d hmem
      · simp at h
    · simp at h
  · simp at h

theorem of_stringLiteral? {s : String} (h : stringLiteral? cs = some s) :
    ∃ quote content, Source.isQuote quote = true ∧ cs = quote :: (content ++ [quote]) ∧
      quote ∉ content ∧ s = String.ofList content := by
  obtain ⟨content, hcontent, rfl⟩ := Option.map_eq_some_iff.mp h
  rcases Option.or_eq_some_iff.mp hcontent with h | ⟨-, h⟩
  all_goals
    obtain ⟨hcs, hapart⟩ := of_enclosedBy? h
    exact ⟨_, content, by decide, hcs, hapart, rfl⟩

/-- A text in one pair of quotes is a string to the grammar. -/
theorem exists_phrase_of_stringLiteral? {s : String} (h : stringLiteral? cs = some s) :
    ∃ p : Phrase, Fits p ∧ Spelled p.tokens cs ∧ p.toExpr.eval env = .ok (.str s) := by
  obtain ⟨quote, content, hquote, rfl, hapart, rfl⟩ := of_stringLiteral? h
  exact ⟨.text quote (String.ofList content), .text _ _, (Spells.text hquote hapart).spelled, rfl⟩

/-- A bound name is a variable to the grammar. -/
theorem exists_phrase_of_get? (henv : Readable env) (h : env.get? (String.ofList cs) = some v) :
    ∃ p : Phrase, Fits p ∧ Spelled p.tokens cs ∧ p.toExpr.eval env = .ok v := by
  obtain ⟨hname, hfree⟩ := henv _ (Fields.mem_names_of_get? h)
  rw [String.toList_ofList] at hname
  refine ⟨.name (String.ofList cs), .name hfree, hname.spelled, ?_⟩
  simp [Phrase.toExpr, eval, evalWithin, evalNode, h]

/-! ### A word, a point and a word -/

theorem of_projection? {base field : String} (h : projection? cs = some (base, field)) :
    ∃ b f, cs = b ++ '.' :: f ∧ (∀ c ∈ b, Text.isWord c = true) ∧ (∀ c ∈ f, Text.isWord c = true) ∧
      base = String.ofList b ∧ field = String.ofList f := by
  unfold projection? at h
  split at h
  · simp at h
  · rename_i b rest hne hspan
    obtain ⟨rfl, hb, -⟩ := Text.of_span hspan
    split at h
    · simp at h
    · rename_i f hne' hspan'
      cases h
      obtain ⟨rfl, hf, -⟩ := Text.of_span hspan'
      exact ⟨b, f, by simp, hb, hf, rfl, rfl⟩
    · simp at h
  · simp at h

/-- All characters of a text are of words, or points. -/
def Dotted (cs : List Char) : Prop := ∀ c ∈ cs, Text.isWord c = true ∨ c = '.'

theorem dotted_append (hb : ∀ c ∈ b, Text.isWord c = true) (hf : ∀ c ∈ f, Text.isWord c = true) :
    Dotted (b ++ '.' :: f) := by
  intro c hc
  rcases List.mem_append.mp hc with hc | hc
  · exact .inl (hb c hc)
  rcases List.mem_cons.mp hc with rfl | hc
  · exact .inr rfl
  · exact .inl (hf c hc)

theorem Dotted.not_mem {c : Char} (h : Dotted cs) (hc : c.toNat < 0xaa)
    (hname : isNameChar c = false) (hne : c ≠ '.') : c ∉ cs := by
  intro hmem
  rcases h c hmem with hword | rfl
  · rw [Text.isNameChar_of_isWord hword hc] at hname
    simp at hname
  · exact hne rfl

theorem Dotted.not_isSpace (h : Dotted cs) : ∀ c ∈ cs, isSpace c = false := by
  intro c hc
  cases hspace : isSpace c with
  | false => rfl
  | true =>
    simp only [isSpace, Bool.or_eq_true, beq_iff_eq] at hspace
    rcases hspace with ((rfl | rfl) | rfl) | rfl <;>
      exact absurd hc (h.not_mem (by decide) (by decide) (by decide))

/-- In such a text there are only names, numbers and points. -/
theorem Dotted.kind (h : Dotted w) (ht : Spells t w) : t.isWord = true ∨ t = .dot ∧ '.' ∈ w := by
  cases ht with
  | name | number => exact .inl rfl
  | dot => exact .inr ⟨rfl, by simp⟩
  | @text quote s isQuote apart =>
    rcases Source.isQuote_iff.mp isQuote with rfl | rfl | rfl <;>
      exact absurd (List.mem_cons_self ..) (h.not_mem (by decide) (by decide) (by decide))
  | op o =>
    cases o <;>
      exact absurd (List.mem_cons_self ..) (h.not_mem (by decide) (by decide) (by decide))
  | bang | comma | colon =>
    exact absurd (List.mem_cons_self ..) (h.not_mem (by decide) (by decide) (by decide))
  | opening b | closing b =>
    cases b <;>
      exact absurd (List.mem_cons_self ..) (h.not_mem (by decide) (by decide) (by decide))

theorem Dotted.kind_of_mem (h : Dotted cs) (hts : Spelled ts cs) :
    ∀ t ∈ ts, t.isWord = true ∨ t = .dot ∧ '.' ∈ cs := by
  induction hts with
  | done => simp
  | @token u ts blanks w rest hblanks spells others ih =>
    intro t ht
    rcases List.mem_cons.mp ht with rfl | ht
    · rcases Dotted.kind (fun c hc => h c (by simp [hc])) spells with hword | ⟨hdot, hmem⟩
      · exact .inl hword
      · exact .inr ⟨hdot, by simp [hmem]⟩
    · rcases ih (fun c hc => h c (by simp [hc])) t ht with hword | ⟨hdot, hmem⟩
      · exact .inl hword
      · exact .inr ⟨hdot, by simp [hmem]⟩

/-- Without blanks, the first token is spelled at the start. -/
theorem Dotted.cons_inv (h : Dotted cs) (hts : Spelled (t :: ts) cs) :
    ∃ w rest, cs = w ++ rest ∧ Spells t w ∧ Spelled ts rest := by
  cases hts with
  | @token _ _ blanks w rest hblanks spells others =>
    cases blanks with
    | nil => exact ⟨w, rest, rfl, spells, others⟩
    | cons c blanks =>
      have := h.not_isSpace c (by simp)
      rw [hblanks c (by simp)] at this
      simp at this

theorem Dotted.singleton_inv (h : Dotted cs) (hts : Spelled [t] cs) : Spells t cs := by
  obtain ⟨w, rest, rfl, spells, others⟩ := h.cons_inv hts
  cases others with
  | done hblanks =>
    cases rest with
    | nil => rwa [List.append_nil]
    | cons c rest =>
      have := h.not_isSpace c (by simp)
      rw [hblanks c (by simp)] at this
      simp at this

/-- A phrase of one token. -/
inductive Phrase.IsLeaf : Phrase → Prop where
  /-- A keyword. -/
  | keyword (k : Keyword) : IsLeaf (.keyword k)
  /-- A number. -/
  | number (x : Double) : IsLeaf (.number x)
  /-- A variable. -/
  | name (n : String) : IsLeaf (.name n)

/-- A phrase of names, numbers and points is one of them, or a property read. -/
theorem Phrase.isLeaf_or_member (h : ∀ t ∈ p.tokens, t.isWord = true ∨ t = .dot) :
    p.IsLeaf ∨ ∃ q n, p = .member q n := by
  have refuted : ∀ t, t ∈ p.tokens → t.isWord = false → t ≠ .dot → False := by
    intro t ht hword hdot
    rcases h t ht with h | h
    · rw [hword] at h
      simp at h
    · exact hdot h
  cases p with
  | keyword k => exact .inl (.keyword k)
  | number x => exact .inl (.number x)
  | name n => exact .inl (.name n)
  | member q n => exact .inr ⟨q, n, rfl⟩
  | text quote s => exact (refuted (.text quote s) (by simp [tokens]) rfl (by simp)).elim
  | group p => exact (refuted (.opening .round) (by simp [tokens]) rfl (by simp)).elim
  | object props => exact (refuted (.opening .curly) (by simp [tokens]) rfl (by simp)).elim
  | array items => exact (refuted (.opening .square) (by simp [tokens]) rfl (by simp)).elim
  | index p i => exact (refuted (.opening .square) (by simp [tokens]) rfl (by simp)).elim
  | unary op p =>
    exact (refuted op.token (by simp [tokens]) (by cases op <;> rfl)
      (by cases op <;> simp [UnaryOp.token])).elim
  | binary op l r => exact (refuted (.op op) (by simp [tokens]) rfl (by simp)).elim

theorem not_mem_of_isName (h : IsName cs) : '.' ∉ cs := by
  intro hmem
  exact absurd (h.all _ hmem) (by decide)

theorem not_mem_of_isWord (h : ∀ c ∈ cs, Text.isWord c = true) : '.' ∉ cs := by
  intro hmem
  exact absurd (Text.isNameChar_of_isWord (h _ hmem) (by decide)) (by decide)

theorem isName_of_spells {n : String} (h : Spells (.name n) cs) :
    IsName cs ∧ n = String.ofList cs := by
  cases h with
  | @name c cs first others =>
    refine ⟨⟨⟨c, cs, rfl, first⟩, fun d hd => ?_⟩, rfl⟩
    rcases List.mem_cons.mp hd with rfl | hd
    · exact Token.isNameChar_of_isNameStart first
    · exact others d hd

/-- What the grammar can find in two words with a point between them: one number, or the second
word read as a property of the first, which is a name, a keyword or a number. -/
theorem of_spelled_dotted (hp : Fits p) (hs : Spelled p.tokens (b ++ '.' :: f))
    (hb : ∀ c ∈ b, Text.isWord c = true) (hf : ∀ c ∈ f, Text.isWord c = true) :
    (∃ x, p = .number x ∧ Spells (.number x) (b ++ '.' :: f)) ∨
      ∃ q : Phrase, p = .member q (String.ofList f) ∧ q.IsLeaf ∧ Spelled q.tokens b := by
  have hdotted := dotted_append hb hf
  have hkind : ∀ t ∈ p.tokens, t.isWord = true ∨ t = .dot := fun t ht =>
    (hdotted.kind_of_mem hs t ht).imp_right And.left
  rcases Phrase.isLeaf_or_member hkind with hleaf | ⟨q, n, rfl⟩
  · cases hleaf with
    | number x => exact .inl ⟨x, rfl, hdotted.singleton_inv hs⟩
    | keyword k =>
      exact absurd (by simp) (not_mem_of_isName (isName_of_spells (hdotted.singleton_inv hs)).1)
    | name n =>
      exact absurd (by simp) (not_mem_of_isName (isName_of_spells (hdotted.singleton_inv hs)).1)
  · right
    rw [Phrase.tokens] at hs
    obtain ⟨cs₁, cs₂, hcs, hq, hread⟩ := hs.append_inv
    have hdotted₁ : Dotted cs₁ := fun c hc => hdotted c (by rw [hcs]; simp [hc])
    have hdotted₂ : Dotted cs₂ := fun c hc => hdotted c (by rw [hcs]; simp [hc])
    obtain ⟨w, rest, rfl, spells, hfield⟩ := hdotted₂.cons_inv hread
    cases spells
    have hname := (show Dotted rest from fun c hc => hdotted₂ c (by simp [hc])).singleton_inv hfield
    obtain ⟨-, rfl⟩ := isName_of_spells hname
    -- There is one point in the text, so it is the token.
    obtain ⟨rfl, -, rfl⟩ := (List.append_cons_inj_of_notMem (not_mem_of_isWord hb)
      (not_mem_of_isWord hf)).mp hcs
    refine ⟨q, rfl, ?_, hq⟩
    have hkind' : ∀ t ∈ q.tokens, t.isWord = true := fun t ht =>
      (hdotted₁.kind_of_mem hq t ht).resolve_right fun h => not_mem_of_isWord hb h.2
    rcases Phrase.isLeaf_or_member fun t ht => .inl (hkind' t ht) with hleaf | ⟨q', n', rfl⟩
    · exact hleaf
    · exact absurd (hkind' .dot (by simp [Phrase.tokens])) (by decide)

/-! ### Exponential numerals -/

/-- A text is a numeral with a fraction and with an exponent that has no sign. -/
inductive Exponential : List Char → Prop where
  /-- The four parts follow each other. -/
  | mk {whole fraction exponent : List Char} {letter : Char} (hwhole : Decimal.IsRun whole)
      (hfraction : Decimal.IsRun fraction) (hletter : letter = 'e' ∨ letter = 'E')
      (hexponent : Decimal.IsRun exponent) :
      Exponential (whole ++ '.' :: (fraction ++ letter :: exponent))

theorem not_isName_of_run {whole : List Char} (h : Decimal.IsRun whole) (rest : List Char) :
    ¬ IsName (whole ++ rest) := by
  rintro ⟨⟨c, ds, hcs, hc⟩, -⟩
  obtain ⟨d, ds', rfl, hd⟩ := h.cons
  obtain ⟨rfl, -⟩ := List.cons.inj hcs
  rw [Token.isNameStart_of_isDigit hd] at hc
  simp at hc

theorem get?_eq_none (henv : Readable env) (h : ¬ IsName cs) :
    env.get? (String.ofList cs) = none := by
  cases hget : env.get? (String.ofList cs) with
  | none => rfl
  | some v =>
    have := (henv _ (Fields.mem_names_of_get? hget)).1
    rw [String.toList_ofList] at this
    exact absurd this h

theorem keyword_eq_none (h : ¬ IsName cs) : Keyword.ofName? (String.ofList cs) = none := by
  cases hk : Keyword.ofName? (String.ofList cs) with
  | none => rfl
  | some k =>
    have := k.isName
    rw [Keyword.word_of_ofName? hk, String.toList_ofList] at this
    exact absurd this h

/-- Digits, a point and digits are a plain numeral, and nothing that goes on is one. -/
theorem numberLiteral?_point {whole fraction rest : List Char} (hwhole : Decimal.IsRun whole)
    (hfraction : Decimal.IsRun fraction) (hrest : Decimal.EndsRun rest) :
    numberLiteral? (whole ++ '.' :: (fraction ++ rest)) =
      if rest = [] then some ((Decimal.ofParts whole fraction 0).toDouble false) else none := by
  have hspan := Decimal.spanDigits_append hwhole
    (Text.ends_cons (by decide) (fraction ++ rest) : Decimal.EndsRun ('.' :: (fraction ++ rest)))
  have hspan' := Decimal.spanDigits_append hfraction hrest
  obtain ⟨d, ds, rfl, hd⟩ := hwhole.cons
  obtain ⟨d', ds', rfl, -⟩ := hfraction.cons
  have hminus : d ≠ '-' := by rintro rfl; exact absurd hd (by decide)
  simp only [List.cons_append] at hspan hspan' ⊢
  cases rest with
  | nil =>
    rw [List.append_nil] at hspan hspan' ⊢
    simp [numberLiteral?, hminus, hspan, hspan']
  | cons c rest => simp [numberLiteral?, hminus, hspan, hspan']

theorem projection?_append (hb : ∀ c ∈ b, Text.isWord c = true) (hne : b ≠ [])
    (hf : ∀ c ∈ f, Text.isWord c = true) (hne' : f ≠ []) :
    projection? (b ++ '.' :: f) = some (String.ofList b, String.ofList f) := by
  have hpoint : Text.isWord '.' = false := by
    cases h : Text.isWord '.' with
    | false => rfl
    | true => exact absurd (Text.isNameChar_of_isWord h (by decide)) (by decide)
  have hspan : Text.spanWord (b ++ '.' :: f) = (b, '.' :: f) :=
    Text.span_append hb (Text.ends_cons hpoint f)
  have hspan' : Text.spanWord f = (f, []) := by
    have := Text.span_append hf Text.ends_nil
    rwa [List.append_nil] at this
  obtain ⟨c, b, rfl⟩ := List.exists_cons_of_ne_nil hne
  obtain ⟨c', f, rfl⟩ := List.exists_cons_of_ne_nil hne'
  simp only [projection?, hspan, hspan']

/-- What reads as one number although it is no plain numeral is an exponential one. -/
theorem exponential_of_spells {x : Double} (h : Spells (.number x) cs) (hcs : Dotted cs)
    (hpoint : '.' ∈ cs) (hplain : numberLiteral? cs = none) : Exponential cs := by
  cases h with
  | number numeral =>
    obtain ⟨hwhole, hfraction, hscaling⟩ := numeral
    have hdigits : ∀ {ds : List Char}, Decimal.IsRun ds → '.' ∉ ds := fun run hmem =>
      absurd (run.digits _ hmem) (by decide)
    have hletter : ∀ {c : Char}, c = 'e' ∨ c = 'E' → '.' ≠ c := by
      rintro c (rfl | rfl) <;> decide
    cases hfraction with
    | none =>
      rcases List.mem_append.mp hpoint with h | h
      · exact absurd h (hdigits hwhole)
      · cases hscaling with
        | none => simp at h
        | plain letter run => simp [hletter letter, hdigits run] at h
        | plus letter run | minus letter run => simp [hletter letter, hdigits run] at h
    | point run =>
      cases hscaling with
      | none =>
        rw [List.cons_append, numberLiteral?_point hwhole run Text.ends_nil] at hplain
        simp at hplain
      | plain letter exponent => exact .mk hwhole run letter exponent
      | plus => exact absurd (by simp) (hcs.not_mem (c := '+') (by decide) (by decide) (by decide))
      | minus => exact absurd (by simp) (hcs.not_mem (c := '-') (by decide) (by decide) (by decide))

/-- An exponential numeral is taken for a field of an unbound name. -/
theorem evaluateTrimmed_exponential (henv : Readable env) (h : Exponential cs) :
    evaluateTrimmed env cs = .undefined := by
  obtain ⟨hwhole, hfraction, hletter, hexponent⟩ := h
  rename_i whole fraction exponent letter
  have hnumber : numberLiteral? (whole ++ '.' :: (fraction ++ letter :: exponent)) = none := by
    rw [numberLiteral?_point hwhole hfraction
      (Text.ends_cons (Decimal.isDigit_letter hletter) exponent)]
    rfl
  have hstring : stringLiteral? (whole ++ '.' :: (fraction ++ letter :: exponent)) = none := by
    cases hs : stringLiteral? (whole ++ '.' :: (fraction ++ letter :: exponent)) with
    | none => rfl
    | some s =>
      obtain ⟨quote, content, hquote, hcs, -⟩ := of_stringLiteral? hs
      obtain ⟨d, ds, rfl, hd⟩ := hwhole.cons
      obtain ⟨rfl, -⟩ := List.cons.inj hcs
      have := (Token.not_isNameChar_of_isQuote hquote).1
      rw [Token.isNameChar_of_isDigit hd] at this
      simp at this
  have hproj : projection? (whole ++ '.' :: (fraction ++ letter :: exponent)) =
      some (String.ofList whole, String.ofList (fraction ++ letter :: exponent)) := by
    have hdigits : ∀ {ds : List Char}, Decimal.IsRun ds → ∀ c ∈ ds, Text.isWord c = true :=
      fun run c hc => Text.isWord_of_isDigit (run.digits c hc)
    refine projection?_append (hdigits hwhole) hwhole.nonempty (fun c hc => ?_) (by simp)
    rcases List.mem_append.mp hc with hc | hc
    · exact hdigits hfraction c hc
    rcases List.mem_cons.mp hc with rfl | hc
    · rcases hletter with rfl | rfl <;> exact (Text.isWord_iff (by decide)).mpr (by decide)
    · exact hdigits hexponent c hc
  have hbound := get?_eq_none henv (not_isName_of_run hwhole [])
  rw [List.append_nil] at hbound
  have hnone := not_isName_of_run hwhole ('.' :: (fraction ++ letter :: exponent))
  simp only [evaluateTrimmed, keyword_eq_none hnone, hnumber, hstring, get?_eq_none henv hnone,
    hproj, hbound]

/-! ### Direct and grammatical reading -/

/-- A property has a value if what it is read from has one. -/
theorem of_eval_member {e : Expr} {field : String} (h : eval env (.member e field) = .ok v) :
    ∃ u, evalWithin env maxDepth e = .ok u ∧ readProperty u field = .ok v := by
  have heq : eval env (.member e field) =
      evalWithin env maxDepth e >>= fun u => ofProperty (readProperty u field) := rfl
  rw [heq] at h
  cases hu : evalWithin env maxDepth e with
  | error err => rw [hu] at h; cases h
  | ok u =>
    refine ⟨u, rfl, ?_⟩
    have hread : ofProperty (readProperty u field) = .ok v := by rwa [hu] at h
    cases hproperty : readProperty u field with
    | error err => rw [hproperty] at hread; cases hread
    | ok w => rw [hproperty] at hread; cases hread; rfl

/-- A property of a name, a keyword or a number has the value that is read directly. -/
theorem readProperty_of_eval {q : Phrase} {field : String} (henv : Readable env)
    (hleaf : q.IsLeaf) (hspelled : Spelled q.tokens b) (hb : ∀ c ∈ b, Text.isWord c = true)
    (heval : (Phrase.member q field).toExpr.eval env = .ok v) :
    (match env.get? (String.ofList b) with
      | some u => (readProperty u field).toOption.getD .undefined
      | none => .undefined) = v := by
  have hdotted : Dotted b := fun c hc => .inl (hb c hc)
  rw [Phrase.toExpr] at heval
  obtain ⟨u, hu, hread⟩ := of_eval_member heval
  cases hleaf with
  | name n =>
    obtain ⟨-, rfl⟩ := isName_of_spells (hdotted.singleton_inv hspelled)
    have hget : env.get? (String.ofList b) = some u := by
      cases hget : env.get? (String.ofList b) with
      | none => simp [Phrase.toExpr, maxDepth, evalWithin, evalNode, hget] at hu
      | some u' => simpa [Phrase.toExpr, maxDepth, evalWithin, evalNode, hget] using hu
    rw [hget]
    simp only [hread, Except.toOption, Option.getD_some]
  | keyword k =>
    obtain ⟨-, hword⟩ := isName_of_spells (hdotted.singleton_inv hspelled)
    have hnone : env.get? (String.ofList b) = none := by
      cases hget : env.get? (String.ofList b) with
      | none => rfl
      | some u =>
        have := (henv _ (Fields.mem_names_of_get? hget)).2
        rw [← hword, Keyword.ofName?_word] at this
        simp at this
    rw [hnone]
    cases k <;> cases hu <;> cases hread <;> rfl
  | number x =>
    have hnone : env.get? (String.ofList b) = none := by
      refine get?_eq_none henv ?_
      cases hdotted.singleton_inv hspelled with
      | number numeral =>
        obtain ⟨hwhole, -, -⟩ := numeral
        exact not_isName_of_run hwhole _
    rw [hnone]
    cases hu
    cases hread
    rfl

/-- **The direct reading of a text agrees with the grammar** wherever the grammar gives a value, but
for exponential numerals: they are absent. -/
theorem evaluate_of_evalText (henv : Readable env) (h : evalText env (Text.trim cs) = .ok v) :
    (¬ Exponential (Text.trim cs) → evaluate env cs = v) ∧
      (Exponential (Text.trim cs) → evaluate env cs = .undefined) := by
  refine ⟨fun hplain => ?_, evaluateTrimmed_exponential henv⟩
  rw [evaluate]
  generalize Text.trim cs = cs at h hplain ⊢
  obtain ⟨p, hfits, hspelled, heval⟩ := exists_phrase_of_evalText h
  -- A phrase that the text spells is the one that the grammar finds.
  have agree : ∀ {u : Value},
      (∃ q : Phrase, Fits q ∧ Spelled q.tokens cs ∧ q.toExpr.eval env = .ok u) → u = v := by
    rintro u ⟨q, hq, hqs, hqe⟩
    obtain rfl := Phrase.eq_of_spelled hq hqs hfits hspelled
    rw [hqe] at heval
    exact Except.ok.inj heval
  cases hkeyword : Keyword.ofName? (String.ofList cs) with
  | some k =>
    have hvalue : k.value = v := by
      refine agree ⟨.keyword k, .keyword k, ?_, eval_keyword k⟩
      have := k.isName.spelled
      rw [Keyword.word_of_ofName? hkeyword, String.toList_ofList] at this
      rwa [Phrase.tokens, Keyword.word_of_ofName? hkeyword]
    rw [evaluateTrimmed, hkeyword, ← hvalue]
    cases k <;> rfl
  | none =>
  cases hnumber : numberLiteral? cs with
  | some x =>
    rw [evaluateTrimmed, hkeyword, hnumber]
    exact agree (exists_phrase_of_numberLiteral? hnumber)
  | none =>
  cases hstring : stringLiteral? cs with
  | some s =>
    rw [evaluateTrimmed, hkeyword, hnumber, hstring]
    exact agree (exists_phrase_of_stringLiteral? hstring)
  | none =>
  cases hbound : env.get? (String.ofList cs) with
  | some u =>
    rw [evaluateTrimmed, hkeyword, hnumber, hstring, hbound]
    exact agree (exists_phrase_of_get? henv hbound)
  | none =>
  simp only [evaluateTrimmed, hkeyword, hnumber, hstring, hbound]
  cases hproj : projection? cs with
  | none => simp [h, Except.toOption]
  | some words =>
    obtain ⟨base, field⟩ := words
    obtain ⟨b, f, rfl, hb, hf, rfl, rfl⟩ := of_projection? hproj
    rcases of_spelled_dotted hfits hspelled hb hf with ⟨x, rfl, hspells⟩ | ⟨q, rfl, hleaf, hq⟩
    · have hdotted := dotted_append hb hf
      exact absurd (exponential_of_spells hspells hdotted (by simp) hnumber) hplain
    · exact readProperty_of_eval henv hleaf hq hb heval

/-- A field of a variable. -/
theorem evaluate_of_evalText_field :
    Readable ⟨[("user", .obj [("age", .bool true)])]⟩ ∧
      evalText ⟨[("user", .obj [("age", .bool true)])]⟩ (Text.trim " user.age ".toList) =
        .ok (.bool true) ∧
      evaluate ⟨[("user", .obj [("age", .bool true)])]⟩ " user.age ".toList = .bool true := by
  have hread : Readable ⟨[("user", .obj [("age", .bool true)])]⟩ := by
    intro n hn
    obtain rfl : n = "user" := by simpa [Environment.names, Fields.names] using hn
    exact ⟨⟨⟨_, _, rfl, by decide⟩, List.all_eq_true.mp (by decide)⟩, by decide⟩
  have hvalue : evalText ⟨[("user", .obj [("age", .bool true)])]⟩ (Text.trim " user.age ".toList) =
      .ok (.bool true) := by cbv
  refine ⟨hread, hvalue, (evaluate_of_evalText hread hvalue).1 fun h => ?_⟩
  have htrim : Text.trim " user.age ".toList = "user.age".toList := by cbv
  rw [htrim] at h
  generalize hcs : "user.age".toList = cs at h
  obtain ⟨hwhole, -, -, -⟩ := h
  obtain ⟨d, ds, rfl, hd⟩ := hwhole.cons
  obtain ⟨rfl, -⟩ := List.cons.inj hcs
  exact absurd hd (by decide)

/-- An exponential numeral that the grammar reads and that comes out absent. -/
theorem evaluate_exponential_absent :
    Readable {} ∧ evalText {} (Text.trim "1.5e3".toList) = .ok (.num (.ofNat 1500)) ∧
      evaluate {} "1.5e3".toList = .undefined := by
  have hread : Readable {} := by simp [Readable, Environment.names, Fields.names]
  have htrim : Text.trim "1.5e3".toList = ['1', '.', '5', 'e', '3'] := by cbv
  have h1 : Decimal.IsRun ['1'] := Decimal.isRun_singleton (by decide)
  have h5 : Decimal.IsRun ['5'] := Decimal.isRun_singleton (by decide)
  have h3 : Decimal.IsRun ['3'] := Decimal.isRun_singleton (by decide)
  refine ⟨hread, ?_, ?_⟩
  · have hphrase := readPhrase_eq_ok_iff.mpr ⟨.number _,
      (Spells.number (.mk h1 (.point h5) (.plain (.inl rfl) h3))).spelled,
      Nat.zero_le _, Nat.zero_le _, by simp [Phrase.size, maxNodes]⟩
    have hnumber : (Decimal.ofParts ['1'] ['5'] (Decimal.ofRun ['3'])).toDouble false =
        .ofNat 1500 := by decide +kernel
    have hparse : parse ['1', '.', '5', 'e', '3'] = .ok (.num (.ofNat 1500)) := by
      rw [hnumber] at hphrase
      exact congrArg (Except.map Phrase.toExpr) hphrase
    rw [htrim, evalText, hparse]
    rfl
  · rw [evaluate, htrim]
    exact evaluateTrimmed_exponential hread (.mk h1 h5 (.inl rfl) h3)

end Expr

end Resumable
