import Mathlib.Data.List.Chain
import Resumable.Expr.Token
import Resumable.Proofs.Decimal.Literal

/-!
# Tokens as they are written

A token has one spelling or several: a numeral can be written in many ways, and a string between any
quotes that it does not hold. Tokens are written one after the other with blanks between them, and
the blanks may be missing.

## The model

* `Spells`: a text is a spelling of a token.
* `Spelled`: a text spells tokens, with blanks before, between and behind them.
* `MayTouch`: a token may stand right behind another one and is not drawn into it.

## What is proved

* `spelled_of_scan`: whatever tokens are read from a text, the text spells them.
* `ofText?_of_spelled`: tokens of which each may touch the next are read back from every text that
  spells them.
-/

namespace Resumable

/-- How an operator is written. -/
def BinaryOp.spelling : BinaryOp → List Char
  | .or => ['|', '|']
  | .and => ['&', '&']
  | .strictEq => ['=', '=', '=']
  | .strictNe => ['!', '=', '=']
  | .eq => ['=', '=']
  | .ne => ['!', '=']
  | .lt => ['<']
  | .le => ['<', '=']
  | .gt => ['>']
  | .ge => ['>', '=']
  | .add => ['+']
  | .sub => ['-']
  | .mul => ['*']
  | .div => ['/']
  | .rem => ['%']

namespace Expr

/-- The character that opens a pair of brackets. -/
def Bracket.left : Bracket → Char
  | .round => '('
  | .square => '['
  | .curly => '\x7b'

/-- The character that closes a pair of brackets. -/
def Bracket.right : Bracket → Char
  | .round => ')'
  | .square => ']'
  | .curly => '\x7d'

namespace Token

open Text (Ends ends_nil ends_cons)

variable {t u : Token} {ts : List Token} {w cs rest blanks : List Char} {c : Char}

/-! ### Spellings -/

/-- A text is a spelling of a token. -/
inductive Spells : Token → List Char → Prop where
  /-- A name is written as it is: it has a first character, and others behind it. -/
  | name {c : Char} {cs : List Char} (first : isNameStart c = true)
      (others : ∀ d ∈ cs, isNameChar d = true) : Spells (.name (String.ofList (c :: cs))) (c :: cs)
  /-- A number is written by any numeral to which it is nearest. -/
  | number {w : List Char} {d : Decimal} (numeral : Decimal.Writes w d) :
      Spells (.number (d.toDouble false)) w
  /-- A string is written between two quotes that it does not hold. -/
  | text {quote : Char} {s : List Char} (isQuote : Source.isQuote quote = true)
      (apart : quote ∉ s) : Spells (.text quote (String.ofList s)) (quote :: (s ++ [quote]))
  /-- An operator has one spelling. -/
  | op (o : BinaryOp) : Spells (.op o) o.spelling
  /-- The exclamation mark. -/
  | bang : Spells .bang ['!']
  /-- The point. -/
  | dot : Spells .dot ['.']
  /-- The comma. -/
  | comma : Spells .comma [',']
  /-- The colon. -/
  | colon : Spells .colon [':']
  /-- An opening bracket. -/
  | opening (b : Bracket) : Spells (.opening b) [b.left]
  /-- A closing bracket. -/
  | closing (b : Bracket) : Spells (.closing b) [b.right]

/-- A text spells tokens: blanks may stand before each token and behind the last. -/
inductive Spelled : List Token → List Char → Prop where
  /-- Blanks spell no token. -/
  | done {blanks : List Char} (hblanks : ∀ c ∈ blanks, isSpace c = true) : Spelled [] blanks
  /-- Blanks, a token, and what spells the others. -/
  | token {t : Token} {ts : List Token} {blanks w rest : List Char}
      (hblanks : ∀ c ∈ blanks, isSpace c = true) (spells : Spells t w) (others : Spelled ts rest) :
      Spelled (t :: ts) (blanks ++ (w ++ rest))

/-! ### Kinds of characters -/

theorem isNameStart_of_isDigit (h : Decimal.isDigit c = true) : isNameStart c = false := by
  simp only [Decimal.isDigit, isNameStart, Bool.and_eq_true, decide_eq_true_eq,
    Bool.or_eq_false_iff, Bool.and_eq_false_imp, Char.le_def, beq_eq_false_iff_ne, ne_eq,
    Char.ext_iff, UInt32.le_iff_toNat_le, decide_eq_false_iff_not, ← UInt32.toNat_inj,
    Char.reduceVal, UInt32.reduceToNat] at h ⊢
  omega

theorem isNameChar_of_isNameStart (h : isNameStart c = true) : isNameChar c = true := by
  rw [isNameChar, h, Bool.true_or]

theorem isNameChar_of_isDigit (h : Decimal.isDigit c = true) : isNameChar c = true := by
  rw [isNameChar, h, Bool.or_true]

theorem isDigit_eq_false_of_isNameChar (h : isNameChar c = false) : Decimal.isDigit c = false := by
  rw [isNameChar, Bool.or_eq_false_iff] at h
  exact h.2

/-- A blank is nothing else: it belongs to no name and no numeral, and no token starts with it. -/
theorem not_isNameChar_of_isSpace (h : isSpace c = true) :
    isNameChar c = false ∧ c ≠ '=' ∧ c ≠ '.' := by
  simp only [isSpace, Bool.or_eq_true, beq_iff_eq] at h
  rcases h with ((rfl | rfl) | rfl) | rfl <;> decide

theorem not_isSpace_of_isNameChar (h : isNameChar c = true) : isSpace c = false := by
  cases hc : isSpace c with
  | false => rfl
  | true => exact absurd h (by simp [(not_isNameChar_of_isSpace hc).1])

theorem not_isNameChar_of_isQuote (h : Source.isQuote c = true) :
    isNameChar c = false ∧ isSpace c = false ∧ c ≠ '=' ∧ c ≠ '.' := by
  rcases Source.isQuote_iff.mp h with rfl | rfl | rfl <;> decide

/-! ### Where tokens end -/

/-- Whether a token is a name or a number, so that a name or a numeral cannot stand right behind
it. -/
def isWord : Token → Bool
  | .name _ => true
  | .number _ => true
  | _ => false

/-- Whether a token is a number. -/
def isNumber : Token → Bool
  | .number _ => true
  | _ => false

/-- Whether a token starts with an equals sign, which the operators before it could take. -/
def isEquality : Token → Bool
  | .op .eq => true
  | .op .strictEq => true
  | _ => false

/-- A token may stand right behind another one. Behind a point no numeral may stand, as both could
be drawn into a numeral before them. -/
def MayTouch : Token → Token → Prop
  | .name _, u => u.isWord = false
  | .number _, u => u.isWord = false
  | .op _, u => u.isEquality = false
  | .bang, u => u.isEquality = false
  | .dot, u => u.isNumber = false
  | _, _ => True

/-- What follows a token cannot be drawn into it. -/
def Closed : Token → List Char → Prop
  | .name _, rest => Ends isNameChar rest
  | .number _, rest => Decimal.EndsLiteral rest
  | .op _, rest => Ends (· == '=') rest
  | .bang, rest => Ends (· == '=') rest
  | _, _ => True

/-- The first character of a spelling, and what it tells about the token. -/
theorem Spells.head (h : Spells t w) : ∃ c cs, w = c :: cs ∧ isSpace c = false ∧
    (t.isWord = false → isNameChar c = false) ∧ (t.isNumber = false → Decimal.isDigit c = false) ∧
    (t.isEquality = false → c ≠ '=') := by
  cases h with
  | name first others =>
    refine ⟨_, _, rfl, not_isSpace_of_isNameChar (isNameChar_of_isNameStart first),
      by simp [isWord], fun _ => ?_, fun _ => ?_⟩
    · cases hdigit : Decimal.isDigit _ with
      | false => rfl
      | true => simp [isNameStart_of_isDigit hdigit] at first
    · rintro rfl
      exact absurd first (by decide)
  | number numeral =>
    obtain ⟨run, hfraction, hscaling⟩ := numeral
    obtain ⟨d, ds, rfl, hd⟩ := run.cons
    refine ⟨d, _, rfl, not_isSpace_of_isNameChar (isNameChar_of_isDigit hd), by simp [isWord],
      by simp [isNumber], fun _ => ?_⟩
    rintro rfl
    exact absurd hd (by decide)
  | text isQuote apart =>
    obtain ⟨hname, hspace, hequal, -⟩ := not_isNameChar_of_isQuote isQuote
    exact ⟨_, _, rfl, hspace, fun _ => hname, fun _ => isDigit_eq_false_of_isNameChar hname,
      fun _ => hequal⟩
  | op o => cases o <;> exact ⟨_, _, rfl, by decide, by decide, by decide, by decide⟩
  | bang | dot | comma | colon => exact ⟨_, _, rfl, by decide, by decide, by decide, by decide⟩
  | opening b | closing b =>
    cases b <;> exact ⟨_, _, rfl, by decide, by decide, by decide, by decide⟩

/-- A text that spells tokens does not start with a character of a kind to which blanks do not
belong, nor the first character of the first token. -/
theorem Spelled.ends {p : Char → Bool} (h : Spelled ts cs)
    (hspace : ∀ c, isSpace c = true → p c = false)
    (hhead : ∀ u ∈ ts.head?, ∀ c cs, Spells u (c :: cs) → p c = false) : Ends p cs := by
  cases h with
  | done hblanks =>
    cases cs with
    | nil => exact ends_nil
    | cons b blanks => exact ends_cons (hspace b (hblanks b (List.mem_cons_self ..))) _
  | @token u ts blanks w rest hblanks spells others =>
    cases blanks with
    | nil =>
      obtain ⟨c, cs, rfl, -⟩ := spells.head
      exact ends_cons (hhead u rfl c cs spells) _
    | cons b blanks => exact ends_cons (hspace b (hblanks b (List.mem_cons_self ..))) _

/-- Behind a token that is no word's start, no name goes on. -/
theorem Spelled.ends_isNameChar (h : Spelled ts cs) (hword : ∀ u ∈ ts.head?, u.isWord = false) :
    Ends isNameChar cs := by
  refine h.ends (fun c hc => (not_isNameChar_of_isSpace hc).1) fun u hu c cs hspells => ?_
  obtain ⟨c', cs', heq, -, hname, -⟩ := hspells.head
  obtain ⟨rfl, -⟩ := List.cons.inj heq
  exact hname (hword u hu)

theorem Spelled.ends_isDigit (h : Spelled ts cs) (hnumber : ∀ u ∈ ts.head?, u.isNumber = false) :
    Decimal.EndsRun cs := by
  refine h.ends (fun c hc => ?_) fun u hu c cs hspells => ?_
  · exact isDigit_eq_false_of_isNameChar (not_isNameChar_of_isSpace hc).1
  · obtain ⟨c', cs', heq, -, -, hdigit, -⟩ := hspells.head
    obtain ⟨rfl, -⟩ := List.cons.inj heq
    exact hdigit (hnumber u hu)

theorem Spelled.ends_equality (h : Spelled ts cs) (hequal : ∀ u ∈ ts.head?, u.isEquality = false) :
    Ends (· == '=') cs := by
  refine h.ends (fun c hc => ?_) fun u hu c cs hspells => ?_
  · simpa using (not_isNameChar_of_isSpace hc).2.1
  · obtain ⟨c', cs', heq, -, -, -, hne⟩ := hspells.head
    obtain ⟨rfl, -⟩ := List.cons.inj heq
    simpa using hne (hequal u hu)

/-- If a text that spells tokens starts with a point, the point is a token. -/
theorem Spelled.of_point (h : Spelled ts ('.' :: cs)) : ∃ us, ts = .dot :: us ∧ Spelled us cs := by
  generalize hcs : '.' :: cs = text at h
  cases h with
  | @done blanks hblanks =>
    subst hcs
    exact absurd (hblanks '.' (List.mem_cons_self ..)) (by decide)
  | @token u ts blanks w rest hblanks spells others =>
    cases blanks with
    | cons b blanks =>
      obtain ⟨rfl, -⟩ := List.cons.inj hcs
      exact absurd (hblanks '.' (List.mem_cons_self ..)) (by decide)
    | nil =>
      rw [List.nil_append] at hcs
      cases spells with
      | dot => obtain ⟨-, rfl⟩ := List.cons.inj hcs; exact ⟨ts, rfl, others⟩
      | name first others =>
        obtain ⟨rfl, -⟩ := List.cons.inj hcs
        exact absurd first (by decide)
      | number numeral =>
        obtain ⟨run, -, -⟩ := numeral
        obtain ⟨d, ds, rfl, hd⟩ := run.cons
        obtain ⟨rfl, -⟩ := List.cons.inj hcs
        exact absurd hd (by decide)
      | text isQuote apart =>
        obtain ⟨rfl, -⟩ := List.cons.inj hcs
        exact absurd isQuote (by decide)
      | op o => cases o <;> cases hcs
      | bang | comma | colon => cases hcs
      | opening b | closing b => cases b <;> cases hcs

/-- Tokens that may touch are closed against each other, with or without blanks between them. -/
theorem Spelled.closed (h : Spelled ts cs) (hts : (t :: ts).IsChain MayTouch) : Closed t cs := by
  have hnext : ∀ u ∈ ts.head?, MayTouch t u := by
    intro u hu
    cases ts with
    | nil => simp at hu
    | cons v ts =>
      obtain rfl : v = u := by simpa using hu
      exact (List.isChain_cons_cons.mp hts).1
  cases t with
  | name n => exact h.ends_isNameChar hnext
  | number x =>
    have hname : Ends isNameChar cs := h.ends_isNameChar hnext
    refine ⟨fun c hc => ?_, fun c hc => ?_, fun after hafter => ?_⟩
    · exact isDigit_eq_false_of_isNameChar (hname c hc)
    · constructor <;> rintro rfl <;> exact absurd (hname _ hc) (by decide)
    · subst hafter
      obtain ⟨us, rfl, hus⟩ := h.of_point
      refine hus.ends_isDigit fun u hu => ?_
      cases us with
      | nil => simp at hu
      | cons v us =>
        obtain rfl : v = u := by simpa using hu
        exact (List.isChain_cons_cons.mp (List.isChain_cons_cons.mp hts).2).1
  | op o => exact h.ends_equality hnext
  | bang => exact h.ends_equality hnext
  | text | dot | comma | colon | opening | closing => trivial

/-! ### One token -/

theorem mark?_spelling (o : BinaryOp) (h : Ends (· == '=') rest) :
    mark? (o.spelling ++ rest) = some (.op o, rest) := by
  cases rest with
  | nil => cases o <;> rfl
  | cons c rest =>
    have hc : c ≠ '=' := by simpa using h.head
    cases o <;> simp [BinaryOp.spelling, mark?, hc]

theorem mark?_bang (h : Ends (· == '=') rest) : mark? ('!' :: rest) = some (.bang, rest) := by
  cases rest with
  | nil => rfl
  | cons c rest =>
    have hc : c ≠ '=' := by simpa using h.head
    simp [mark?, hc]

/-- A character that starts no name, numeral or string starts a mark. -/
theorem next?_eq_mark? (hname : isNameChar c = false) (hquote : Source.isQuote c = false) :
    next? (c :: cs) = mark? (c :: cs) := by
  simp only [isNameChar, Bool.or_eq_false_iff] at hname
  simp [next?, hname, hquote]

/-- A spelling is read back, if what follows cannot be drawn into the token. -/
theorem next?_append (h : Spells t w) (hrest : Closed t rest) :
    next? (w ++ rest) = some (t, rest) := by
  cases h with
  | name first others => rw [List.cons_append, next?, if_pos first, Text.span_append others hrest]
  | number numeral =>
    have hread := Decimal.literal?_append numeral hrest
    obtain ⟨run, hfraction, hscaling⟩ := numeral
    obtain ⟨d, ds, rfl, hd⟩ := run.cons
    rw [List.cons_append, List.cons_append] at hread ⊢
    rw [next?, if_neg (by simp [isNameStart_of_isDigit hd]), if_pos hd, hread, Option.map_some]
  | @text quote s isQuote apart =>
    have hname := (not_isNameChar_of_isQuote isQuote).1
    simp only [isNameChar, Bool.or_eq_false_iff] at hname
    have hspan : (s ++ quote :: rest).span (· != quote) = (s, quote :: rest) := by
      refine Text.span_append (fun d hd => ?_) (ends_cons (by simp) rest)
      simp only [bne_iff_ne, ne_eq]
      rintro rfl
      exact apart hd
    rw [List.cons_append, List.append_assoc, List.singleton_append, next?,
      if_neg (by simp [hname.1]), if_neg (by simp [hname.2]), if_pos isQuote, text?, hspan]
  | op o =>
    refine Eq.trans ?_ (mark?_spelling o hrest)
    cases o <;> exact next?_eq_mark? (by decide) (by decide)
  | bang => exact (next?_eq_mark? (by decide) (by decide)).trans (mark?_bang hrest)
  | dot | comma | colon => rfl
  | opening b | closing b => cases b <;> rfl

theorem exists_of_mark? (h : mark? cs = some (t, rest)) : ∃ w, cs = w ++ rest ∧ Spells t w := by
  unfold mark? at h
  split at h
  case h_26 => simp at h
  all_goals
    simp only [Option.some.injEq, Prod.mk.injEq] at h
    obtain ⟨rfl, rfl⟩ := h
  case h_7 => exact ⟨_, rfl, .bang⟩
  case h_17 => exact ⟨_, rfl, .dot⟩
  case h_18 => exact ⟨_, rfl, .comma⟩
  case h_19 => exact ⟨_, rfl, .colon⟩
  case h_20 => exact ⟨_, rfl, .opening .round⟩
  case h_21 => exact ⟨_, rfl, .closing .round⟩
  case h_22 => exact ⟨_, rfl, .opening .square⟩
  case h_23 => exact ⟨_, rfl, .closing .square⟩
  case h_24 => exact ⟨_, rfl, .opening .curly⟩
  case h_25 => exact ⟨_, rfl, .closing .curly⟩
  all_goals exact ⟨_, rfl, .op _⟩

/-- What is read was spelled at the start of the text. -/
theorem exists_of_next? (h : next? cs = some (t, rest)) : ∃ w, cs = w ++ rest ∧ Spells t w := by
  unfold next? at h
  split at h
  · simp at h
  · rename_i c cs
    split at h
    · rename_i first
      obtain ⟨run, tail, hspan⟩ : ∃ run tail, cs.span isNameChar = (run, tail) := ⟨_, _, rfl⟩
      rw [hspan] at h
      simp only [Option.some.injEq, Prod.mk.injEq] at h
      obtain ⟨rfl, rfl⟩ := h
      obtain ⟨rfl, hname, -⟩ := Text.of_span hspan
      exact ⟨c :: run, rfl, .name first hname⟩
    split at h
    · obtain ⟨⟨d, rest'⟩, hread, heq⟩ := Option.map_eq_some_iff.mp h
      obtain ⟨rfl, rfl⟩ := Prod.mk.inj heq
      obtain ⟨w, hw, hwrites⟩ := Decimal.exists_of_literal? hread
      exact ⟨w, hw, .number hwrites⟩
    split at h
    · rename_i hquote
      unfold text? at h
      split at h
      · simp at h
      · rename_i content d tail hspan
        simp only [Option.some.injEq, Prod.mk.injEq] at h
        obtain ⟨rfl, rfl⟩ := h
        obtain ⟨rfl, hcontent, hends⟩ := Text.of_span hspan
        obtain rfl : d = c := by simpa using hends.head
        refine ⟨d :: (content ++ [d]), by simp, .text hquote fun hd => ?_⟩
        simpa using hcontent d hd
    · exact exists_of_mark? h

/-! ### Whole texts -/

theorem Spelled.length_le (h : Spelled ts cs) : ts.length ≤ cs.length := by
  induction h with
  | done => exact Nat.zero_le _
  | token hblanks spells others ih =>
    obtain ⟨c, cs, rfl, -⟩ := spells.head
    simp only [List.length_cons, List.length_append]
    omega

/-- Blanks are passed over up to the next token. -/
theorem dropWhile_blanks (hblanks : ∀ c ∈ blanks, isSpace c = true) (hends : Ends isSpace rest) :
    (blanks ++ rest).dropWhile isSpace = rest := by
  rw [List.dropWhile_append_of_pos hblanks]
  cases rest with
  | nil => rfl
  | cons c rest => simp [hends.head]

theorem scan_blank {n : Nat} (h : cs.dropWhile isSpace = []) : scan n cs = some [] := by
  unfold scan
  rw [h]

theorem scan_zero (h : cs.dropWhile isSpace = c :: rest) : scan 0 cs = none := by
  unfold scan
  rw [h]

theorem scan_succ {n : Nat} (h : cs.dropWhile isSpace = c :: rest) :
    scan (n + 1) cs = (next? (c :: rest)).bind fun x => (scan n x.2).map (x.1 :: ·) := by
  rw [scan.eq_def]
  simp only [h, Option.bind_eq_bind, Option.map_eq_bind]
  rfl

theorem scan_of_spelled (h : Spelled ts cs) (hts : ts.IsChain MayTouch) :
    ∀ n, ts.length ≤ n → scan n cs = some ts := by
  induction h with
  | done hblanks =>
    intro n _
    have hdrop := dropWhile_blanks hblanks (ends_nil (p := isSpace))
    rw [List.append_nil] at hdrop
    exact scan_blank hdrop
  | @token t ts blanks w rest hblanks spells others ih =>
    intro n hn
    have hnext := next?_append spells (others.closed hts)
    obtain ⟨c, w, rfl, hc, -⟩ := spells.head
    obtain ⟨n, rfl⟩ : ∃ m, n = m + 1 := ⟨n - 1, by simp only [List.length_cons] at hn; omega⟩
    have hrest := ih hts.tail n (by simpa using hn)
    rw [List.cons_append] at hnext ⊢
    rw [scan_succ (dropWhile_blanks hblanks (ends_cons hc _)), hnext, Option.bind_some, hrest,
      Option.map_some]

theorem spelled_of_blank {n : Nat} (hdrop : cs.dropWhile isSpace = []) (h : scan n cs = some ts) :
    Spelled ts cs := by
  rw [scan_blank hdrop] at h
  obtain rfl := Option.some.inj h
  exact .done (List.dropWhile_eq_nil_iff.mp hdrop)

/-- Whatever tokens are read from a text, the text spells them. -/
theorem spelled_of_scan {n : Nat} (h : scan n cs = some ts) : Spelled ts cs := by
  induction n generalizing cs ts with
  | zero =>
    cases hdrop : cs.dropWhile isSpace with
    | nil => exact spelled_of_blank hdrop h
    | cons c rest =>
      rw [scan_zero hdrop] at h
      simp at h
  | succ n ih =>
    cases hdrop : cs.dropWhile isSpace with
    | nil => exact spelled_of_blank hdrop h
    | cons c rest =>
      rw [scan_succ hdrop] at h
      obtain ⟨⟨t, tail⟩, hnext, hothers⟩ := Option.bind_eq_some_iff.mp h
      obtain ⟨us, hus, rfl⟩ := Option.map_eq_some_iff.mp hothers
      obtain ⟨w, hw, hspells⟩ := exists_of_next? hnext
      have hcs : cs = cs.takeWhile isSpace ++ (w ++ tail) := by
        rw [← hw, ← hdrop, List.takeWhile_append_dropWhile]
      rw [hcs]
      exact .token (fun c hc => List.mem_takeWhile_imp hc) hspells (ih hus)

/-- Tokens of which each may touch the next are read back from every text that spells them. -/
theorem ofText?_of_spelled (h : Spelled ts cs) (hts : ts.IsChain MayTouch) :
    ofText? cs = some ts :=
  scan_of_spelled h hts cs.length h.length_le

end Token

end Expr

end Resumable
