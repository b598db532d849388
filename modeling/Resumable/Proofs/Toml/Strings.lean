import Mathlib.Tactic.SplitIfs
import Resumable.Toml.Text

/-!
# TOML strings as they are written and read

A text is written in the plainest style that can hold it, and the reader finds it again whatever
the style. Of the quotes in a row that end a string of many lines the last three close it; so a
quote inside the string is safe as long as not two more follow it there.

## The model

* `Literal`: a text that single quotes can hold as it stands.
* `content`: what stands between the quotes of a string.

## What is proved

* `body_escapeAll`: a text with its escapes is read as the text.
* `body_literal`: so is a text that needs none, between single quotes.
* `string?_renderString`: a string as it is written is read as the string.
* `carriage_notMem_renderString`: no carriage return is written as itself.
-/

namespace Resumable.Toml

variable {style : Style} {cs rest last : List Char} {c : Char} {many : Bool} {run : Nat}

/-! ### Quotes inside a string and behind it -/

theorem body_quote_of_close (h : close style cs = .close last rest) :
    body style .plain (style.quote :: cs) = some (last, rest) := by
  simp [body, step, plainStep, h]

theorem body_quote_of_go (h : close style cs = .go (some style.quote) .plain) :
    body style .plain (style.quote :: cs) =
      (body style .plain cs).map fun x => (style.quote :: x.1, x.2) := by
  simp [body, step, plainStep, h]

/-- Closing quotes end a string. -/
theorem body_quotes (hrest : rest.head? ≠ some style.quote) :
    body style .plain (style.quotes ++ rest) = some ([], rest) := by
  cases hmany : style.manyLines with
  | false =>
    rw [Style.quotes, hmany]
    exact body_quote_of_close (by simp [close, hmany])
  | true =>
    rw [Style.quotes, hmany]
    apply body_quote_of_close
    match rest with
    | [] => simp [close, hmany, List.replicate]
    | [c] => simp_all [close, List.replicate]
    | c :: d :: after => simp_all [close, List.replicate]

/-- One quote before the closing ones belongs to the string. -/
theorem close_one (hmany : style.manyLines = true) (hrest : rest.head? ≠ some style.quote) :
    close style (style.quotes ++ rest) = .close [style.quote] rest := by
  match rest with
  | [] => simp [close, hmany, Style.quotes]
  | c :: rest => simp_all [close, Style.quotes]

/-- So do two of them. -/
theorem close_two (hmany : style.manyLines = true) :
    close style (style.quote :: (style.quotes ++ rest)) =
      .close [style.quote, style.quote] rest := by
  simp [close, hmany, Style.quotes]

/-- A quote that not two more follow goes on with the string. -/
theorem close_go (hmany : style.manyLines = true) (h : ¬ [style.quote, style.quote] <+: cs) :
    close style cs = .go (some style.quote) .plain := by
  match cs with
  | [] => simp [close, hmany]
  | [c] => simp [close, hmany]
  | a :: b :: cs =>
    have hab : ¬ (a = style.quote ∧ b = style.quote) := by
      rintro ⟨rfl, rfl⟩
      exact h (List.prefix_append _ cs)
    simp [close, hmany, hab]

/-- A quote in a string of many lines belongs to it if not two more follow there. -/
theorem body_quote_append (style : Style) (hmany : style.manyLines = true)
    (hcs : ¬ [style.quote, style.quote] <+: cs) (hrest : rest.head? ≠ some style.quote) :
    body style .plain (style.quote :: (cs ++ (style.quotes ++ rest))) =
      (body style .plain (cs ++ (style.quotes ++ rest))).map fun x =>
        (style.quote :: x.1, x.2) := by
  -- Only where the text ends after no more than one quote do the closing quotes come close.
  match cs with
  | [] =>
    rw [List.nil_append, body_quote_of_close (close_one hmany hrest), body_quotes hrest,
      Option.map_some]
  | [c] =>
    by_cases hc : c = style.quote
    · subst hc
      rw [List.singleton_append, body_quote_of_close (close_two hmany),
        body_quote_of_close (close_one hmany hrest), Option.map_some]
    · exact body_quote_of_go (close_go hmany (by simp [List.cons_prefix_cons, Ne.symm hc]))
  | a :: b :: cs =>
    refine body_quote_of_go (close_go hmany ?_)
    simpa [List.cons_prefix_cons] using hcs

/-! ### Escapes -/

theorem padLeft_hexadecimal_upper :
    ∀ n < 0x80, Text.padLeft 4 '0' ((Text.hexadecimal n).map Char.toUpper) =
      ['0', '0', (Nat.digitChar (n / 16)).toUpper, (Nat.digitChar (n % 16)).toUpper] := by
  decide

theorem digitOf_toUpper : ∀ d < 16, Text.digitOf 16 (Nat.digitChar d).toUpper = some d := by
  decide

theorem scalar?_toNat (c : Char) : scalar? c.toNat = some c := by
  have hvalid : c.toNat < 0xd800 ∨ (0xdfff < c.toNat ∧ c.toNat < 0x110000) := c.valid
  rw [scalar?, if_pos hvalid, Char.ofNat_toNat]

theorem toNat_lt_of_isControl (h : isControl c = true) : c.toNat < 0x80 := by
  simp only [isControl, Bool.or_eq_true, Bool.and_eq_true, decide_eq_true_eq, beq_iff_eq] at h
  rcases h with ⟨h, -⟩ | rfl
  · omega
  · decide

/-- Reading an escaped character gives the character. -/
theorem body_escape (hc : c ≠ '"') (cs : List Char) :
    body ⟨true, many⟩ .plain (escape many c ++ cs) =
      (body ⟨true, many⟩ .plain cs).map fun x => (c :: x.1, x.2) := by
  unfold escape
  split
  case h_7 hslash =>
    split
    · rename_i hcontrol
      have hlt := toNat_lt_of_isControl hcontrol
      have hhigh := digitOf_toUpper (c.toNat / 16) (by omega)
      have hlow := digitOf_toUpper (c.toNat % 16) (by omega)
      have hzero : Text.digitOf 16 '0' = some 0 := by decide
      have hsum : c.toNat / 16 * 16 + c.toNat % 16 = c.toNat := by omega
      rw [padLeft_hexadecimal_upper c.toNat hlt]
      simp [body, step, plainStep, Style.quote, hhigh, hlow, hzero, hsum, scalar?_toNat,
        Function.comp_def]
    · rename_i hplain
      have hslash : c ≠ '\\' := hslash
      simp [body, step, plainStep, Style.quote, hc, hslash, hplain]
  case h_3 =>
    cases many with
    | false => simp [body, step, plainStep, Style.quote, unescape, isSpace, Function.comp_def]
    | true => simp [body, step, plainStep, Style.quote]
  all_goals simp [body, step, plainStep, Style.quote, unescape, isSpace, Function.comp_def]

theorem body_escapedQuote (cs : List Char) :
    body ⟨true, many⟩ .plain ('\\' :: '"' :: cs) =
      (body ⟨true, many⟩ .plain cs).map fun x => ('"' :: x.1, x.2) := by
  simp [body, step, plainStep, Style.quote, unescape, isSpace, Function.comp_def]

/-- An escaped character starts with no quote, and with a line end only if it is one. -/
theorem head_escape (hc : c ≠ '"') (many : Bool) :
    ∃ d ds, escape many c = d :: ds ∧ d ≠ '"' ∧ (d = '\n' → c = '\n') := by
  unfold escape
  split
  case h_3 => cases many <;> simp
  case h_7 =>
    split
    · simp
    · exact ⟨c, [], rfl, hc, id⟩
  all_goals simp

/-- Where quotes are escaped, the text with its escapes does not start with one. -/
theorem head_escapeAll (h : many = false ∨ 2 ≤ run) (cs : List Char) :
    (escapeAll many run cs).head? ≠ some '"' := by
  cases cs with
  | nil => simp [escapeAll]
  | cons c cs =>
    by_cases hc : c = '"'
    · have hrun : ¬ (many = true ∧ run < 2) := by grind
      rw [escapeAll, if_pos hc, if_neg hrun]
      simp
    · obtain ⟨d, ds, hd, hquote, -⟩ := head_escape hc many
      rw [escapeAll, if_neg hc, hd]
      simpa using hquote

/-- Behind a quote there are not two more. -/
theorem not_prefix_escapeAll (many : Bool) (hrun : 1 ≤ run) (cs : List Char) :
    ¬ ['"', '"'] <+: escapeAll many run cs := by
  cases cs with
  | nil => simp [escapeAll]
  | cons c cs =>
    by_cases hc : c = '"'
    · rw [escapeAll, if_pos hc]
      split
      · rintro ⟨ds, hds⟩
        have hhead : (escapeAll many (run + 1) cs).head? ≠ some '"' :=
          head_escapeAll (.inr (Nat.succ_le_succ hrun)) cs
        rw [List.cons_append, List.cons.injEq] at hds
        exact hhead (by rw [← hds.2]; rfl)
      · simp [List.cons_prefix_cons]
    · obtain ⟨d, ds, hd, hquote, -⟩ := head_escape hc many
      rw [escapeAll, if_neg hc, hd]
      simp [List.cons_prefix_cons, Ne.symm hquote]

/-- A text with its escapes is read as the text. -/
theorem body_escapeAll (hrest : rest.head? ≠ some '"') (many : Bool) (run : Nat)
    (cs : List Char) :
    body ⟨true, many⟩ .plain (escapeAll many run cs ++ ((Style.mk true many).quotes ++ rest)) =
      some (cs, rest) := by
  induction cs generalizing run with
  | nil => exact body_quotes hrest
  | cons c cs ih =>
    by_cases hc : c = '"'
    · subst hc
      rw [escapeAll, if_pos rfl]
      split
      · rename_i hraw
        have hcs := not_prefix_escapeAll many (Nat.le_add_left 1 run) cs
        refine (body_quote_append ⟨true, many⟩ hraw.1 hcs hrest).trans ?_
        rw [ih]
        rfl
      · rw [List.cons_append, List.cons_append, body_escapedQuote, ih, Option.map_some]
    · rw [escapeAll, if_neg hc, List.append_assoc, body_escape hc, ih, Option.map_some]

/-! ### Texts that need no escapes -/

theorem hasTriple_eq_true_iff (q : Char) (cs : List Char) :
    hasTriple q cs = true ↔ [q, q, q] <:+: cs := by
  fun_induction hasTriple q cs with
  | case1 a b c cs ih =>
    rw [List.infix_cons_iff, Bool.or_eq_true, ih]
    simp [List.cons_prefix_cons, and_assoc, @eq_comm _ q]
  | case2 cs hshort =>
    refine iff_of_false Bool.false_ne_true fun h => ?_
    match cs with
    | [] | [_] | [_, _] => simpa using h.length_le
    | a :: b :: c :: cs => exact hshort a b c cs rfl

/-- A text that single quotes can hold as it stands. -/
structure Literal (many : Bool) (cs : List Char) : Prop where
  /-- No control but the line end, and that on many lines. -/
  controls : ∀ c ∈ cs, isControl c = true → c = '\n' ∧ many = true
  /-- The closing quotes do not occur. -/
  quotes : ¬ (Style.mk false many).quotes <:+: cs

theorem Literal.tail (h : Literal many (c :: cs)) : Literal many cs where
  controls d hd := h.controls d (List.mem_cons_of_mem c hd)
  quotes hquotes := h.quotes (List.infix_cons hquotes)

/-- A text that needs no escapes is read as it stands. -/
theorem body_literal (h : Literal many cs) (hrest : rest.head? ≠ some '\'') :
    body ⟨false, many⟩ .plain (cs ++ ((Style.mk false many).quotes ++ rest)) =
      some (cs, rest) := by
  induction cs with
  | nil => exact body_quotes hrest
  | cons c cs ih =>
    by_cases hc : c = '\''
    · subst hc
      cases many with
      | false => exact absurd ⟨[], cs, rfl⟩ h.quotes
      | true =>
        have hcs : ¬ ['\'', '\''] <+: cs := by
          rintro ⟨ds, rfl⟩
          exact h.quotes ⟨[], ds, rfl⟩
        refine (body_quote_append ⟨false, true⟩ rfl hcs hrest).trans ?_
        rw [ih h.tail]
        rfl
    · have hcontrol : ¬ (isControl c = true ∧ ¬ (c = '\n' ∧ many = true)) :=
        fun hreject => hreject.2 (h.controls c List.mem_cons_self hreject.1)
      have hstep : step ⟨false, many⟩ .plain c (cs ++ ((Style.mk false many).quotes ++ rest)) =
          .go (some c) .plain := by
        have hquote : c ≠ (Style.mk false many).quote := hc
        rw [step, plainStep, if_neg hquote, if_neg (by simp), if_neg hcontrol]
      rw [List.cons_append, body, hstep]
      simp [ih h.tail]

/-! ### Styles -/

/-- Single quotes are chosen only for texts that they can hold. -/
theorem literal_of_styleOf (h : styleOf cs = ⟨false, many⟩) : Literal many cs := by
  simp only [styleOf] at h
  split_ifs at h with hplain hline hdouble hsingle
  · cases h
  · cases h
    simp only [Bool.and_eq_true, Bool.not_eq_true', List.any_eq_false, List.contains_eq_mem,
      decide_eq_false_iff_not] at hline
    refine ⟨fun c hc hcontrol => ?_, fun hquote => hline.2 (hquote.subset (by decide))⟩
    have hend := hline.1.1 c hc
    grind
  · cases h
  · cases h
    simp only [Bool.and_eq_true, Bool.not_eq_true', List.any_eq_false] at hsingle
    refine ⟨fun c hc hcontrol => ?_, fun hquote => ?_⟩
    · have hend := hsingle.1 c hc
      grind
    · exact Bool.false_ne_true (hsingle.2.symm.trans ((hasTriple_eq_true_iff '\'' cs).mpr hquote))
  · cases h

/-- What stands between the quotes of a string. -/
def content (style : Style) (cs : List Char) : List Char :=
  if style.escapes then escapeAll style.manyLines 0 cs else cs

theorem body_content (cs : List Char) (hrest : ∀ style : Style, rest.head? ≠ some style.quote) :
    body (styleOf cs) .plain (content (styleOf cs) cs ++ ((styleOf cs).quotes ++ rest)) =
      some (cs, rest) := by
  rcases hstyle : styleOf cs with ⟨escapes, many⟩
  cases escapes with
  | true => exact body_escapeAll (hrest ⟨true, many⟩) many 0 cs
  | false => exact body_literal (literal_of_styleOf hstyle) (hrest ⟨false, many⟩)

theorem opening?_line (style : Style) (cs : List Char) (hmany : style.manyLines = false)
    (hcs : ¬ [style.quote, style.quote] <+: cs) :
    opening? (style.quotes ++ cs) = some (style, cs) := by
  obtain ⟨escapes, many⟩ := style
  subst hmany
  cases escapes with
  | true =>
    change opening? ('"' :: cs) = _
    unfold opening?
    split <;> grind [Style.quote]
  | false =>
    change opening? ('\'' :: cs) = _
    unfold opening?
    split <;> grind [Style.quote]

theorem opening?_many (style : Style) (cs : List Char) (hmany : style.manyLines = true)
    (hcs : cs.head? ≠ some '\n') :
    opening? (style.quotes ++ cs) = some (style, cs) := by
  obtain ⟨escapes, many⟩ := style
  subst hmany
  cases escapes with
  | true =>
    change opening? ('"' :: '"' :: '"' :: cs) = _
    unfold opening?
    split <;> grind [Style.quote]
  | false =>
    change opening? ('\'' :: '\'' :: '\'' :: cs) = _
    unfold opening?
    split <;> grind [Style.quote]

theorem opening?_newline (style : Style) (cs : List Char) (hmany : style.manyLines = true) :
    opening? (style.quotes ++ '\n' :: cs) = some (style, cs) := by
  obtain ⟨escapes, many⟩ := style
  subst hmany
  cases escapes <;> rfl

/-- A string on one line does not start like one of many lines. -/
theorem not_prefix_content (hmany : (styleOf cs).manyLines = false)
    (hrest : rest.head? ≠ some (styleOf cs).quote) :
    ¬ [(styleOf cs).quote, (styleOf cs).quote] <+:
      content (styleOf cs) cs ++ ((styleOf cs).quotes ++ rest) := by
  rcases hstyle : styleOf cs with ⟨escapes, many⟩
  rw [hstyle] at hmany hrest
  subst hmany
  have hhead : (content ⟨escapes, false⟩ cs).head? ≠ some (Style.mk escapes false).quote := by
    cases escapes with
    | true => exact head_escapeAll (.inl rfl) cs
    | false =>
      intro hhead
      obtain ⟨ds, hds⟩ := List.head?_eq_some_iff.mp hhead
      exact (literal_of_styleOf hstyle).quotes ⟨[], ds, hds.symm⟩
  rintro ⟨ds, hds⟩
  cases hcontent : content ⟨escapes, false⟩ cs with
  | nil =>
    rw [hcontent] at hds
    obtain rfl : (Style.mk escapes false).quote :: ds = rest := by
      simpa [Style.quotes] using hds
    exact hrest rfl
  | cons c cs =>
    rw [hcontent] at hds hhead
    simp only [List.cons_append, List.cons.injEq] at hds
    exact hhead (by rw [hds.1]; rfl)

/-- Behind its opening quotes a text of a single line does not start with a line end. -/
theorem head_content (hcs : '\n' ∉ cs) (style : Style) :
    (content style cs ++ (style.quotes ++ rest)).head? ≠ some '\n' := by
  obtain ⟨escapes, many⟩ := style
  cases cs with
  | nil => cases escapes <;> cases many <;> simp [content, escapeAll, Style.quotes, Style.quote]
  | cons c cs =>
    have hc : c ≠ '\n' := fun h => hcs (h ▸ List.mem_cons_self)
    cases escapes with
    | false => simpa [content] using hc
    | true =>
      rw [content, if_pos rfl, escapeAll]
      split_ifs with hquote hraw
      · simp
      · simp
      · obtain ⟨d, ds, hd, -, hend⟩ := head_escape hquote many
        simp only [hd, List.cons_append, List.head?_cons, ne_eq, Option.some.injEq]
        exact fun h => hc (hend h)

/-! ### Strings -/

theorem renderString_eq (s : String) :
    renderString s = (styleOf s.toList).quotes ++
      ((if (styleOf s.toList).manyLines && s.toList.contains '\n' then ['\n'] else []) ++
        (content (styleOf s.toList) s.toList ++ (styleOf s.toList).quotes)) := by
  simp only [renderString, content, List.append_assoc]

theorem head_renderString (s : String) :
    ∃ q cs, renderString s = q :: cs ∧ (q = '"' ∨ q = '\'') := by
  rw [renderString_eq]
  obtain ⟨escapes, many⟩ := styleOf s.toList
  cases escapes <;> cases many <;> simp [Style.quotes, Style.quote, List.replicate]

/-- The opening quotes of a string announce its style. -/
theorem opening?_renderString (s : String)
    (hrest : ∀ style : Style, rest.head? ≠ some style.quote) :
    opening? (renderString s ++ rest) = some (styleOf s.toList,
      content (styleOf s.toList) s.toList ++ ((styleOf s.toList).quotes ++ rest)) := by
  rw [renderString_eq, List.append_assoc, List.append_assoc, List.append_assoc]
  cases hmany : (styleOf s.toList).manyLines with
  | false => exact opening?_line _ _ hmany (not_prefix_content hmany (hrest _))
  | true =>
    by_cases hlines : '\n' ∈ s.toList
    · simp only [List.contains_eq_mem, hlines]
      exact opening?_newline _ _ hmany
    · simp only [List.contains_eq_mem, hlines]
      exact opening?_many _ _ hmany (head_content hlines _)

/-- A string as it is written is read as the string. -/
theorem string?_renderString (s : String)
    (hrest : ∀ style : Style, rest.head? ≠ some style.quote) :
    string? (renderString s ++ rest) = some (s, rest) := by
  rw [string?, opening?_renderString s hrest]
  simp [body_content s.toList hrest]

theorem carriage_notMem_code :
    ∀ n < 0x80, '\r' ∉ Text.padLeft 4 '0' ((Text.hexadecimal n).map Char.toUpper) := by
  decide

theorem carriage_notMem_escape (many : Bool) (c : Char) : '\r' ∉ escape many c := by
  unfold escape
  split
  case h_3 => cases many <;> decide
  case h_7 hreturn _ =>
    split
    · rename_i hcontrol
      simpa using carriage_notMem_code c.toNat (toNat_lt_of_isControl hcontrol)
    · have hreturn : c ≠ '\r' := hreturn
      simpa using hreturn.symm
  all_goals decide

theorem carriage_notMem_escapeAll (many : Bool) (run : Nat) (cs : List Char) :
    '\r' ∉ escapeAll many run cs := by
  induction cs generalizing run with
  | nil => simp [escapeAll]
  | cons c cs ih =>
    rw [escapeAll]
    split_ifs <;> simp [carriage_notMem_escape, ih]

/-- No carriage return is written as itself. -/
theorem carriage_notMem_renderString (s : String) : '\r' ∉ renderString s := by
  have hcontent : '\r' ∉ content (styleOf s.toList) s.toList := by
    rcases hstyle : styleOf s.toList with ⟨escapes, many⟩
    cases escapes with
    | true => exact carriage_notMem_escapeAll many 0 s.toList
    | false =>
      intro hmem
      have hend := (literal_of_styleOf hstyle).controls '\r' hmem (by decide)
      exact absurd hend.1 (by decide)
  have hquotes : ∀ style : Style, '\r' ∉ style.quotes := by
    rintro ⟨escapes, many⟩
    cases escapes <;> cases many <;> decide
  rw [renderString_eq]
  split_ifs <;> simp [hcontent, hquotes]

end Resumable.Toml
