import Resumable.Proofs.Json.Numerals
import Resumable.Proofs.Toml.Strings
import Resumable.Toml.Document

/-!
# TOML documents as they are written and read

A document is read line by line, each line being taken whole whatever follows it. So a text that is
put together from headers, entries and empty lines has the lines that it was put together from.

## The model

* `IsName`, `IsValue` and `IsLine`: texts that are a name without quotes, a value and a line.
* `Lists`: a text that is put together from lines.

## What is proved

* `isValue_renderString` and `isValue_decimal`: a string and a number as they are written are
  values.
* `isLine_table` and `isLine_entry`: headers and entries are lines.
* `Lists.lines?`: a text has the lines that it was put together from.
-/

namespace Resumable.Toml

open Text (Ends ends_cons)

variable {cs rest value : List Char} {name : String} {v : Toml} {ls : List Line}

theorem skip_of_ends (h : Ends isSpace cs) : skip cs = cs := by
  cases cs with
  | nil => rfl
  | cons c cs => rw [skip, List.dropWhile_cons_of_neg (by simp [h.head])]

/-! ### Values -/

/-- A text that is a value up to the end of its line. -/
def IsValue (text : List Char) (v : Toml) : Prop :=
  ∀ rest, value? maxNesting (skip (text ++ '\n' :: rest)) = some (v, '\n' :: rest)

/-- A value that does not start with a bracket or a brace is read as one without them. -/
theorem isValue_of_scalarValue? {c : Char} (hspace : isSpace c = false) (hbracket : c ≠ '[')
    (hbrace : c ≠ '\x7b')
    (h : ∀ rest, scalarValue? (c :: cs ++ '\n' :: rest) = some (v, '\n' :: rest)) :
    IsValue (c :: cs) v := by
  intro rest
  rw [← h rest, List.cons_append, skip_of_ends (ends_cons hspace _)]
  unfold value?
  split <;> simp_all

/-- A string as it is written is a value. -/
theorem isValue_renderString (s : String) : IsValue (renderString s) (.scalar (.text s)) := by
  have hrest : ∀ (rest : List Char) (style : Style), ('\n' :: rest).head? ≠ some style.quote := by
    rintro rest ⟨escapes, many⟩
    cases escapes <;> simp [Style.quote]
  have hread : ∀ rest, scalarValue? (renderString s ++ '\n' :: rest) =
      some (.scalar (.text s), '\n' :: rest) := by
    intro rest
    rw [scalarValue?, opening?_renderString s (hrest rest)]
    simp [string?_renderString s (hrest rest)]
  obtain ⟨q, cs, heq, hquote⟩ := head_renderString s
  rw [heq] at hread ⊢
  rcases hquote with rfl | rfl <;>
    exact isValue_of_scalarValue? (by decide) (by decide) (by decide) hread

theorem ungroup?_of_digits (hne : cs ≠ []) (h : ∀ c ∈ cs, Decimal.isDigit c = true) :
    ungroup? Decimal.isDigit cs = some cs := by
  induction cs with
  | nil => exact absurd rfl hne
  | cons c cs ih =>
    cases cs with
    | nil => simp [ungroup?, h]
    | cons d cs =>
      have hmark : d ≠ '_' := by
        rintro rfl
        exact absurd (h '_' (by simp)) (by decide)
      have hrest := ih (by simp) fun c hc => h c (List.mem_cons_of_mem _ hc)
      simp [ungroup?, hmark, h, hrest]

theorem wholePart?_decimal (n : Nat) : wholePart? (Text.decimal n) = some (Text.decimal n) := by
  have hrun := Text.isRun_decimal n
  rw [wholePart?, ungroup?_of_digits hrun.nonempty hrun.digits]
  split
  · rename_i c cs heq
    exact absurd (Json.unpadded_decimal n _ (Option.some.inj heq)) (by simp)
  · rfl

theorem integer?_decimal {n : Nat} (hn : n ≤ Text.maxSigned) :
    integer? (Text.decimal n) = some (n : Int) := by
  have hdigits := (Text.isRun_decimal n).digits
  have hsign : splitSign (Text.decimal n) = (false, Text.decimal n) := by
    unfold splitSign
    split
    · rename_i heq
      exact absurd (hdigits '+' (by rw [heq]; simp)) (by decide)
    · rename_i heq
      exact absurd (hdigits '-' (by rw [heq]; simp)) (by decide)
    · rfl
  have hword : Text.signedWord? n = some (n : Int) := by
    rw [Text.signedWord?, if_pos (by omega)]
  have hdecimal : decimalInteger? (Text.decimal n) = some (n : Int) := by
    rw [decimalInteger?, hsign]
    simp [wholePart?_decimal, Text.ofRun_decimal, hword]
  unfold integer?
  split
  · rename_i heq
    exact absurd (hdigits 'x' (by rw [heq]; simp)) (by decide)
  · rename_i heq
    exact absurd (hdigits 'o' (by rw [heq]; simp)) (by decide)
  · rename_i heq
    exact absurd (hdigits 'b' (by rw [heq]; simp)) (by decide)
  · exact hdecimal

theorem isWordChar_of_isDigit {c : Char} (h : Decimal.isDigit c = true) : isWordChar c = true := by
  have hdigit : c.isDigit = true := h
  simp [isWordChar, Char.isAlphanum, hdigit]

theorem ofWord?_decimal {n : Nat} (hn : n ≤ Text.maxSigned) :
    ofWord? (Text.decimal n) = some (.scalar (.integer n)) := by
  have hboolean : boolean? (Text.decimal n) = none := by
    have hdigits := (Text.isRun_decimal n).digits
    unfold boolean?
    split_ifs with htrue hfalse
    · exact absurd (hdigits 't' (by rw [htrue]; simp)) (by decide)
    · exact absurd (hdigits 'f' (by rw [hfalse]; simp)) (by decide)
    · rfl
  rw [ofWord?, hboolean, integer?_decimal hn]
  rfl

/-- So are the digits of a number in the signed range. -/
theorem isValue_decimal {n : Nat} (hn : n ≤ Text.maxSigned) :
    IsValue (Text.decimal n) (.scalar (.integer n)) := by
  have hrun := Text.isRun_decimal n
  have hbare : ∀ rest, bare? (Text.decimal n ++ '\n' :: rest) =
      some (.scalar (.integer n), '\n' :: rest) := by
    intro rest
    have hspan : (Text.decimal n ++ '\n' :: rest).span isWordChar =
        (Text.decimal n, '\n' :: rest) :=
      Text.span_append (fun c hc => isWordChar_of_isDigit (hrun.digits c hc))
        (ends_cons (by decide) _)
    simp only [bare?, hspan, timeFollows, ofWord?_decimal hn]
    simp
  obtain ⟨d, ds, hd, hdigit⟩ := hrun.cons
  have hne : ∀ c, Decimal.isDigit c = false → d ≠ c := by
    rintro c hc rfl
    simp [hdigit] at hc
  have hspace : isSpace d = false := by simp [isSpace, hne ' ' (by decide), hne '\t' (by decide)]
  rw [hd] at hbare ⊢
  refine isValue_of_scalarValue? hspace (hne '[' (by decide)) (hne '\x7b' (by decide)) ?_
  intro rest
  have hopening : opening? (d :: ds ++ '\n' :: rest) = none := by
    have hdouble := hne '"' (by decide)
    have hsingle := hne '\'' (by decide)
    unfold opening?
    split <;> simp_all
  rw [scalarValue?, hopening, hbare rest]

/-! ### Lines -/

/-- A name that needs no quotes. -/
structure IsName (name : String) : Prop where
  /-- It is not empty. -/
  nonempty : name.toList ≠ []
  /-- Its characters may stand without quotes. -/
  chars : name.toList.all isNameChar = true

theorem IsName.cons (h : IsName name) : ∃ c cs, name.toList = c :: cs ∧ isNameChar c = true := by
  obtain ⟨c, cs, hcs⟩ := List.exists_cons_of_ne_nil h.nonempty
  exact ⟨c, cs, hcs, List.all_eq_true.mp h.chars c (by rw [hcs]; exact List.mem_cons_self)⟩

theorem IsName.head_ne (h : IsName name) {c : Char} (hc : isNameChar c = false) (rest : List Char) :
    (name.toList ++ rest).head? ≠ some c := by
  obtain ⟨d, ds, hd, hchar⟩ := h.cons
  rw [hd]
  rintro heq
  obtain rfl : d = c := by simpa using heq
  simp [hchar] at hc

theorem name?_append (h : IsName name) (hrest : Ends isNameChar rest) :
    name? (name.toList ++ rest) = some (name, rest) := by
  have hdouble := h.head_ne (c := '"') (by decide) rest
  have hsingle := h.head_ne (c := '\'') (by decide) rest
  unfold name?
  split
  · simp_all
  · simp_all
  · rw [Text.span_append (List.all_eq_true.mp h.chars) hrest]
    split
    · rename_i heq
      exact absurd (congrArg Prod.fst heq) h.nonempty
    · rename_i heq
      cases heq
      rw [String.ofList_toList]

theorem isNameChar_of_isSpace {c : Char} (h : isSpace c = true) : isNameChar c = false := by
  rcases (by simpa [isSpace] using h : c = ' ' ∨ c = '\t') with rfl | rfl <;> decide

theorem key?_append (h : IsName name) (hrest : Ends isNameChar rest)
    (hdot : (skip rest).head? ≠ some '.') :
    key? (name.toList ++ rest) = some (⟨[], name⟩, skip rest) := by
  have hskip : skip (name.toList ++ rest) = name.toList ++ rest := by
    refine skip_of_ends fun c hc => Bool.eq_false_iff.mpr fun hspace => ?_
    exact h.head_ne (isNameChar_of_isSpace hspace) rest hc
  rw [key?, maxNames, keyOf?, hskip, name?_append h hrest]
  simp only [Option.bind_eq_bind, Option.bind_some]
  split
  · simp_all
  · rfl

/-- A text that is a line, whatever follows it. -/
structure IsLine (text : List Char) (l : Line) : Prop where
  /-- It does not start like a gap between lines. -/
  starts : ∃ c cs, text = c :: cs ∧ isSpace c = false ∧ c ≠ '\n' ∧ c ≠ '#'
  /-- It is read as the line. -/
  read : ∀ rest, line? (text ++ rest) = some (l, rest)

/-- A header is a line. -/
theorem isLine_table (h : IsName name) :
    IsLine ('[' :: (name.toList ++ [']', '\n'])) (.table ⟨[], name⟩) := by
  refine ⟨⟨'[', _, rfl, by decide, by decide, by decide⟩, fun rest => ?_⟩
  have hkey : key? (name.toList ++ ']' :: '\n' :: rest) = some (⟨[], name⟩, ']' :: '\n' :: rest) :=
    key?_append h (ends_cons (by decide) _) (by simp [skip, isSpace])
  have hbracket := h.head_ne (c := '[') (by decide) (']' :: '\n' :: rest)
  rw [List.cons_append, List.append_assoc, List.cons_append, List.singleton_append]
  unfold line?
  split
  · rename_i heq
    exact absurd (congrArg List.head? (List.cons.inj heq).2) hbracket
  · rename_i heq
    cases heq
    simp [hkey, strip?, lineEnd?, skip, isSpace]
  · rename_i hother
    exact absurd rfl (hother _)

/-- So is a name with its value. -/
theorem isLine_entry (h : IsName name) (hvalue : IsValue value v) :
    IsLine (name.toList ++ [' ', '=', ' '] ++ value ++ ['\n']) (.entry ⟨[], name⟩ v) := by
  refine ⟨?_, fun rest => ?_⟩
  · obtain ⟨c, cs, hname, hc⟩ := h.cons
    refine ⟨c, cs ++ [' ', '=', ' '] ++ value ++ ['\n'], by rw [hname]; rfl, ?_, ?_, ?_⟩
    · exact Bool.eq_false_iff.mpr fun hspace => by simp [isNameChar_of_isSpace hspace] at hc
    · rintro rfl
      exact absurd hc (by decide)
    · rintro rfl
      exact absurd hc (by decide)
  · have hkey : key? (name.toList ++ ' ' :: '=' :: ' ' :: (value ++ '\n' :: rest)) =
        some (⟨[], name⟩, '=' :: ' ' :: (value ++ '\n' :: rest)) :=
      key?_append h (ends_cons (by decide) _) (by simp [skip, isSpace])
    have hbracket := h.head_ne (c := '[') (by decide) (' ' :: '=' :: ' ' :: (value ++ '\n' :: rest))
    have hequals : equals? ('=' :: ' ' :: (value ++ '\n' :: rest)) =
      some (skip (value ++ '\n' :: rest)) := rfl
    have hend : lineEnd? ('\n' :: rest) = some rest := rfl
    simp only [List.append_assoc, List.cons_append, List.nil_append]
    unfold line?
    split
    · rename_i heq
      exact absurd (congrArg List.head? heq) hbracket
    · rename_i heq
      exact absurd (congrArg List.head? heq) hbracket
    · simp [hkey, hequals, hvalue rest, hend]

/-! ### Documents -/

/-- A text that is put together from lines and line ends between them. -/
inductive Lists : List Char → List Line → Prop where
  /-- Nothing. -/
  | nil : Lists [] []
  /-- An empty line. -/
  | blank {cs : List Char} {ls : List Line} : Lists cs ls → Lists ('\n' :: cs) ls
  /-- A line that says something. -/
  | line {text cs : List Char} {l : Line} {ls : List Line} :
    IsLine text l → Lists cs ls → Lists (text ++ cs) (l :: ls)

theorem Lists.linesOf? (h : Lists cs ls) {n : Nat} (hn : cs.length < n) :
    linesOf? n cs = some ls := by
  induction h generalizing n with
  | nil =>
    obtain ⟨n, rfl⟩ : ∃ k, n = k + 1 := ⟨n - 1, by omega⟩
    rfl
  | @blank cs ls _ ih =>
    obtain ⟨n, rfl⟩ : ∃ k, n = k + 1 := ⟨n - 1, by omega⟩
    rw [← ih (n := n + 1) (Nat.lt_of_succ_lt hn)]
    rfl
  | @line text cs l ls hline _ ih =>
    obtain ⟨c, ds, rfl, hspace, hend, hcomment⟩ := hline.starts
    obtain ⟨n, rfl⟩ : ∃ k, n = k + 1 := ⟨n - 1, by omega⟩
    have hgap : gap false (c :: ds ++ cs) = c :: ds ++ cs := by simp [gap, hspace, hend, hcomment]
    have hrest := ih (n := n) (by simp at hn; omega)
    have hread := hline.read cs
    rw [Toml.linesOf?, hgap]
    rw [List.cons_append] at hread ⊢
    simp [hread, hrest]

theorem unifyLineEnds_of_notMem (h : '\r' ∉ cs) : unifyLineEnds cs = cs := by
  fun_induction unifyLineEnds cs with
  | case1 => rfl
  | case2 cs ih => simp at h
  | case3 c cs hcs ih => rw [ih (fun hmem => h (List.mem_cons_of_mem c hmem))]

/-- A text has the lines that it was put together from. -/
theorem Lists.lines? (h : Lists cs ls) (hreturn : '\r' ∉ cs) (hmark : cs.head? ≠ some '\ufeff') :
    lines? (String.ofList cs) = some ls := by
  have hdrop : dropMark cs = cs := by
    unfold dropMark
    split
    · simp at hmark
    · rfl
  rw [Toml.lines?, String.toList_ofList, hdrop, unifyLineEnds_of_notMem hreturn]
  exact h.linesOf? (Nat.lt_succ_self _)

end Resumable.Toml
