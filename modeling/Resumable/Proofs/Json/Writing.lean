import Resumable.Json.Reader
import Resumable.Proofs.Json.Numerals

/-!
# JSON as it is written and read

Every JSON value has a text, and the reader takes the text apart into what was written: the words,
the strings piece by piece and the numbers digit by digit. What has no JSON form, a NaN or an
infinity, was written as `null` and is found as such.

## The model

* `Json.written`: the text of a value as the reader is to find it.
* `Json.ReadBack`: a value is found again in its text, whatever follows there.

## What is proved

* `text?_pieces`: the pieces of a written string are the string again.
* `raw?_toText`: the text of a value is read as it was written.
* `visible_render`: the text of a value is one line.
-/

namespace Resumable.Json

open Text (Ends ends_nil ends_cons)

variable {cs rest : List Char} {c : Char} {j : Json} {n : Nat}

/-! ### Strings -/

/-- The piece by which a character of a string is found: controls without a letter of their own are
written by their code. -/
def piece (c : Char) : Piece :=
  if c.toNat < 0x20 ∧ c ∉ ['\x08', '\t', '\n', '\x0c', '\r'] then .code c.toNat else .char c

/-- The pieces of a string. -/
def pieces (s : String) : List Piece := s.toList.map piece

theorem padLeft_hexadecimal : ∀ n < 0x20, Text.padLeft 4 '0' (Text.hexadecimal n) =
    ['0', '0', Nat.digitChar (n / 16), Nat.digitChar (n % 16)] := by decide

theorem digitOf_digitChar : ∀ d < 16, Text.digitOf 16 (Nat.digitChar d) = some d := by decide

/-- Reading an escaped character gives one piece. -/
theorem stringBody_escape (c : Char) (cs : List Char) :
    stringBody .plain (escape c ++ cs) =
      (stringBody .plain cs).map fun x => (piece c :: x.1, x.2) := by
  unfold escape
  split
  case h_8 h1 h2 h3 h4 h5 h6 h7 =>
    split
    · rename_i hlt
      have hpiece : piece c = .code c.toNat := by
        rw [piece, if_pos]
        simp_all
      have hhigh := digitOf_digitChar (c.toNat / 16) (by omega)
      have hlow := digitOf_digitChar (c.toNat % 16) (by omega)
      have hzero : Text.digitOf 16 '0' = some 0 := by decide
      have hsum : c.toNat / 16 * 16 + c.toNat % 16 = c.toNat := by omega
      rw [padLeft_hexadecimal c.toNat hlt, hpiece]
      simp [stringBody, hhigh, hlow, hzero, hsum]
    · rename_i hge
      have hpiece : piece c = .char c := by rw [piece, if_neg (by omega)]
      have hquote : c ≠ '"' := h1
      have hslash : c ≠ '\\' := h2
      rw [hpiece]
      simp [stringBody, hge, hquote, hslash]
  all_goals rfl

theorem string?_render (s : String) (rest : List Char) :
    string? (renderString s ++ rest) = some (pieces s, rest) := by
  have hbody : ∀ cs : List Char,
      stringBody .plain (cs.flatMap escape ++ '"' :: rest) = some (cs.map piece, rest) := by
    intro cs
    induction cs with
    | nil => rfl
    | cons c cs ih =>
      rw [List.flatMap_cons, List.append_assoc, stringBody_escape, ih, Option.map_some,
        List.map_cons]
  rw [renderString, List.cons_append, List.append_assoc]
  exact hbody s.toList

/-- The pieces of a written string are the string again. -/
theorem text?_pieces (s : String) : text? (pieces s) = some s := by
  have hdecode : ∀ cs : List Char, decode none (cs.map piece) = some cs := by
    intro cs
    induction cs with
    | nil => rfl
    | cons c cs ih =>
      rw [List.map_cons, piece]
      split
      · rename_i hcode
        have hchar : code? none c.toNat = some (.char c) := by
          rw [code?, if_neg (by omega), if_neg (by omega), Char.ofNat_toNat]
        simp [decode, hchar, ih]
      · simp [decode, ih]
  rw [text?, pieces, hdecode, Option.map_some, String.ofList_toList]

/-! ### Values -/

mutual
/-- The text of a value as it is found. -/
def written : Json → Raw
  | .null => .null
  | .bool b => .bool b
  | .number n => match numeral? n.render with
    | some (nm, _) => .number nm
    | none => .null
  | .string s => .string (pieces s)
  | .array items => .array (writtenItems items)
  | .object fields => .object (writtenFields fields)

/-- The items of an array as they are found. -/
def writtenItems : List Json → List Raw
  | [] => []
  | j :: js => j.written :: writtenItems js

/-- The fields of an object as they are found. -/
def writtenFields : List (String × Json) → List (List Piece × Raw)
  | [] => []
  | (name, j) :: fs => (pieces name, j.written) :: writtenFields fs
end

/-- A natural number is found by its digits. -/
theorem written_natural (n : Nat) :
    written (.number (.integer n)) = .number ⟨false, Text.decimal n, none, none⟩ := by
  have hsign : ¬ (n : Int) < 0 := by omega
  have hwrites : Numeral.Writes (Number.integer n).render ⟨false, Text.decimal n, none, none⟩ := by
    have := Numeral.Writes.mk false (Text.isRun_decimal n) (unpadded_decimal n) .none .none
    simpa [Number.render, renderInteger, hsign] using this
  have hread := numeral?_append hwrites ends_nil
  rw [List.append_nil] at hread
  rw [written, hread]

theorem writtenItems_eq_map (js : List Json) : writtenItems js = js.map written := by
  induction js with
  | nil => rfl
  | cons j js ih => rw [writtenItems, ih, List.map_cons]

theorem writtenFields_eq_map (fs : List (String × Json)) :
    writtenFields fs = fs.map fun f => (pieces f.1, f.2.written) := by
  induction fs with
  | nil => rfl
  | cons f fs ih => rw [writtenFields, ih, List.map_cons]

/-- The fields of an object are found under their names. -/
theorem Raw.named?_writtenFields (fields : List (String × Json)) :
    named? (writtenFields fields) = some (fields.map fun f => (f.1, f.2.written)) := by
  induction fields with
  | nil => rfl
  | cons f fields ih =>
    obtain ⟨name, j⟩ := f
    rw [writtenFields, named?, text?_pieces, ih]
    rfl

theorem renderItems_eq_map (js : List Json) : renderItems js = js.map render := by
  induction js with
  | nil => rfl
  | cons j js ih => rw [renderItems, ih, List.map_cons]

/-- The text of a field. -/
def renderField (f : String × Json) : List Char := renderString f.1 ++ ':' :: f.2.render

theorem renderFields_eq_map (fs : List (String × Json)) : renderFields fs = fs.map renderField := by
  induction fs with
  | nil => rfl
  | cons f fs ih => rw [renderFields, ih, List.map_cons, renderField]

/-- A text starts as a value or a field does: with no blank and no closing bracket. -/
def Starts (cs : List Char) : Prop :=
  ∃ c ds, cs = c :: ds ∧ isSpace c = false ∧ c ≠ ']' ∧ c ≠ '\x7d'

theorem Starts.skip_append (h : Starts cs) (rest : List Char) : skip (cs ++ rest) = cs ++ rest := by
  obtain ⟨c, ds, rfl, hc, -⟩ := h
  rw [List.cons_append, skip, List.dropWhile_cons_of_neg (by simp [hc])]

theorem starts_of_isDigit (h : Decimal.isDigit c = true) (cs : List Char) : Starts (c :: cs) := by
  refine ⟨c, cs, rfl, ?_, ?_, ?_⟩
  · cases hspace : isSpace c with
    | false => rfl
    | true =>
      simp only [isSpace, Bool.or_eq_true, beq_iff_eq] at hspace
      rcases hspace with ((rfl | rfl) | rfl) | rfl <;> exact absurd h (by decide)
  · rintro rfl
    exact absurd h (by decide)
  · rintro rfl
    exact absurd h (by decide)

theorem starts_of_writes {nm : Numeral} (h : Numeral.Writes cs nm) : Starts cs := by
  obtain ⟨negative, run, -, -, -⟩ := h
  cases negative with
  | true => exact ⟨'-', _, rfl, by decide, by decide, by decide⟩
  | false =>
    obtain ⟨d, ds, rfl, hd⟩ := run.cons
    exact starts_of_isDigit hd _

theorem starts_render (j : Json) : Starts j.render := by
  cases j with
  | null => exact ⟨_, _, rfl, by decide, by decide, by decide⟩
  | bool b => cases b <;> exact ⟨_, _, rfl, by decide, by decide, by decide⟩
  | string | array | object => exact ⟨_, _, rfl, by decide, by decide, by decide⟩
  | number n =>
    cases hfinite : n.isFinite with
    | true =>
      obtain ⟨nm, hnm⟩ := Number.exists_writes hfinite
      exact starts_of_writes hnm
    | false =>
      cases n with
      | integer => simp [Number.isFinite] at hfinite
      | float x =>
        cases x with
        | finite => simp [Number.isFinite, Double.isFinite] at hfinite
        | nan | infinity => exact ⟨_, _, rfl, by decide, by decide, by decide⟩

theorem starts_renderField (f : String × Json) : Starts (renderField f) :=
  ⟨'"', _, rfl, by decide, by decide, by decide⟩

/-! ### Members between brackets -/

variable {α β : Type} {read : List Char → Option (α × List Char)} {write : β → List Char}
  {found : β → α} {bs : List β} {close : Char}

theorem commas_singleton (a : List Char) : commas [a] = a := by simp [commas]

theorem commas_cons_cons (a b : List Char) (pieces : List (List Char)) :
    commas (a :: b :: pieces) = a ++ ',' :: commas (b :: pieces) := by
  simp [commas, List.intercalate]

theorem length_le_commas {piece : List Char} {pieces : List (List Char)} (h : piece ∈ pieces) :
    piece.length ≤ (commas pieces).length := by
  induction pieces with
  | nil => simp at h
  | cons a pieces ih =>
    cases pieces with
    | nil =>
      rw [commas_singleton, List.mem_singleton.mp h]
    | cons b pieces =>
      rw [commas_cons_cons]
      simp only [List.length_append, List.length_cons] at ih ⊢
      rcases List.mem_cons.mp h with rfl | h
      · omega
      · have := ih h
        omega

theorem length_le_commas_map (hstart : ∀ b, Starts (write b)) (bs : List β) :
    bs.length ≤ (commas (bs.map write)).length := by
  induction bs with
  | nil => exact Nat.zero_le _
  | cons a bs ih =>
    obtain ⟨c, ds, heq, -⟩ := hstart a
    cases bs with
    | nil => simp [commas_singleton, heq]
    | cons b bs =>
      rw [List.map_cons, List.map_cons, commas_cons_cons, ← List.map_cons, heq]
      simp only [List.length_append, List.length_cons] at ih ⊢
      omega

/-- Written members are read back if each of them is. -/
theorem members_append (hclose : close = ']' ∨ close = '\x7d') (hne : bs ≠ [])
    (hstart : ∀ b, Starts (write b)) (hlen : bs.length ≤ n)
    (h : ∀ b ∈ bs, ∀ rest, EndsNumeral rest → read (write b ++ rest) = some (found b, rest))
    (rest : List Char) :
    members close read n (commas (bs.map write) ++ close :: rest) = some (bs.map found, rest) := by
  induction bs generalizing n with
  | nil => exact absurd rfl hne
  | cons b bs ih =>
    obtain ⟨n, rfl⟩ : ∃ k, n = k + 1 := ⟨n - 1, by simp only [List.length_cons] at hlen; omega⟩
    have hb := h b (List.mem_cons_self ..)
    cases bs with
    | nil =>
      have hread : read (write b ++ close :: rest) = some (found b, close :: rest) := by
        rcases hclose with rfl | rfl <;> exact hb _ (ends_cons (by decide) _)
      have hskip : skip (close :: rest) = close :: rest := by rcases hclose with rfl | rfl <;> rfl
      rw [List.map_singleton, commas_singleton, members, (hstart b).skip_append, hread]
      rcases hclose with rfl | rfl <;> simp [hskip]
    | cons b' bs =>
      have hothers := ih (by simp) (by simpa using hlen) fun x hx => h x (List.mem_cons_of_mem _ hx)
      have hread := hb (',' :: (commas ((b' :: bs).map write) ++ close :: rest))
        (ends_cons (by decide) _)
      have hskip : ∀ cs, skip (',' :: cs) = ',' :: cs := fun cs => rfl
      rw [List.map_cons, List.map_cons, commas_cons_cons, ← List.map_cons, List.append_assoc,
        members, (hstart b).skip_append, List.cons_append, hread]
      simp only [List.map_cons] at hothers
      simp only [Option.bind_eq_bind, Option.bind_some, hskip, hothers, List.map_cons]

theorem group_append (hclose : close = ']' ∨ close = '\x7d') (hstart : ∀ b, Starts (write b))
    (hlen : bs.length ≤ n)
    (h : ∀ b ∈ bs, ∀ rest, EndsNumeral rest → read (write b ++ rest) = some (found b, rest))
    (rest : List Char) :
    group close read n (commas (bs.map write) ++ close :: rest) = some (bs.map found, rest) := by
  cases bs with
  | nil =>
    have hskip : skip (close :: rest) = close :: rest := by rcases hclose with rfl | rfl <;> rfl
    simp [group, commas, hskip]
  | cons b bs =>
    have hmembers := members_append hclose (by simp) hstart hlen h rest
    obtain ⟨c, ds, heq, hc, hsquare, hcurly⟩ :
        Starts (commas ((b :: bs).map write) ++ close :: rest) := by
      obtain ⟨c, ds, heq, hc⟩ := hstart b
      cases bs with
      | nil =>
        rw [List.map_singleton, commas_singleton, heq]
        exact ⟨c, _, rfl, hc⟩
      | cons b' bs =>
        rw [List.map_cons, List.map_cons, commas_cons_cons, heq]
        exact ⟨c, _, rfl, hc⟩
    have hskip : skip (c :: ds) = c :: ds := by
      rw [skip, List.dropWhile_cons_of_neg (by simp [hc])]
    have hne : c ≠ close := by rcases hclose with rfl | rfl <;> assumption
    rw [heq] at hmembers ⊢
    simp [group, hskip, hne, hmembers]

theorem field_append {read : List Char → Option (Raw × List Char)} (f : String × Json)
    (h : read (f.2.render ++ rest) = some (f.2.written, rest)) :
    field read (renderField f ++ rest) = some ((pieces f.1, f.2.written), rest) := by
  have hskip : ∀ cs, skip (':' :: cs) = ':' :: cs := fun cs => rfl
  rw [renderField, List.append_assoc, field, string?_render]
  simp [hskip, (starts_render f.2).skip_append, h]

/-! ### Whole texts -/

/-- **Induction over members**: what holds of words, numbers and strings, and of an array or an
object if it holds of its members, holds of every value. -/
theorem members_induction {P : Json → Prop} (null : P .null) (bool : ∀ b, P (.bool b))
    (number : ∀ n, P (.number n)) (string : ∀ s, P (.string s))
    (array : ∀ items, (∀ j ∈ items, P j) → P (.array items))
    (object : ∀ fields, (∀ f ∈ fields, P f.2) → P (.object fields)) (j : Json) : P j :=
  @Json.rec P (fun items => ∀ j ∈ items, P j) (fun fields => ∀ f ∈ fields, P f.2) (fun f => P f.2)
    null bool number string array object (fun _ h => absurd h List.not_mem_nil)
    (fun _ _ hj hjs => List.forall_mem_cons.mpr ⟨hj, hjs⟩) (fun _ h => absurd h List.not_mem_nil)
    (fun _ _ hf hfs => List.forall_mem_cons.mpr ⟨hf, hfs⟩) (fun _ _ hj => hj) j

/-- A value is read back from its text, whatever follows. -/
def ReadBack (j : Json) : Prop :=
  ∀ n rest, j.render.length ≤ n → EndsNumeral rest →
    value? n (j.render ++ rest) = some (j.written, rest)

theorem value?_of_writes {nm : Numeral} (h : Numeral.Writes cs nm) (hrest : EndsNumeral rest) :
    value? n (cs ++ rest) = some (.number nm, rest) := by
  have hread := numeral?_append h hrest
  obtain ⟨c, ds, rfl, hc⟩ : ∃ c ds, cs = c :: ds ∧ (c = '-' ∨ Decimal.isDigit c = true) := by
    obtain ⟨negative, run, -, -, -⟩ := h
    cases negative with
    | true => exact ⟨'-', _, rfl, .inl rfl⟩
    | false =>
      obtain ⟨d, ds, rfl, hd⟩ := run.cons
      exact ⟨d, _, rfl, .inr hd⟩
  rw [List.cons_append] at hread ⊢
  unfold value?
  split
  case h_9 => rw [hread, Option.map_some]
  all_goals
    obtain ⟨rfl, -⟩ := List.cons.inj ‹_›
    exact absurd hc (by decide)

theorem readBack_number (x : Number) : ReadBack (.number x) := by
  intro n rest _ hrest
  cases hfinite : x.isFinite with
  | true =>
    obtain ⟨nm, hnm⟩ := Number.exists_writes hfinite
    have hread := numeral?_append hnm ends_nil
    rw [List.append_nil] at hread
    rw [render, value?_of_writes hnm hrest, written, hread]
  | false =>
    cases x with
    | integer => simp [Number.isFinite] at hfinite
    | float x =>
      cases x with
      | finite => simp [Number.isFinite, Double.isFinite] at hfinite
      | nan | infinity => cases n <;> rfl

theorem readBack_string (s : String) : ReadBack (.string s) := by
  intro n rest _ _
  have hread := string?_render s rest
  rw [renderString, List.cons_append] at hread
  rw [render, renderString, List.cons_append, written]
  cases n <;> simp only [value?, hread, Option.map_some]

theorem readBack_array {items : List Json} (h : ∀ j ∈ items, ReadBack j) :
    ReadBack (.array items) := by
  intro n rest hlen _
  rw [render, renderItems_eq_map] at hlen ⊢
  simp only [List.length_cons, List.length_append, List.length_nil] at hlen
  obtain ⟨n, rfl⟩ : ∃ k, n = k + 1 := ⟨n - 1, by omega⟩
  have hcount := length_le_commas_map starts_render items
  have hitems : ∀ j ∈ items, ∀ rest, EndsNumeral rest →
      value? n (j.render ++ rest) = some (j.written, rest) := by
    intro j hj rest hrest
    have := length_le_commas (List.mem_map_of_mem (f := render) hj)
    exact h j hj n rest (by omega) hrest
  have hgroup := group_append (.inl rfl) starts_render (n := n) (by omega) hitems rest
  rw [List.cons_append, List.append_assoc, List.singleton_append, value?, hgroup, written,
    writtenItems_eq_map, Option.map_some]

theorem readBack_object {fields : List (String × Json)} (h : ∀ f ∈ fields, ReadBack f.2) :
    ReadBack (.object fields) := by
  intro n rest hlen _
  rw [render, renderFields_eq_map] at hlen ⊢
  simp only [List.length_cons, List.length_append, List.length_nil] at hlen
  obtain ⟨n, rfl⟩ : ∃ k, n = k + 1 := ⟨n - 1, by omega⟩
  have hcount := length_le_commas_map starts_renderField fields
  have hfields : ∀ f ∈ fields, ∀ rest, EndsNumeral rest →
      field (value? n) (renderField f ++ rest) = some ((pieces f.1, f.2.written), rest) := by
    intro f hf rest hrest
    have := length_le_commas (List.mem_map_of_mem (f := renderField) hf)
    simp only [renderField, List.length_append, List.length_cons] at this
    exact field_append f (h f hf n rest (by omega) hrest)
  have hgroup := group_append (.inr rfl) starts_renderField (n := n) (by omega) hfields rest
  rw [List.cons_append, List.append_assoc, List.singleton_append, value?, hgroup, written,
    writtenFields_eq_map, Option.map_some]

theorem readBack (j : Json) : ReadBack j := by
  induction j using members_induction with
  | null => intro n rest _ _; cases n <;> rfl
  | bool b => intro n rest _ _; cases b <;> cases n <;> rfl
  | number x => exact readBack_number x
  | string s => exact readBack_string s
  | array items ih => exact readBack_array ih
  | object fields ih => exact readBack_object ih

/-- **The text of a value is read as it was written.** -/
theorem raw?_toText (j : Json) : raw? j.toText = some j.written := by
  have hskip := (starts_render j).skip_append []
  have hread := readBack j j.render.length [] (Nat.le_refl _) ends_nil
  rw [List.append_nil] at hskip hread
  simp only [raw?, toText, String.toList_ofList, hskip, hread]
  rfl

/-! ### One line -/

/-- A text has no control characters, among which the line ends are. -/
def Visible (cs : List Char) : Prop := ∀ c ∈ cs, 0x20 ≤ c.toNat

theorem Visible.append {ds : List Char} (hcs : Visible cs) (hds : Visible ds) :
    Visible (cs ++ ds) :=
  List.forall_mem_append.mpr ⟨hcs, hds⟩

theorem Visible.cons (hc : 0x20 ≤ c.toNat) (hcs : Visible cs) : Visible (c :: cs) :=
  List.forall_mem_cons.mpr ⟨hc, hcs⟩

theorem visible_nil : Visible [] := fun _ h => absurd h List.not_mem_nil

theorem visible_of_isRun (h : Decimal.IsRun cs) : Visible cs := by
  intro c hc
  have hdigit := h.digits c hc
  simp only [Decimal.isDigit, Bool.and_eq_true, decide_eq_true_eq] at hdigit
  exact Nat.le_trans (by decide) hdigit.1

theorem visible_of_writes {nm : Numeral} (h : Numeral.Writes cs nm) : Visible cs := by
  obtain ⟨negative, run, -, hfraction, hscaling⟩ := h
  have hsign : Visible (if negative then ['-'] else []) := by
    cases negative with
    | true => exact .cons (by decide) visible_nil
    | false => exact visible_nil
  refine hsign.append ((visible_of_isRun run).append (.append ?_ ?_))
  · cases hfraction with
    | none => exact visible_nil
    | point run => exact .cons (by decide) (visible_of_isRun run)
  · cases hscaling with
    | none => exact visible_nil
    | plain letter run =>
      rcases letter with rfl | rfl <;> exact .cons (by decide) (visible_of_isRun run)
    | plus letter run | minus letter run =>
      rcases letter with rfl | rfl <;>
        exact .cons (by decide) (.cons (by decide) (visible_of_isRun run))

theorem visible_number (n : Number) : Visible n.render := by
  cases hfinite : n.isFinite with
  | true =>
    obtain ⟨nm, hnm⟩ := Number.exists_writes hfinite
    exact visible_of_writes hnm
  | false =>
    cases n with
    | integer => simp [Number.isFinite] at hfinite
    | float x =>
      cases x with
      | finite => simp [Number.isFinite, Double.isFinite] at hfinite
      | nan | infinity => simp [Number.render, renderDouble, Visible]

theorem visible_escape (c : Char) : Visible (escape c) := by
  have hdigit : ∀ d < 16, 0x20 ≤ (Nat.digitChar d).toNat := by decide
  unfold escape
  split
  case h_8 =>
    split
    · rename_i hlt
      rw [padLeft_hexadecimal c.toNat hlt]
      have hhigh := hdigit (c.toNat / 16) (by omega)
      have hlow := hdigit (c.toNat % 16) (by omega)
      simp [Visible, hhigh, hlow]
    · rename_i hge
      exact .cons (by omega) visible_nil
  all_goals simp [Visible]

theorem visible_string (s : String) : Visible (renderString s) := by
  refine .cons (by decide) (.append (fun x hx => ?_) (.cons (by decide) visible_nil))
  obtain ⟨c, -, hc⟩ := List.mem_flatMap.mp hx
  exact visible_escape c x hc

theorem visible_commas {texts : List (List Char)} (h : ∀ cs ∈ texts, Visible cs) :
    Visible (commas texts) := by
  induction texts with
  | nil => exact visible_nil
  | cons cs texts ih =>
    obtain ⟨hcs, htexts⟩ := List.forall_mem_cons.mp h
    cases texts with
    | nil =>
      rw [commas_singleton]
      exact hcs
    | cons ds texts =>
      rw [commas_cons_cons]
      exact hcs.append (.cons (by decide) (ih htexts))

/-- The text of a value has no control characters: it is one line. -/
theorem visible_render (j : Json) : Visible j.render := by
  induction j using members_induction with
  | null => simp [render, Visible]
  | bool b => cases b <;> simp [render, Visible]
  | number x => exact visible_number x
  | string s => exact visible_string s
  | array items ih =>
    rw [render, renderItems_eq_map]
    refine .cons (by decide) (.append (visible_commas ?_) (.cons (by decide) visible_nil))
    exact List.forall_mem_map.mpr ih
  | object fields ih =>
    rw [render, renderFields_eq_map]
    refine .cons (by decide) (.append (visible_commas ?_) (.cons (by decide) visible_nil))
    refine List.forall_mem_map.mpr fun f hf => ?_
    exact (visible_string f.1).append (.cons (by decide) (ih f hf))

end Resumable.Json
