import Resumable.Proofs.Decimal.Literal
import Resumable.Statement.Shape

/-!
# The parts of a statement

A statement is classified by patterns that are tried one after the other, and each pattern takes as
many characters of a kind as it can. This module says without patterns what the parts of a statement
are, and that a text has them in one way only, so that neither the order of the patterns nor where
they stop is a choice.

## The model

* `Target`: what stands before the equals sign of an assignment: a keyword, blanks and a name; a
  name; or a name, a point and a name.
* `Assignment`: a target, blanks, an equals sign and a value, which starts with no second equals
  sign. `Assignment.text` is its text and `Assignment.shape` what a statement with that text does.
* `Binding`: a keyword, blanks, a name, blanks, an equals sign and any text.
* `StartsThrow`: a text starts with the word `throw`.

## What is proved

* `Assignment.text_injective`: a text is an assignment in one way only. In particular it has one
  kind of target.
* `classify_of_text`, `classify_of_forall_ne`: a text that is an assignment is classified as that,
  and any other one as a raised error or an expression.
* `classify_unambiguous`: what a statement is classified as and what it binds, in terms of the parts
  of its text.
-/

namespace Resumable

/-! ### Words and blanks -/

namespace Text

variable {p : Char → Bool} {c : Char} {cs ds es rest behind : List Char}

/-- Characters of one kind at the start of a text, up to one of another kind, are determined by the
text. -/
theorem append_inj_of_ends (hds : ∀ c ∈ ds, p c = true) (hrest : Ends p rest)
    (hes : ∀ c ∈ es, p c = true) (hbehind : Ends p behind) (h : ds ++ rest = es ++ behind) :
    ds = es ∧ rest = behind := by
  have hspan := span_append hds hrest
  rw [h, span_append hes hbehind] at hspan
  obtain ⟨rfl, rfl⟩ := Prod.mk.inj hspan
  exact ⟨rfl, rfl⟩

/-- Two properties whose ranges lie apart have no character in common. -/
theorem CodeRanges.has_eq_false {rs ws : CodeRanges}
    (apart : ∀ r ∈ rs, ∀ w ∈ ws, r.2 < w.1 ∨ w.2 < r.1) (hc : rs.has c = true) :
    ws.has c = false := by
  obtain ⟨r, hr, hrange⟩ := List.any_eq_true.mp hc
  refine List.any_eq_false.mpr fun w hw => ?_
  have := apart r hr w hw
  simp only [Bool.and_eq_true, decide_eq_true_eq] at hrange ⊢
  omega

theorem isWord_of_isBlank (h : isBlank c = true) : isWord c = false :=
  CodeRanges.has_eq_false (by decide +kernel) h

theorem isBlank_of_isWord (h : isWord c = true) : isBlank c = false := by
  cases hc : isBlank c with
  | false => rfl
  | true =>
    rw [isWord_of_isBlank hc] at h
    simp at h

theorem trimStart_append (hds : ∀ c ∈ ds, isBlank c = true) (hrest : Ends isBlank rest) :
    trimStart (ds ++ rest) = rest := by
  have hspan := span_append hds hrest
  rw [List.span_eq_takeWhile_dropWhile] at hspan
  exact (Prod.mk.inj hspan).2

/-- Before what is left of a text without its leading blanks, there were blanks. -/
theorem exists_of_trimStart (h : trimStart cs = rest) :
    ∃ ds, (∀ c ∈ ds, isBlank c = true) ∧ ds ++ rest = cs := by
  refine ⟨cs.takeWhile isBlank, fun c hc => List.mem_takeWhile_imp hc, ?_⟩
  rw [← h, trimStart, List.takeWhile_append_dropWhile]

end Text

namespace Statement

open Text (Ends ends_cons isBlank isWord trimStart_append exists_of_trimStart append_inj_of_ends)

variable {cs gap rest value : List Char} {name object field : String}

/-! ### Parts -/

/-- The name of a variable or a field. -/
@[ext] structure Word where
  /-- Its characters. -/
  chars : List Char
  /-- There is one. -/
  nonempty : chars ≠ []
  /-- All of them may stand in a word. -/
  words : ∀ c ∈ chars, isWord c = true

/-- The name as a text. -/
def Word.text (w : Word) : String := String.ofList w.chars

/-- The keywords of declarations. -/
def keywords : List (List Char) := ["const".toList, "let".toList, "var".toList]

/-- A keyword, blanks and the name that is declared. -/
@[ext] structure Declarator where
  /-- The keyword. -/
  keyword : List Char
  /-- The blanks behind it. -/
  gap : List Char
  /-- The name. -/
  name : Word
  /-- The keyword is one. -/
  known : keyword ∈ keywords
  /-- There is a blank. -/
  apart : gap ≠ []
  /-- There is nothing else between keyword and name. -/
  blank : ∀ c ∈ gap, isBlank c = true

/-- The text of a keyword, blanks and a name. -/
def Declarator.text (d : Declarator) : List Char := d.keyword ++ (d.gap ++ d.name.chars)

/-- What stands before the equals sign of an assignment. -/
inductive Target where
  /-- A declared variable. -/
  | declared (d : Declarator)
  /-- A variable. -/
  | plain (name : Word)
  /-- A field of a variable. -/
  | field (object field : Word)

/-- The text of a target. -/
def Target.text : Target → List Char
  | .declared d => d.text
  | .plain name => name.chars
  | .field object field => object.chars ++ '.' :: field.chars

/-- What a statement does that gives a target a value. -/
def Target.shape (t : Target) (value : String) : Shape :=
  match t with
  | .declared d => .declare d.name.text value
  | .plain name => .assign name.text value
  | .field object field => .assignField object.text field.text value

/-- A target, blanks, an equals sign and a value. -/
@[ext] structure Assignment where
  /-- The target. -/
  target : Target
  /-- The blanks behind it. -/
  gap : List Char
  /-- The text of the value, with the blanks around it. -/
  value : List Char
  /-- There is nothing else between target and sign. -/
  blank : ∀ c ∈ gap, isBlank c = true
  /-- There is a value. -/
  given : value ≠ []
  /-- It does not start with a second sign. -/
  single : value.head? ≠ some '='

/-- The text of an assignment. -/
def Assignment.text (a : Assignment) : List Char := a.target.text ++ (a.gap ++ '=' :: a.value)

/-- What a statement does that is an assignment. -/
def Assignment.shape (a : Assignment) : Shape := a.target.shape (String.ofList a.value)

/-- The start of a declaration up to its equals sign, and whatever follows. -/
structure Binding where
  /-- The keyword and the name. -/
  declarator : Declarator
  /-- The blanks behind the name. -/
  gap : List Char
  /-- The text behind the equals sign. -/
  rest : List Char
  /-- There is nothing else between name and sign. -/
  blank : ∀ c ∈ gap, isBlank c = true

/-- The text of a binding. -/
def Binding.text (b : Binding) : List Char := b.declarator.text ++ (b.gap ++ '=' :: b.rest)

/-- A text starts with the word `throw`. -/
def StartsThrow (cs : List Char) : Prop := ∃ rest, "throw".toList ++ rest = cs ∧ Ends isWord rest

/-! ### Where parts end -/

theorem isWord_of_mem_keywords {keyword : List Char} (h : keyword ∈ keywords) :
    ∀ c ∈ keyword, isWord c = true := by
  simp only [keywords, List.mem_cons, List.not_mem_nil, or_false] at h
  rcases h with rfl | rfl | rfl <;> exact List.all_eq_true.mp (by decide)

theorem isBlank_equals : isBlank '=' = false := by decide

theorem isWord_equals : isWord '=' = false := by decide +kernel

theorem isWord_point : isWord '.' = false := by decide +kernel

/-- Blanks end a word. -/
theorem ends_isWord_of_blank (hgap : ∀ c ∈ gap, isBlank c = true) (hne : gap ≠ [])
    (rest : List Char) : Ends isWord (gap ++ rest) := by
  obtain ⟨c, gap, rfl⟩ := List.exists_cons_of_ne_nil hne
  exact ends_cons (Text.isWord_of_isBlank (hgap c (List.mem_cons_self ..))) _

/-- Blanks and an equals sign end a word. -/
theorem ends_isWord_of_equals (hgap : ∀ c ∈ gap, isBlank c = true) (rest : List Char) :
    Ends isWord (gap ++ '=' :: rest) := by
  by_cases hne : gap = []
  · rw [hne]
    exact ends_cons isWord_equals rest
  · exact ends_isWord_of_blank hgap hne _

/-- A name ends blanks. -/
theorem Word.ends_isBlank (w : Word) (rest : List Char) : Ends isBlank (w.chars ++ rest) := by
  obtain ⟨c, cs, hcs⟩ := List.exists_cons_of_ne_nil w.nonempty
  rw [hcs]
  refine ends_cons (Text.isBlank_of_isWord (w.words c ?_)) _
  rw [hcs]
  exact List.mem_cons_self ..

theorem Declarator.text_append (d : Declarator) (rest : List Char) :
    d.text ++ rest = d.keyword ++ (d.gap ++ (d.name.chars ++ rest)) := by
  rw [text, List.append_assoc, List.append_assoc]

/-! ### One way only -/

/-- Two texts of a declared name that go on outside of words declare it in the same way. -/
theorem Declarator.append_inj {d e : Declarator} {behind : List Char} (hrest : Ends isWord rest)
    (hbehind : Ends isWord behind) (h : d.text ++ rest = e.text ++ behind) :
    d = e ∧ rest = behind := by
  rw [text_append, text_append] at h
  obtain ⟨hkeyword, h⟩ := append_inj_of_ends (isWord_of_mem_keywords d.known)
    (ends_isWord_of_blank d.blank d.apart _) (isWord_of_mem_keywords e.known)
    (ends_isWord_of_blank e.blank e.apart _) h
  obtain ⟨hgap, h⟩ := append_inj_of_ends d.blank (d.name.ends_isBlank _) e.blank
    (e.name.ends_isBlank _) h
  obtain ⟨hname, h⟩ := append_inj_of_ends d.name.words hrest e.name.words hbehind h
  exact ⟨Declarator.ext hkeyword hgap (Word.ext hname), h⟩

/-- A name is no equals sign. -/
theorem Word.ne_equals {w : Word} : w.chars ++ rest ≠ '=' :: value := by
  obtain ⟨c, cs, hcs⟩ := List.exists_cons_of_ne_nil w.nonempty
  have hword := w.words c (by rw [hcs]; exact List.mem_cons_self ..)
  intro h
  rw [hcs] at h
  obtain ⟨rfl, -⟩ := List.cons.inj h
  rw [isWord_equals] at hword
  simp at hword

/-- A text that starts with blanks starts with nothing else. -/
theorem blanks_ne {c : Char} (hgap : ∀ c ∈ gap, isBlank c = true) (hne : gap ≠ [])
    (hc : isBlank c = false) (rest behind : List Char) : gap ++ rest ≠ c :: behind := by
  obtain ⟨d, gap, rfl⟩ := List.exists_cons_of_ne_nil hne
  intro h
  obtain ⟨rfl, -⟩ := List.cons.inj h
  rw [hgap d (List.mem_cons_self ..)] at hc
  simp at hc

/-- Blanks and an equals sign start with nothing else. -/
theorem equals_ne {c : Char} (hgap : ∀ c ∈ gap, isBlank c = true) (hc : isBlank c = false)
    (hne : c ≠ '=') (rest behind : List Char) : gap ++ '=' :: rest ≠ c :: behind := by
  by_cases hnil : gap = []
  · rw [hnil]
    intro h
    exact hne (List.cons.inj h).1.symm
  · exact blanks_ne hgap hnil hc _ _

theorem Target.field_append (object field : Word) (rest : List Char) :
    (Target.field object field).text ++ rest = object.chars ++ '.' :: (field.chars ++ rest) := by
  rw [text, List.append_assoc, List.cons_append]

/-! Texts of different targets have the same word at their start at most; what follows it tells them
apart. -/

theorem Declarator.ne_plain (d : Declarator) (w : Word) (hgap : ∀ c ∈ gap, isBlank c = true)
    (rest value : List Char) : d.text ++ rest ≠ w.chars ++ (gap ++ '=' :: value) := by
  intro h
  rw [text_append] at h
  obtain ⟨-, h⟩ := append_inj_of_ends (isWord_of_mem_keywords d.known)
    (ends_isWord_of_blank d.blank d.apart _) w.words (ends_isWord_of_equals hgap value) h
  obtain ⟨-, h⟩ := append_inj_of_ends d.blank (d.name.ends_isBlank rest) hgap
    (ends_cons isBlank_equals value) h
  exact Word.ne_equals h

theorem Declarator.ne_field (d : Declarator) (object field : Word) (rest behind : List Char) :
    d.text ++ rest ≠ (Target.field object field).text ++ behind := by
  intro h
  rw [text_append, Target.field_append] at h
  obtain ⟨-, h⟩ := append_inj_of_ends (isWord_of_mem_keywords d.known)
    (ends_isWord_of_blank d.blank d.apart _) object.words (ends_cons isWord_point _) h
  exact blanks_ne d.blank d.apart (by decide) _ _ h

theorem Word.ne_field (w object field : Word) (hgap : ∀ c ∈ gap, isBlank c = true)
    (value behind : List Char) :
    w.chars ++ (gap ++ '=' :: value) ≠ (Target.field object field).text ++ behind := by
  intro h
  rw [Target.field_append] at h
  obtain ⟨-, h⟩ := append_inj_of_ends w.words (ends_isWord_of_equals hgap value) object.words
    (ends_cons isWord_point _) h
  exact equals_ne hgap (by decide) (by decide) _ _ h

/-- A text determines the target at its start, if blanks and an equals sign follow. -/
theorem Target.append_inj {t u : Target} {blanks rest behind : List Char}
    (hgap : ∀ c ∈ gap, isBlank c = true) (hblanks : ∀ c ∈ blanks, isBlank c = true)
    (h : t.text ++ (gap ++ '=' :: rest) = u.text ++ (blanks ++ '=' :: behind)) :
    t = u ∧ gap ++ '=' :: rest = blanks ++ '=' :: behind := by
  have hrest := ends_isWord_of_equals hgap rest
  have hbehind := ends_isWord_of_equals hblanks behind
  cases t with
  | declared d =>
    cases u with
    | declared e =>
      obtain ⟨hd, htail⟩ := Declarator.append_inj hrest hbehind h
      exact ⟨congrArg Target.declared hd, htail⟩
    | plain w => exact absurd h (d.ne_plain w hblanks _ _)
    | field o f => exact absurd h (d.ne_field o f _ _)
  | plain w =>
    cases u with
    | declared e => exact absurd h.symm (e.ne_plain w hgap _ _)
    | plain v =>
      obtain ⟨hchars, htail⟩ := append_inj_of_ends w.words hrest v.words hbehind h
      exact ⟨congrArg Target.plain (Word.ext hchars), htail⟩
    | field o f => exact absurd h (w.ne_field o f hgap _ _)
  | field o f =>
    cases u with
    | declared e => exact absurd h.symm (e.ne_field o f _ _)
    | plain v => exact absurd h.symm (v.ne_field o f hblanks _ _)
    | field o' f' =>
      rw [field_append, field_append] at h
      obtain ⟨ho, h⟩ := append_inj_of_ends o.words (ends_cons isWord_point _) o'.words
        (ends_cons isWord_point _) h
      obtain ⟨hf, htail⟩ := append_inj_of_ends f.words hrest f'.words hbehind (List.cons.inj h).2
      exact ⟨congrArg₂ Target.field (Word.ext ho) (Word.ext hf), htail⟩

/-- A text is an assignment in one way only. -/
theorem Assignment.text_injective : Function.Injective Assignment.text := by
  intro a b h
  obtain ⟨htarget, htail⟩ := Target.append_inj a.blank b.blank h
  obtain ⟨hgap, hvalue⟩ := append_inj_of_ends a.blank (ends_cons isBlank_equals a.value) b.blank
    (ends_cons isBlank_equals b.value) htail
  exact Assignment.ext htarget hgap (List.cons.inj hvalue).2

/-! ### Reading parts -/

theorem word?_eq_some_iff : word? cs = some (name, rest) ↔
    Ends isWord rest ∧ ∃ w : Word, w.chars ++ rest = cs ∧ w.text = name := by
  constructor
  · intro h
    unfold word? at h
    split at h
    · simp at h
    · rename_i w rest' hne hspan
      obtain ⟨rfl, rfl⟩ := Prod.mk.inj (Option.some.inj h)
      obtain ⟨rfl, hwords, hends⟩ := Text.of_span hspan
      exact ⟨hends, ⟨w, hne, hwords⟩, rfl, rfl⟩
  · rintro ⟨hends, w, rfl, rfl⟩
    have hspan : Text.spanWord (w.chars ++ rest) = (w.chars, rest) := Text.span_append w.words hends
    obtain ⟨c, cs, hcs⟩ := List.exists_cons_of_ne_nil w.nonempty
    rw [word?, hspan, Word.text, hcs]

theorem afterKeyword?_eq_some_iff : afterKeyword? cs = some rest ↔
    ∃ keyword ∈ keywords, keyword ++ rest = cs := by
  constructor
  · intro h
    unfold afterKeyword? at h
    split at h
    · cases h
      exact ⟨"const".toList, by decide, rfl⟩
    · cases h
      exact ⟨"let".toList, by decide, rfl⟩
    · cases h
      exact ⟨"var".toList, by decide, rfl⟩
    · cases h
  · rintro ⟨keyword, hkeyword, rfl⟩
    simp only [keywords, List.mem_cons, List.not_mem_nil, or_false] at hkeyword
    rcases hkeyword with rfl | rfl | rfl <;> rfl

theorem declared?_eq_some_iff : declared? cs = some (name, rest) ↔
    Ends isWord rest ∧ ∃ d : Declarator, d.text ++ rest = cs ∧ d.name.text = name := by
  constructor
  · intro h
    unfold declared? at h
    split at h
    · rename_i c behind hkeyword
      split at h
      · rename_i hc
        obtain ⟨keyword, known, rfl⟩ := afterKeyword?_eq_some_iff.mp hkeyword
        obtain ⟨hends, w, hw, hname⟩ := word?_eq_some_iff.mp h
        obtain ⟨gap, hgap, rfl⟩ := exists_of_trimStart hw.symm
        have hblank : ∀ d ∈ c :: gap, isBlank d = true := by
          intro d hd
          rcases List.mem_cons.mp hd with rfl | hd
          · exact hc
          · exact hgap d hd
        refine ⟨hends, ⟨keyword, c :: gap, w, known, List.cons_ne_nil c gap, hblank⟩, ?_, hname⟩
        rw [Declarator.text_append, List.cons_append]
      · cases h
    · cases h
  · rintro ⟨hends, d, rfl, rfl⟩
    obtain ⟨c, gap, hgap⟩ := List.exists_cons_of_ne_nil d.apart
    have hblank := d.blank
    rw [hgap] at hblank
    have hkeyword : afterKeyword? (d.text ++ rest) = some (c :: (gap ++ (d.name.chars ++ rest))) :=
      afterKeyword?_eq_some_iff.mpr ⟨d.keyword, d.known, by
        rw [Declarator.text_append, hgap, List.cons_append]⟩
    have htrim := trimStart_append (fun e he => hblank e (List.mem_cons_of_mem c he))
      (d.name.ends_isBlank rest)
    simp only [declared?, hkeyword, hblank c (List.mem_cons_self ..), if_true, htrim]
    exact word?_eq_some_iff.mpr ⟨hends, d.name, rfl, rfl⟩

theorem fieldOf?_eq_some_iff : fieldOf? cs = some (object, field, rest) ↔
    Ends isWord rest ∧ ∃ o f : Word, (Target.field o f).text ++ rest = cs ∧ o.text = object ∧
      f.text = field := by
  constructor
  · intro h
    unfold fieldOf? at h
    split at h
    · rename_i object' behind hobject
      obtain ⟨⟨field', rest'⟩, hfield, heq⟩ := Option.map_eq_some_iff.mp h
      cases heq
      obtain ⟨-, o, rfl, rfl⟩ := word?_eq_some_iff.mp hobject
      obtain ⟨hends, f, rfl, rfl⟩ := word?_eq_some_iff.mp hfield
      exact ⟨hends, o, f, Target.field_append o f rest, rfl, rfl⟩
    · cases h
  · rintro ⟨hends, o, f, rfl, rfl, rfl⟩
    have hobject := word?_eq_some_iff.mpr
      ⟨ends_cons isWord_point (f.chars ++ rest), o, (Target.field_append o f rest).symm, rfl⟩
    have hfield := word?_eq_some_iff.mpr ⟨hends, f, rfl, rfl⟩
    simp only [fieldOf?, hobject, hfield, Option.map_some]

theorem assigned?_eq_some_iff {value : String} : assigned? cs = some value ↔
    ∃ gap rest : List Char, (∀ c ∈ gap, isBlank c = true) ∧ rest ≠ [] ∧ rest.head? ≠ some '=' ∧
      gap ++ '=' :: rest = cs ∧ String.ofList rest = value := by
  constructor
  · intro h
    unfold assigned? at h
    split at h
    · cases h
    · rename_i c rest hne htrim
      cases h
      obtain ⟨gap, hgap, rfl⟩ := exists_of_trimStart htrim
      refine ⟨gap, c :: rest, hgap, List.cons_ne_nil c rest, ?_, rfl, rfl⟩
      rintro ⟨⟩
      exact hne rfl
    · cases h
  · rintro ⟨gap, rest, hgap, hne, hsingle, rfl, rfl⟩
    obtain ⟨c, rest, rfl⟩ := List.exists_cons_of_ne_nil hne
    have htrim := trimStart_append hgap (ends_cons isBlank_equals (c :: rest))
    rw [assigned?, htrim]
    split
    · rename_i h
      cases h
      exact absurd rfl hsingle
    · rename_i h
      cases h
      rfl
    · rename_i hother
      exact absurd rfl (hother c rest)

theorem raises_iff : raises cs = true ↔ StartsThrow cs := by
  constructor
  · intro h
    unfold raises at h
    split at h
    · rename_i rest
      refine ⟨rest, rfl, ?_⟩
      cases rest with
      | nil => exact Text.ends_nil
      | cons c rest => exact ends_cons (by simpa using h) rest
    · cases h
  · rintro ⟨rest, rfl, hends⟩
    cases rest with
    | nil => rfl
    | cons c rest =>
      have hc : raises ("throw".toList ++ c :: rest) = !isWord c := rfl
      rw [hc, hends.head]
      rfl

/-! ### Classification -/

/-- The shape of the assignment that a text is. -/
def assignmentShape? (cs : List Char) : Option Shape :=
  ((declaration? cs).or (assignment? cs)).or (fieldAssignment? cs)

theorem classify_eq (text : String) : classify text =
    ((assignmentShape? text.toList).or (raised? text.toList)).getD (.expression text) := by
  simp only [classify, assignmentShape?, Option.or_assoc]

theorem exists_assignment {value : String} (t : Target) (h : assigned? rest = some value) :
    ∃ a : Assignment, a.text = t.text ++ rest ∧ a.shape = t.shape value := by
  obtain ⟨gap, rest, hgap, hne, hsingle, rfl, rfl⟩ := assigned?_eq_some_iff.mp h
  exact ⟨⟨t, gap, rest, hgap, hne, hsingle⟩, rfl, rfl⟩

/-- Whatever is read as an assignment is one. -/
theorem exists_of_assignmentShape? {shape : Shape} (h : assignmentShape? cs = some shape) :
    ∃ a : Assignment, a.text = cs ∧ a.shape = shape := by
  rcases Option.or_eq_some_iff.mp h with h | ⟨-, h⟩
  · rcases Option.or_eq_some_iff.mp h with h | ⟨-, h⟩
    · obtain ⟨⟨name, rest⟩, hread, hrest⟩ := Option.bind_eq_some_iff.mp h
      obtain ⟨value, hvalue, rfl⟩ := Option.map_eq_some_iff.mp hrest
      obtain ⟨-, d, rfl, rfl⟩ := declared?_eq_some_iff.mp hread
      exact exists_assignment (.declared d) hvalue
    · obtain ⟨⟨name, rest⟩, hread, hrest⟩ := Option.bind_eq_some_iff.mp h
      obtain ⟨value, hvalue, rfl⟩ := Option.map_eq_some_iff.mp hrest
      obtain ⟨-, w, rfl, rfl⟩ := word?_eq_some_iff.mp hread
      exact exists_assignment (.plain w) hvalue
  · obtain ⟨⟨object, field, rest⟩, hread, hrest⟩ := Option.bind_eq_some_iff.mp h
    obtain ⟨value, hvalue, rfl⟩ := Option.map_eq_some_iff.mp hrest
    obtain ⟨-, o, f, rfl, rfl, rfl⟩ := fieldOf?_eq_some_iff.mp hread
    exact exists_assignment (.field o f) hvalue

/-- Every assignment is read as one. -/
theorem assignmentShape?_text (a : Assignment) : assignmentShape? a.text = some a.shape := by
  have hends := ends_isWord_of_equals a.blank a.value
  have hvalue := assigned?_eq_some_iff.mpr ⟨a.gap, a.value, a.blank, a.given, a.single, rfl, rfl⟩
  have hread : assignmentShape? a.text ≠ none := by
    obtain ⟨t, gap, value, blank, given, single⟩ := a
    simp only [Assignment.text, assignmentShape?, ne_eq, Option.or_eq_none_iff, not_and]
    cases t with
    | declared d =>
      have := declared?_eq_some_iff.mpr ⟨hends, d, rfl, rfl⟩
      simp [declaration?, Target.text, this, hvalue]
    | plain w =>
      have := word?_eq_some_iff.mpr ⟨hends, w, rfl, rfl⟩
      simp [assignment?, Target.text, this, hvalue]
    | field o f =>
      have := fieldOf?_eq_some_iff.mpr ⟨hends, o, f, rfl, rfl, rfl⟩
      simp [fieldAssignment?, this, hvalue]
  -- There is one assignment with the text, so what is read is that one.
  obtain ⟨shape, hshape⟩ := Option.ne_none_iff_exists'.mp hread
  obtain ⟨b, hb, rfl⟩ := exists_of_assignmentShape? hshape
  rw [hshape, Assignment.text_injective hb]

/-- A text that is an assignment is classified as that. -/
theorem classify_of_text {text : String} {a : Assignment} (h : a.text = text.toList) :
    classify text = a.shape := by
  rw [classify_eq, ← h, assignmentShape?_text, Option.some_or, Option.getD_some]

/-- Any other text raises an error or is an expression. -/
theorem classify_of_forall_ne {text : String} (h : ∀ a : Assignment, a.text ≠ text.toList) :
    classify text = (raised? text.toList).getD (.expression text) := by
  cases hshape : assignmentShape? text.toList with
  | none => rw [classify_eq, hshape, Option.none_or]
  | some shape =>
    obtain ⟨a, ha, -⟩ := exists_of_assignmentShape? hshape
    exact absurd ha (h a)

/-- Everything that classification can do. -/
theorem classify_cases (text : String) :
    (∃ a : Assignment, a.text = text.toList ∧ classify text = a.shape) ∨
      (∀ a : Assignment, a.text ≠ text.toList) ∧
        (StartsThrow text.toList ∧ (∃ message, classify text = .raise message) ∨
          ¬ StartsThrow text.toList ∧ classify text = .expression text) := by
  by_cases h : ∃ a : Assignment, a.text = text.toList
  · obtain ⟨a, ha⟩ := h
    exact .inl ⟨a, ha, classify_of_text ha⟩
  · have hne : ∀ a : Assignment, a.text ≠ text.toList := fun a ha => h ⟨a, ha⟩
    have hclassify := classify_of_forall_ne hne
    cases hraises : raises text.toList with
    | true =>
      refine .inr ⟨hne, .inl ⟨raises_iff.mp hraises, ?_⟩⟩
      exact ⟨_, by rw [hclassify, raised?, if_pos hraises, Option.getD_some]⟩
    | false =>
      refine .inr ⟨hne, .inr ⟨fun hthrow => ?_, ?_⟩⟩
      · rw [raises_iff.mpr hthrow] at hraises
        cases hraises
      · rw [hclassify, raised?, if_neg (by simp [hraises]), Option.getD_none]

/-- An assignment raises no error. -/
theorem Assignment.shape_ne_raise (a : Assignment) (message : String) :
    a.shape ≠ .raise message := by
  unfold shape Target.shape
  split <;> simp

/-- An assignment is no expression. -/
theorem Assignment.shape_ne_expression (a : Assignment) (text : String) :
    a.shape ≠ .expression text := by
  unfold shape Target.shape
  split <;> simp

/-- A text is classified as a shape other than an error or an expression exactly if it is the text of
an assignment with that shape. -/
theorem classify_eq_shape_iff {text : String} {shape : Shape}
    (hraise : ∀ message, shape ≠ .raise message) (hexpr : ∀ expr, shape ≠ .expression expr) :
    classify text = shape ↔ ∃ a : Assignment, a.text = text.toList ∧ a.shape = shape := by
  constructor
  · rintro rfl
    rcases classify_cases text with ⟨a, ha, hshape⟩ | ⟨-, ⟨-, message, h⟩ | ⟨-, h⟩⟩
    · exact ⟨a, ha, hshape.symm⟩
    · exact absurd h (hraise message)
    · exact absurd h (hexpr text)
  · rintro ⟨a, ha, rfl⟩
    exact classify_of_text ha

theorem classify_eq_raise_iff {text : String} : (∃ message, classify text = .raise message) ↔
    (∀ a : Assignment, a.text ≠ text.toList) ∧ StartsThrow text.toList := by
  rcases classify_cases text with ⟨a, ha, h⟩ | ⟨hne, ⟨hthrow, h⟩ | ⟨hthrow, h⟩⟩
  · refine ⟨?_, fun hother => absurd ha (hother.1 a)⟩
    rintro ⟨message, hmessage⟩
    exact absurd (h.symm.trans hmessage) (a.shape_ne_raise message)
  · exact ⟨fun _ => ⟨hne, hthrow⟩, fun _ => h⟩
  · refine ⟨?_, fun hother => absurd hother.2 hthrow⟩
    rintro ⟨message, hmessage⟩
    cases h.symm.trans hmessage

theorem classify_eq_expression_iff {text expr : String} : classify text = .expression expr ↔
    expr = text ∧ (∀ a : Assignment, a.text ≠ text.toList) ∧ ¬ StartsThrow text.toList := by
  rcases classify_cases text with ⟨a, ha, h⟩ | ⟨hne, ⟨hthrow, message, h⟩ | ⟨hthrow, h⟩⟩
  · refine ⟨fun hexpr => ?_, fun hother => absurd ha (hother.2.1 a)⟩
    exact absurd (h.symm.trans hexpr) (a.shape_ne_expression expr)
  · refine ⟨fun hexpr => ?_, fun hother => absurd hthrow hother.2.2⟩
    cases h.symm.trans hexpr
  · rw [h]
    constructor
    · rintro ⟨⟩
      exact ⟨rfl, hne, hthrow⟩
    · rintro ⟨rfl, -⟩
      rfl

/-! ### Bindings -/

theorem bindingTarget?_eq_some_iff : bindingTarget? cs = some name ↔
    ∃ b : Binding, b.text = cs ∧ b.declarator.name.text = name := by
  constructor
  · intro h
    unfold bindingTarget? at h
    split at h
    · rename_i declared behind hdeclared
      split at h
      · rename_i rest htrim
        cases h
        obtain ⟨-, d, rfl, rfl⟩ := declared?_eq_some_iff.mp hdeclared
        obtain ⟨gap, hgap, rfl⟩ := exists_of_trimStart htrim
        exact ⟨⟨d, gap, rest, hgap⟩, rfl, rfl⟩
      · cases h
    · cases h
  · rintro ⟨b, rfl, rfl⟩
    have hdeclared := declared?_eq_some_iff.mpr
      ⟨ends_isWord_of_equals b.blank b.rest, b.declarator, rfl, rfl⟩
    have htrim := trimStart_append b.blank (ends_cons isBlank_equals b.rest)
    simp only [bindingTarget?, Binding.text, hdeclared, htrim]

/-- A declaration binds the name it declares. -/
theorem bindingTarget?_of_declare {a : Assignment} {value : String} (h : a.text = cs)
    (hshape : a.shape = .declare name value) : bindingTarget? cs = some name := by
  obtain ⟨t, gap, rest, blank, given, single⟩ := a
  cases t with
  | declared d =>
    cases hshape
    exact bindingTarget?_eq_some_iff.mpr ⟨⟨d, gap, rest, blank⟩, h, rfl⟩
  | plain w => cases hshape
  | field o f => cases hshape

/-- A binding whose equals sign has a value behind it is a declaration. -/
theorem Binding.classify_eq {text : String} (b : Binding) (h : b.text = text.toList)
    (given : b.rest ≠ []) (single : b.rest.head? ≠ some '=') :
    classify text = .declare b.declarator.name.text (String.ofList b.rest) :=
  classify_of_text
    (a := ⟨.declared b.declarator, b.gap, b.rest, b.blank, given, single⟩) h

/-- **A statement is classified by its parts, and has them in one way only.** It is a declaration, an
assignment or an assignment to a field exactly if its text is one, with the names and the value that
stand there; otherwise it raises an error if it starts with the word `throw`, and is an expression
as a whole if it does not. The variable that takes an answer is the one between a keyword and an
equals sign; so a declaration names it, and where there is such a variable but no declaration,
nothing follows the equals sign, or a second one. -/
theorem classify_unambiguous :
    Function.Injective Assignment.text ∧ ∀ text : String,
      (∀ name value, classify text = .declare name value ↔
        ∃ a : Assignment, a.text = text.toList ∧ a.shape = .declare name value) ∧
      (∀ name value, classify text = .assign name value ↔
        ∃ a : Assignment, a.text = text.toList ∧ a.shape = .assign name value) ∧
      (∀ object field value, classify text = .assignField object field value ↔
        ∃ a : Assignment, a.text = text.toList ∧ a.shape = .assignField object field value) ∧
      ((∃ message, classify text = .raise message) ↔
        (∀ a : Assignment, a.text ≠ text.toList) ∧ StartsThrow text.toList) ∧
      (∀ expr, classify text = .expression expr ↔
        expr = text ∧ (∀ a : Assignment, a.text ≠ text.toList) ∧ ¬ StartsThrow text.toList) ∧
      (∀ name, bindingTarget? text.toList = some name ↔
        ∃ b : Binding, b.text = text.toList ∧ b.declarator.name.text = name) ∧
      (∀ name value, classify text = .declare name value →
        bindingTarget? text.toList = some name) ∧
      ∀ b : Binding, b.text = text.toList → (∀ name value, classify text ≠ .declare name value) →
        b.rest = [] ∨ b.rest.head? = some '=' := by
  refine ⟨Assignment.text_injective, fun text => ⟨?_, ?_, ?_, classify_eq_raise_iff,
    fun expr => classify_eq_expression_iff, fun name => bindingTarget?_eq_some_iff, ?_, ?_⟩⟩
  · exact fun name value => classify_eq_shape_iff (by simp) (by simp)
  · exact fun name value => classify_eq_shape_iff (by simp) (by simp)
  · exact fun object field value => classify_eq_shape_iff (by simp) (by simp)
  · intro name value h
    obtain ⟨a, ha, hshape⟩ := (classify_eq_shape_iff (by simp) (by simp)).mp h
    exact bindingTarget?_of_declare ha hshape
  · intro b hb hother
    by_contra hvalue
    rw [not_or] at hvalue
    exact hother _ _ (b.classify_eq hb hvalue.1 hvalue.2)

/-- A keyword may be a name; behind a name that is bound, a second equals sign makes an expression of
the statement. -/
theorem classify_unambiguous_keywords :
    classify "let  let\t=\n1" = .declare "let" "\n1" ∧
      bindingTarget? "let  let\t=\n1".toList = some "let" ∧
      (∀ name value, classify "let x == 1" ≠ .declare name value) ∧
      ∃ b : Binding, b.text = "let x == 1".toList ∧ b.declarator.name.text = "x" ∧
        (b.rest = [] ∨ b.rest.head? = some '=') := by
  have hdeclare : classify "let  let\t=\n1" = .declare "let" "\n1" := by decide +kernel
  have hexpression : classify "let x == 1" = .expression "let x == 1" := by decide +kernel
  have hother : ∀ name value, classify "let x == 1" ≠ .declare name value := by
    simp [hexpression]
  have hbinding : bindingTarget? "let x == 1".toList = some "x" := by decide +kernel
  obtain ⟨-, -, -, -, -, -, hdeclared, -⟩ := classify_unambiguous.2 "let  let\t=\n1"
  obtain ⟨-, -, -, -, -, hbound, -, hrest⟩ := classify_unambiguous.2 "let x == 1"
  obtain ⟨b, hb, hname⟩ := (hbound "x").mp hbinding
  exact ⟨hdeclare, hdeclared _ _ hdeclare, hother, b, hb, hname, hrest b hb hother⟩

end Statement

end Resumable
