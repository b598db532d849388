import Resumable.Proofs.Decimal.Literal

/-!
# Signed decimals

A whole text is a signed decimal if it is an optional sign, digits on at least one side of an
optional point, and an optional exponent. The reader accepts exactly these texts, and there is one
way to take such a text apart.

## The model

* `Sign`, `Point`: how the sign and the point with the digits behind it are written.
* `WritesSigned`: a text is a signed decimal of some value.

## What is proved

* `signed?_of_writes` and `writes_of_signed?`, together `signed?_eq_some_iff`: what is read is what
  is written.
-/

namespace Resumable.Decimal

open Text (Ends ends_nil ends_cons)

variable {cs rest : List Char} {negative : Bool} {d : Decimal}

/-- A text is a sign, or nothing. -/
inductive Sign : List Char → Bool → Prop where
  /-- Without a sign the number is not negative. -/
  | none : Sign [] false
  /-- The plus sign changes nothing. -/
  | plus : Sign ['+'] false
  /-- The minus sign makes the number negative. -/
  | minus : Sign ['-'] true

/-- A text is a point with some digits behind it, perhaps none, or nothing. -/
inductive Point : List Char → List Char → Prop where
  /-- Without a point there are no digits. -/
  | none : Point [] []
  /-- The digits stand behind the point. -/
  | point {ds : List Char} (digits : ∀ c ∈ ds, isDigit c = true) : Point ('.' :: ds) ds

/-- A text is a signed decimal: a sign, digits, a point with digits and an exponent, of which only a
digit on one side of the point must be there. -/
inductive WritesSigned : List Char → Bool → Decimal → Prop where
  /-- The parts follow each other. -/
  | mk {sign whole point fraction scaling : List Char} {negative : Bool} {exponent : Int}
      (hsign : Sign sign negative) (hwhole : ∀ c ∈ whole, isDigit c = true)
      (hpoint : Point point fraction) (digit : whole ≠ [] ∨ fraction ≠ [])
      (hscaling : Scaling scaling exponent) :
      WritesSigned (sign ++ (whole ++ (point ++ scaling))) negative
        (ofParts whole fraction exponent)

/-! ### The steps of the reader -/

/-- The sign at the start of a text, and what follows it. -/
def takeSign (cs : List Char) : Bool × List Char :=
  match cs with
  | '+' :: rest => (false, rest)
  | '-' :: rest => (true, rest)
  | _ => (false, cs)

/-- The digits behind a point at the start of a text, and what follows them. -/
def takePoint (cs : List Char) : List Char × List Char :=
  match cs with
  | '.' :: after => spanDigits after
  | _ => ([], cs)

/-- The value of a whole text as an exponent; an empty one is zero. -/
def scaling? (cs : List Char) : Option Int :=
  match cs with
  | [] => some 0
  | _ => match exponent? cs with
    | some (e, []) => some e
    | _ => none

/-- A decimal is read part by part. -/
theorem signed?_eq (cs : List Char) : signed? cs =
    let (negative, body) := takeSign cs
    let (whole, tail) := spanDigits body
    let (fraction, rest) := takePoint tail
    if whole.isEmpty && fraction.isEmpty then none
    else (scaling? rest).map fun e => (negative, ofParts whole fraction e) := by
  have hscaling : ∀ (negative : Bool) (whole fraction rest : List Char),
      (match rest with
        | [] => some (negative, ofParts whole fraction 0)
        | _ => match exponent? rest with
          | some (e, []) => some (negative, ofParts whole fraction e)
          | _ => none) =
        (scaling? rest).map fun e => (negative, ofParts whole fraction e) := by
    intro negative whole fraction rest
    unfold scaling?
    split
    · rfl
    · split <;> rfl
  simp only [← hscaling]
  rfl

theorem takeSign_append {sign body : List Char} (h : Sign sign negative)
    (hbody : ∀ c ∈ body.head?, c ≠ '+' ∧ c ≠ '-') :
    takeSign (sign ++ body) = (negative, body) := by
  cases h with
  | plus | minus => rfl
  | none =>
    rw [List.nil_append]
    unfold takeSign
    split
    · exact absurd rfl (hbody '+' rfl).1
    · exact absurd rfl (hbody '-' rfl).2
    · rfl

theorem exists_of_takeSign {body : List Char} (h : takeSign cs = (negative, body)) :
    ∃ sign, cs = sign ++ body ∧ Sign sign negative := by
  unfold takeSign at h
  split at h
  · obtain ⟨rfl, rfl⟩ := Prod.mk.inj h
    exact ⟨['+'], rfl, .plus⟩
  · obtain ⟨rfl, rfl⟩ := Prod.mk.inj h
    exact ⟨['-'], rfl, .minus⟩
  · obtain ⟨rfl, rfl⟩ := Prod.mk.inj h
    exact ⟨[], rfl, .none⟩

theorem takePoint_append {point fraction : List Char} (h : Point point fraction)
    (hrun : EndsRun rest) (hpoint : ∀ c ∈ rest.head?, c ≠ '.') :
    takePoint (point ++ rest) = (fraction, rest) := by
  cases h with
  | none =>
    rw [List.nil_append]
    unfold takePoint
    split
    · exact absurd rfl (hpoint '.' rfl)
    · rfl
  | point digits => exact Text.span_append digits hrun

theorem exists_of_takePoint {fraction : List Char} (h : takePoint cs = (fraction, rest)) :
    ∃ point, cs = point ++ rest ∧ Point point fraction := by
  unfold takePoint at h
  split at h
  · rename_i after
    obtain ⟨rfl, digits, -⟩ := Text.of_span h
    exact ⟨'.' :: fraction, rfl, .point digits⟩
  · obtain ⟨rfl, rfl⟩ := Prod.mk.inj h
    exact ⟨[], rfl, .none⟩

theorem scaling?_eq_some_iff {e : Int} : scaling? cs = some e ↔ Scaling cs e := by
  constructor
  · intro h
    unfold scaling? at h
    split at h
    · obtain rfl := Option.some.inj h
      exact .none
    · split at h
      · rename_i e' he
        obtain rfl := Option.some.inj h
        obtain ⟨scaling, rfl, hscaling, -⟩ := exists_of_exponent? he
        rwa [List.append_nil]
      · simp at h
  · intro h
    by_cases hne : cs = []
    · subst hne
      cases h
      rfl
    · have hread := exponent?_append h hne ends_nil
      obtain ⟨c, cs, rfl⟩ := List.exists_cons_of_ne_nil hne
      rw [List.append_nil] at hread
      simp [scaling?, hread]

/-! ### Reading -/

theorem Scaling.head_ne_point {scaling : List Char} {e : Int} (h : Scaling scaling e) :
    ∀ c ∈ scaling.head?, c ≠ '.' := by
  cases h with
  | none => simp
  | plain letter | plus letter | minus letter => rcases letter with rfl | rfl <;> simp

theorem Point.endsRun {point fraction : List Char} (h : Point point fraction)
    (hrest : EndsRun rest) : EndsRun (point ++ rest) := by
  cases h with
  | none => exact hrest
  | point => exact ends_cons rfl _

/-- Behind the sign stands a digit or a point, and no second sign. -/
theorem head_ne_sign {whole point fraction : List Char} (hwhole : ∀ c ∈ whole, isDigit c = true)
    (hpoint : Point point fraction) (digit : whole ≠ [] ∨ fraction ≠ []) (rest : List Char) :
    ∀ c ∈ (whole ++ (point ++ rest)).head?, c ≠ '+' ∧ c ≠ '-' := by
  cases whole with
  | cons w whole =>
    have hw : isDigit w = true := hwhole w (List.mem_cons_self ..)
    rintro c ⟨⟩
    constructor <;> rintro rfl <;> exact absurd hw (by decide)
  | nil =>
    cases hpoint with
    | none => exact absurd rfl (digit.resolve_left fun h => h rfl)
    | point digits =>
      rintro c ⟨⟩
      decide

/-- A written decimal is read back. -/
theorem signed?_of_writes (h : WritesSigned cs negative d) : signed? cs = some (negative, d) := by
  obtain ⟨hsign, hwhole, hpoint, digit, hscaling⟩ := h
  rename_i sign whole point fraction scaling exponent
  have hends : EndsRun scaling := by
    have := hscaling.endsRun ends_nil
    rwa [List.append_nil] at this
  have hbody := takeSign_append hsign (head_ne_sign hwhole hpoint digit scaling)
  have hspan : spanDigits (whole ++ (point ++ scaling)) = (whole, point ++ scaling) :=
    Text.span_append hwhole (hpoint.endsRun hends)
  have htake := takePoint_append hpoint hends hscaling.head_ne_point
  have hempty : (whole.isEmpty && fraction.isEmpty) = false := by
    rcases digit with h | h <;> simp [h]
  simp only [signed?_eq, hbody, hspan, htake, hempty, scaling?_eq_some_iff.mpr hscaling,
    Option.map_some, Bool.false_eq_true, if_false]

/-- A decimal that is read was written. -/
theorem writes_of_signed? (h : signed? cs = some (negative, d)) : WritesSigned cs negative d := by
  rw [signed?_eq] at h
  split at h
  rename_i negative' body htaken
  split at h
  rename_i whole tail hspan
  split at h
  rename_i fraction rest hfraction
  split at h
  · simp at h
  · rename_i hempty
    obtain ⟨e, he, heq⟩ := Option.map_eq_some_iff.mp h
    obtain ⟨rfl, rfl⟩ := Prod.mk.inj heq
    obtain ⟨sign, rfl, hsign⟩ := exists_of_takeSign htaken
    obtain ⟨rfl, hwhole, -⟩ := Text.of_span hspan
    obtain ⟨point, rfl, hpoint⟩ := exists_of_takePoint hfraction
    have digit : whole ≠ [] ∨ fraction ≠ [] := by
      simpa [imp_iff_not_or] using hempty
    exact .mk hsign hwhole hpoint digit (scaling?_eq_some_iff.mp he)

/-- **A text is read as a signed decimal exactly if it is one.** -/
theorem signed?_eq_some_iff : signed? cs = some (negative, d) ↔ WritesSigned cs negative d :=
  ⟨writes_of_signed?, signed?_of_writes⟩

end Resumable.Decimal
