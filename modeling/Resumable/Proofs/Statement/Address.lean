import Resumable.Proofs.Expr.Shortcuts
import Resumable.Proofs.Expr.Whole
import Resumable.Proofs.Statement.Parts
import Resumable.Settings.Basic
import Resumable.Statement.Call

/-!
# The first argument gives the address

The arguments of a call are looked for in the text of a whole statement: from the first place where
the function is called up to the last parenthesis. They are cut at the first comma that the scanner
finds exposed. This module says what comes of that if the first argument is an expression: neither
what stands before the call, nor the other arguments, whatever is written there, nor what follows
the call has a part in the address.

## The model

* `StartsCall`: the name of the function, blanks and an opening parenthesis start a text.
* `CallSite`: a statement in which a call of the function is the first one and the last thing.
* `bareCall`: a call with one argument and nothing else.

## What is proved

* `arguments?_append`, `argumentsAt?_call`: the arguments found are those of the first call.
* `firstPiece_append`: an expression is the first argument as it stands.
* `address_of_first_argument`: a statement asks for the address that its bare call asks for.
* `evaluateTrimmed_quoted`: a text in one pair of quotes has its content for its value.
* `address_of_falsy`: an argument that counts as false gives no address, unless it starts with a
  quote.
-/

namespace Resumable.Statement

open Text (Ends ends_nil ends_cons isBlank trim trimStart trimStart_cons trimStart_append
  exists_of_trimStart)
open Resumable.Expr (Phrase evaluate evaluateTrimmed)

variable {function cs before argument others behind arguments : List Char} {env : Environment}

/-! ### Calls in a text -/

/-- A call of the function starts a text: its name, blanks and an opening parenthesis. -/
def StartsCall (function cs : List Char) : Prop :=
  ∃ gap rest, (∀ c ∈ gap, isBlank c = true) ∧ cs = function ++ (gap ++ '(' :: rest)

/-- Nothing but blanks and one semicolon at the very end stands in a text. -/
def Trails (cs : List Char) : Prop :=
  ∃ gap, (∀ c ∈ gap, isBlank c = true) ∧ (cs = gap ∨ cs = gap ++ [';'])

/-- The name of the function, its arguments between parentheses, and what follows. -/
def callText (function arguments behind : List Char) : List Char :=
  function ++ '(' :: (arguments ++ ')' :: behind)

/-- A call with one argument and nothing around it. -/
def bareCall (function : String) (argument : List Char) : String :=
  String.ofList (callText function.toList argument [])

/-- A statement that calls the function, taken apart at its first call. -/
structure CallSite (function : String) where
  /-- What stands before the call. -/
  before : List Char
  /-- The first argument. -/
  argument : List Char
  /-- What follows it up to the last parenthesis. -/
  others : List Char
  /-- What follows the call. -/
  behind : List Char
  /-- The first argument is an expression to the grammar. -/
  reads : (Phrase.ofText? argument).isSome = true
  /-- If anything follows it, a comma does. -/
  apart : ∀ c ∈ others.head?, c = ','
  /-- Nothing but blanks and one semicolon follows the call. -/
  trails : Trails behind
  /-- No call starts before this one. -/
  first : ∀ n < before.length, ¬ StartsCall function.toList
    ((before ++ callText function.toList (argument ++ others) behind).drop n)

/-- The text of the statement. -/
def CallSite.text {function : String} (c : CallSite function) : String :=
  String.ofList (c.before ++ callText function.toList (c.argument ++ c.others) c.behind)

/-! ### Finding the arguments -/

theorem after?_eq_some_iff {text cs rest : List Char} :
    after? text cs = some rest ↔ cs = text ++ rest := by
  induction text generalizing cs with
  | nil => simp [after?]
  | cons t text ih =>
    cases cs with
    | nil => simp [after?]
    | cons c cs =>
      by_cases htc : t = c
      · simp [after?, htc, ih]
      · simp [after?, htc, Ne.symm htc]

theorem startsCall_iff : StartsCall function cs ↔
    ((after? function cs).map trimStart).bind List.head? = some '(' := by
  constructor
  · rintro ⟨gap, rest, hgap, hcs⟩
    have htrim : trimStart (gap ++ '(' :: rest) = '(' :: rest :=
      trimStart_append hgap (ends_cons (by decide) rest)
    rw [after?_eq_some_iff.mpr hcs, Option.map_some, Option.bind_some, htrim, List.head?_cons]
  · intro h
    obtain ⟨trimmed, htrimmed, hhead⟩ := Option.bind_eq_some_iff.mp h
    obtain ⟨tail, htail, rfl⟩ := Option.map_eq_some_iff.mp htrimmed
    obtain ⟨rest, hrest⟩ := List.head?_eq_some_iff.mp hhead
    obtain ⟨gap, hgap, rfl⟩ := exists_of_trimStart hrest
    exact ⟨gap, rest, hgap, after?_eq_some_iff.mp htail⟩

instance : Decidable (StartsCall function cs) := decidable_of_iff _ startsCall_iff.symm

theorem Trails.isEnding (h : Trails cs) : isEnding cs = true := by
  obtain ⟨gap, hgap, rfl | rfl⟩ := h
  · have htrim : trimStart cs = [] := by simpa using trimStart_append hgap ends_nil
    rw [Statement.isEnding, htrim]
  · have htrim : trimStart (gap ++ [';']) = [';'] :=
      trimStart_append hgap (ends_cons (by decide) [])
    rw [Statement.isEnding, htrim]
    rfl

theorem Trails.not_mem (h : Trails cs) : ')' ∉ cs := by
  obtain ⟨gap, hgap, hcs⟩ := h
  have hmem : ')' ∉ gap := fun hmem => absurd (hgap _ hmem) (by decide)
  rcases hcs with rfl | rfl
  · exact hmem
  · simp [hmem]

theorem aroundLast?_append (h : ')' ∉ behind) (before : List Char) :
    aroundLast? (before ++ ')' :: behind) = some (before, behind) := by
  have hspan : (before ++ ')' :: behind).reverse.span (· != ')') =
      (behind.reverse, ')' :: before.reverse) := by
    rw [List.reverse_append, List.reverse_cons, List.append_assoc]
    refine Text.span_append (fun c hc => ?_) (ends_cons (by decide) _)
    rw [List.mem_reverse] at hc
    exact bne_iff_ne.mpr fun heq => h (heq ▸ hc)
  rw [aroundLast?, hspan]
  simp

/-- Where a call starts a text, its arguments reach up to the last parenthesis. -/
theorem argumentsAt?_call (hne : arguments ≠ []) (hbehind : Trails behind) :
    argumentsAt? function (callText function arguments behind) = some arguments := by
  have hafter : after? function (callText function arguments behind) =
      some ('(' :: (arguments ++ ')' :: behind)) := after?_eq_some_iff.mpr rfl
  have htrim : trimStart ('(' :: (arguments ++ ')' :: behind)) =
      '(' :: (arguments ++ ')' :: behind) := trimStart_cons (by decide) _
  simp only [argumentsAt?, hafter, Option.map_some, htrim,
    aroundLast?_append hbehind.not_mem arguments, hbehind.isEnding]
  simp [hne]

theorem argumentsAt?_eq_none (h : ¬ StartsCall function cs) : argumentsAt? function cs = none := by
  unfold argumentsAt?
  split
  · rename_i rest hrest
    refine absurd (startsCall_iff.mpr ?_) h
    rw [hrest]
    rfl
  · rfl

theorem arguments?_of_argumentsAt? (h : argumentsAt? function cs = some arguments) :
    arguments? function cs = some arguments := by
  cases cs with
  | nil => exact h
  | cons c cs => rw [arguments?, h, Option.some_or]

/-- What stands before the first call is passed over. -/
theorem arguments?_append
    (h : ∀ n < before.length, ¬ StartsCall function ((before ++ cs).drop n)) :
    arguments? function (before ++ cs) = arguments? function cs := by
  induction before with
  | nil => rfl
  | cons c before ih =>
    have hnone : argumentsAt? function (c :: (before ++ cs)) = none :=
      argumentsAt?_eq_none (h 0 (Nat.zero_lt_succ _))
    rw [List.cons_append, arguments?, hnone, Option.none_or]
    exact ih fun n hn => h (n + 1) (Nat.succ_lt_succ hn)

/-- An expression is the first argument as it stands, whatever comes behind a comma. -/
theorem firstPiece_append (hread : (Phrase.ofText? argument).isSome = true)
    (hothers : ∀ c ∈ others.head?, c = ',') :
    Source.firstPiece ',' (argument ++ others) = argument := by
  obtain ⟨p, hp⟩ := Option.isSome_iff_exists.mp hread
  obtain ⟨huncut, hrun⟩ := Phrase.uncut_of_ofText? (.inr rfl) hp
  cases others with
  | nil => rw [List.append_nil, Source.firstPiece, huncut.cut_eq]
  | cons c others =>
    obtain rfl : c = ',' := hothers c rfl
    rw [Source.firstPiece, Source.cut_append (by decide) hrun, huncut.cut_eq]

theorem ne_nil_of_ofText? (h : (Phrase.ofText? argument).isSome = true) : argument ≠ [] := by
  rintro rfl
  exact absurd h (by decide)

/-- The address that a statement asks for is the one that the text of its first argument gives. -/
theorem CallSite.address_eq {function : String} (c : CallSite function) (env : Environment) :
    address function env c.text = addressOf env (trim c.argument) := by
  have hne : c.argument ++ c.others ≠ [] := by
    simp [ne_nil_of_ofText? c.reads]
  have harguments : arguments? function.toList c.text.toList = some (c.argument ++ c.others) := by
    rw [text, String.toList_ofList, arguments?_append c.first]
    exact arguments?_of_argumentsAt? (argumentsAt?_call hne c.trails)
  simp only [address, harguments, firstPiece_append c.reads c.apart]

/-- A call and nothing around it. -/
def CallSite.bare (function : String) (argument : List Char)
    (reads : (Phrase.ofText? argument).isSome = true) : CallSite function where
  before := []
  argument := argument
  others := []
  behind := []
  reads := reads
  apart := by simp
  trails := ⟨[], by simp⟩
  first := by simp

theorem address_bareCall (function : String) (env : Environment)
    (hread : (Phrase.ofText? argument).isSome = true) :
    address function env (bareCall function argument) = addressOf env (trim argument) := by
  have htext : (CallSite.bare function argument hread).text = bareCall function argument := by
    rw [CallSite.text, bareCall]
    simp [CallSite.bare]
  rw [← htext]
  exact (CallSite.bare function argument hread).address_eq env

/-! ### From the value to the address -/

/-- A value that is there gives its text, if it counts as true or its text starts with a quote. -/
theorem addressOf_eq (h : evaluateTrimmed env cs ≠ .undefined) : addressOf env cs =
    if cs.head?.any Source.isQuote || (evaluateTrimmed env cs).isTruthy then
      (evaluateTrimmed env cs).display
    else unknownAddress := by
  unfold addressOf
  generalize evaluateTrimmed env cs = v at h ⊢
  cases v with
  | undefined => exact absurd rfl h
  | str s => rw [Value.isTruthy, Value.display]
  | _ => rfl

theorem addressOf_of_undefined (h : evaluateTrimmed env cs = .undefined) :
    addressOf env cs = unknownAddress := by
  rw [addressOf, h]

theorem addressOf_of_truthy (h : (evaluateTrimmed env cs).isTruthy = true) :
    addressOf env cs = (evaluateTrimmed env cs).display := by
  have hdefined : evaluateTrimmed env cs ≠ .undefined := by
    intro habsent
    rw [habsent] at h
    cases h
  rw [addressOf_eq hdefined, h, Bool.or_true, if_pos rfl]

/-- Behind a quote at the start, any value but the absent one gives its text. -/
theorem addressOf_of_quote (hquote : cs.head?.any Source.isQuote = true)
    (h : evaluateTrimmed env cs ≠ .undefined) :
    addressOf env cs = (evaluateTrimmed env cs).display := by
  rw [addressOf_eq h, hquote, Bool.true_or, if_pos rfl]

/-- Without a quote at the start, a value that counts as false gives no address. -/
theorem addressOf_of_falsy (hquote : cs.head?.any Source.isQuote = false)
    (h : (evaluateTrimmed env cs).isTruthy = false) : addressOf env cs = unknownAddress := by
  by_cases habsent : evaluateTrimmed env cs = .undefined
  · exact addressOf_of_undefined habsent
  · rw [addressOf_eq habsent, hquote, h, Bool.or_self, if_neg Bool.false_ne_true]

/-- **The first argument gives the address**: a statement asks for the address that its first call
asks for with the first argument alone, whatever stands before the call, behind a comma behind that
argument, and in the blanks behind the call. If the argument has a value that counts as true, the
address is that value's text. -/
theorem address_of_first_argument (function : String) (env : Environment)
    (c : CallSite function) :
    address function env c.text = address function env (bareCall function c.argument) ∧
      ((evaluate env c.argument).isTruthy = true →
        address function env c.text = (evaluate env c.argument).display) := by
  rw [c.address_eq env, address_bareCall function env c.reads]
  exact ⟨rfl, addressOf_of_truthy⟩

/-- Before the call there is the function without a parenthesis, and behind the first argument another
call and brackets that are not closed. -/
theorem address_of_first_argument_options :
    ∃ c : CallSite "fetch",
      c.text = "const fetched = fetch + fetch( base + '/a,b' , fetch('),(') + [1) ;" ∧
        (evaluate ⟨[("base", .str "/api")]⟩ c.argument).isTruthy = true ∧
        address "fetch" ⟨[("base", .str "/api")]⟩ c.text =
          address "fetch" ⟨[("base", .str "/api")]⟩ "fetch( base + '/a,b' )" ∧
        address "fetch" ⟨[("base", .str "/api")]⟩ c.text = "/api/a,b" := by
  let c : CallSite "fetch" :=
    { before := "const fetched = fetch + ".toList
      argument := " base + '/a,b' ".toList
      others := ", fetch('),(') + [1".toList
      behind := " ;".toList
      reads := by decide +kernel
      apart := by simp
      trails := ⟨[' '], List.all_eq_true.mp (by decide), .inr rfl⟩
      first := by decide +kernel }
  have htruthy : (evaluate ⟨[("base", .str "/api")]⟩ c.argument).isTruthy = true := by
    decide +kernel
  have hdisplay : (evaluate ⟨[("base", .str "/api")]⟩ c.argument).display = "/api/a,b" := by
    decide +kernel
  obtain ⟨hbare, hvalue⟩ := address_of_first_argument "fetch" ⟨[("base", .str "/api")]⟩ c
  exact ⟨c, by decide +kernel, htruthy, hbare, (hvalue htruthy).trans hdisplay⟩

/-! ### Quoted arguments -/

section Quoted

open Resumable.Expr (Keyword numberLiteral? stringLiteral? enclosedBy? projection? evalText parse
  of_projection? dotted_append exists_phrase_of_numberLiteral? readPhrase_eq_ok_iff)
open Resumable.Expr.Token (Spells not_isNameChar_of_isQuote)

variable {quote : Char} {content : List Char}

theorem enclosedBy?_quoted (hapart : quote ∉ content) :
    enclosedBy? quote (quote :: (content ++ [quote])) = some content := by
  have hspan : (content ++ [quote]).span (· != quote) = (content, [quote]) := by
    refine Text.span_append (fun c hc => ?_) (ends_cons (by simp) [])
    exact bne_iff_ne.mpr fun heq => hapart (heq ▸ hc)
  simp only [enclosedBy?, hspan, if_true]

/-- Double and single quotes are seen directly. -/
theorem stringLiteral?_quoted (hquote : Source.isQuote quote = true) (hne : quote ≠ '\x60')
    (hapart : quote ∉ content) :
    stringLiteral? (quote :: (content ++ [quote])) = some (String.ofList content) := by
  rcases Source.isQuote_iff.mp hquote with rfl | rfl | rfl
  · rw [stringLiteral?, enclosedBy?_quoted hapart]
    rfl
  · have hdouble : enclosedBy? '"' ('\'' :: (content ++ ['\''])) = none := by simp [enclosedBy?]
    rw [stringLiteral?, hdouble, Option.none_or, enclosedBy?_quoted hapart]
    rfl
  · exact absurd rfl hne

theorem parse_quoted (hquote : Source.isQuote quote = true) (hapart : quote ∉ content) :
    parse (quote :: (content ++ [quote])) = .ok (.str (String.ofList content)) := by
  have hread := readPhrase_eq_ok_iff.mpr ⟨.text quote (String.ofList content),
    (Spells.text hquote hapart).spelled, Nat.zero_le _, Nat.zero_le _,
    by simp [Phrase.size, Resumable.Expr.maxNodes]⟩
  rw [parse, hread]
  rfl

/-- Two words with a point between them hold no quote. -/
theorem projection?_quoted (hquote : Source.isQuote quote = true) (rest : List Char) :
    projection? (quote :: rest) = none := by
  cases hproj : projection? (quote :: rest) with
  | none => rfl
  | some words =>
    obtain ⟨base, field⟩ := words
    obtain ⟨b, f, hcs, hb, hf, -, -⟩ := of_projection? hproj
    have hmem : quote ∈ b ++ '.' :: f := by
      rw [← hcs]
      exact List.mem_cons_self ..
    have hcode : quote.toNat < 0xaa := by
      rcases Source.isQuote_iff.mp hquote with rfl | rfl | rfl <;> decide
    obtain ⟨hname, -, -, hpoint⟩ := not_isNameChar_of_isQuote hquote
    exact absurd hmem ((dotted_append hb hf).not_mem hcode hname hpoint)

/-- A text in one pair of quotes has its content for its value. Backticks alone do not stop it from
being looked up as a name before. -/
theorem evaluateTrimmed_quoted (hquote : Source.isQuote quote = true) (hapart : quote ∉ content)
    (hfree : quote = '\x60' → env.get? (String.ofList (quote :: (content ++ [quote]))) = none) :
    evaluateTrimmed env (quote :: (content ++ [quote])) = .str (String.ofList content) := by
  have hkeyword : Keyword.ofName? (String.ofList (quote :: (content ++ [quote]))) = none := by
    refine Option.eq_none_iff_forall_ne_some.mpr fun k hk => ?_
    have hword := k.isName.all
    rw [Keyword.word_of_ofName? hk, String.toList_ofList] at hword
    exact absurd (hword quote (List.mem_cons_self ..)) (by simp [not_isNameChar_of_isQuote hquote])
  have hnumber : numberLiteral? (quote :: (content ++ [quote])) = none := by
    refine Option.eq_none_iff_forall_ne_some.mpr fun x hx => ?_
    -- The grammar reads the text in one way, and that is a string.
    obtain ⟨p, hfits, hp, heval⟩ :=
      @exists_phrase_of_numberLiteral? _ env x hx
    obtain rfl := Phrase.eq_of_spelled hfits hp (.text quote _) (Spells.text hquote hapart).spelled
    cases heval
  by_cases hback : quote = '\x60'
  · have hstring : stringLiteral? (quote :: (content ++ [quote])) = none := by
      simp [stringLiteral?, enclosedBy?, hback]
    simp only [evaluateTrimmed, hkeyword, hnumber, hstring, hfree hback, projection?_quoted hquote,
      evalText, parse_quoted hquote hapart]
    rfl
  · simp only [evaluateTrimmed, hkeyword, hnumber, stringLiteral?_quoted hquote hback hapart]

/-- **An argument that counts as false gives no address, unless it starts with a quote**. An argument
in one pair of quotes gives its content, even the empty one; if the quotes are backticks, a variable
under the whole text as its name comes first. Any other argument with a value that counts as false
gives no address if it does not start with a quote, or if the value is the absent one; but if it
starts with a quote, it gives the text of its value. -/
theorem address_of_falsy (function : String) (env : Environment)
    (hread : (Phrase.ofText? argument).isSome = true) :
    (∀ quote content, Source.isQuote quote = true → quote ∉ content →
        trim argument = quote :: (content ++ [quote]) →
        (quote = '\x60' → env.get? (String.ofList (trim argument)) = none) →
          address function env (bareCall function argument) = String.ofList content) ∧
      ((evaluate env argument).isTruthy = false →
        ((trim argument).head?.any Source.isQuote = false ∨ evaluate env argument = .undefined →
            address function env (bareCall function argument) = unknownAddress) ∧
          ((trim argument).head?.any Source.isQuote = true → evaluate env argument ≠ .undefined →
            address function env (bareCall function argument) =
              (evaluate env argument).display)) := by
  rw [address_bareCall function env hread, evaluate]
  refine ⟨fun quote content hquote hapart htrim hfree => ?_, fun hfalsy => ⟨?_, addressOf_of_quote⟩⟩
  · rw [htrim] at hfree ⊢
    have hvalue := evaluateTrimmed_quoted hquote hapart hfree
    rw [addressOf_of_quote (by simp [hquote]) (by simp [hvalue]), hvalue, Value.display]
  · rintro (hplain | habsent)
    · exact addressOf_of_falsy hplain hfalsy
    · exact addressOf_of_undefined habsent

/-- An empty string between backticks is an address, a negated string is none, and strings compared
give the text of the comparison. -/
theorem address_of_falsy_empty :
    (Phrase.ofText? " \x60\x60 ".toList).isSome = true ∧
      trim " \x60\x60 ".toList = ['\x60', '\x60'] ∧
      address "fetch" {} (bareCall "fetch" " \x60\x60 ".toList) = "" ∧
      (Phrase.ofText? "!'a'".toList).isSome = true ∧
      (evaluate {} "!'a'".toList).isTruthy = false ∧
      address "fetch" {} (bareCall "fetch" "!'a'".toList) = "unknown" ∧
      (Phrase.ofText? "'a' > 'b'".toList).isSome = true ∧
      (evaluate {} "'a' > 'b'".toList).isTruthy = false ∧
      address "fetch" {} (bareCall "fetch" "'a' > 'b'".toList) = "false" := by
  have hempty : (Phrase.ofText? " \x60\x60 ".toList).isSome = true := by decide +kernel
  have htrim : trim " \x60\x60 ".toList = ['\x60', '\x60'] := by decide +kernel
  have hnot : (Phrase.ofText? "!'a'".toList).isSome = true := by decide +kernel
  have hfalsy : (evaluate {} "!'a'".toList).isTruthy = false := by decide +kernel
  have hgreater : (Phrase.ofText? "'a' > 'b'".toList).isSome = true := by decide +kernel
  have hfalse : (evaluate {} "'a' > 'b'".toList).isTruthy = false := by decide +kernel
  have hdisplay : (evaluate {} "'a' > 'b'".toList).display = "false" := by decide +kernel
  refine ⟨hempty, htrim, ?_, hnot, hfalsy, ?_, hgreater, hfalse, ?_⟩
  · exact (address_of_falsy "fetch" {} hempty).1 '\x60' [] (by decide) List.not_mem_nil htrim
      fun _ => rfl
  · exact ((address_of_falsy "fetch" {} hnot).2 hfalsy).1 (.inl (by decide +kernel))
  · have hdefined : evaluate {} "'a' > 'b'".toList ≠ .undefined := by
      intro habsent
      rw [habsent] at hdisplay
      exact absurd hdisplay (by decide)
    exact (((address_of_falsy "fetch" {} hgreater).2 hfalse).2 (by decide +kernel) hdefined).trans
      hdisplay

/-- A comparison that starts with a string literal, is none as a whole, and gives an address though
it is false. -/
theorem falsy_comparison_addressed :
    Settings.isIdentifier "fetch" = true ∧
      (Phrase.ofText? "\"a\" == \"b\"".toList).isSome = true ∧
      (∀ quote content, quote ∉ content →
        trim "\"a\" == \"b\"".toList ≠ quote :: (content ++ [quote])) ∧
      (evaluate {} "\"a\" == \"b\"".toList).isTruthy = false ∧
      address "fetch" {} "fetch(\"a\" == \"b\")" = "false" ∧ "false" ≠ unknownAddress := by
  have htrim : trim "\"a\" == \"b\"".toList = '"' :: ("a\" == \"b".toList ++ ['"']) := by
    decide +kernel
  refine ⟨by decide, by decide +kernel, fun quote content hapart h => hapart ?_, by decide +kernel,
    by decide +kernel, by decide⟩
  rw [htrim] at h
  obtain ⟨rfl, h⟩ := List.cons.inj h
  rw [← List.append_cancel_right h]
  decide +kernel

end Quoted

end Resumable.Statement
