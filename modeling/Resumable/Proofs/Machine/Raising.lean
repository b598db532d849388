import Resumable.Machine.Run
import Resumable.Proofs.Expr.Whole
import Resumable.Proofs.Statement.Parts

/-!
# Raised messages

A statement raises an error with a message between two quotes of one kind. The scanner takes such a
message for a string, which ends at the next quote of its own kind, and so keeps the statement in one
piece. The message that is raised, however, ends at the next quote of any kind.

## The model

* `raising`: the statement that raises an error with a message between two quotes.
* `heard`: the part of a message before its first quote of any kind.

## What is proved

* `statements_raising`: a script that raises an error with a message is one statement.
* `message?_raising`: what is raised is the part of the message before its first quote, unless there
  is nothing before it.
* `raised_up_to_quote`: a message arrives whole exactly if no quote of any kind stands in it; and a
  run fails with what arrives.
-/

namespace Resumable

namespace Statement

variable {quote c : Char} {message cs rest : List Char}

/-- The statement that raises an error with a message between two quotes. -/
def raising (quote : Char) (message : List Char) : String :=
  String.ofList ("throw new Error(".toList ++ quote :: (message ++ [quote, ')']))

/-- The part of a message before its first quote of any kind. -/
def heard (message : List Char) : List Char := message.takeWhile (!Source.isQuote ·)

theorem toList_raising (quote : Char) (message : List Char) : (raising quote message).toList =
    "throw new Error(".toList ++ quote :: (message ++ [quote, ')']) :=
  String.toList_ofList

/-! ### Messages -/

theorem heard_append (hquote : Source.isQuote quote = true) (message rest : List Char) :
    heard (message ++ quote :: rest) = heard message := by
  induction message with
  | nil => simp [heard, hquote]
  | cons c message ih =>
    cases hc : Source.isQuote c with
    | true => simp [heard, hc]
    | false => simpa [heard, hc] using ih

theorem heard_eq_self_iff : heard message = message ↔ ∀ c ∈ message, Source.isQuote c = false := by
  rw [heard, List.takeWhile_eq_self_iff]
  simp only [Bool.not_eq_true']

theorem message?_of_ne (h : c ≠ 'E') : message? (c :: cs) = message? cs := by
  have hat : messageAt? (c :: cs) = none := by
    unfold messageAt?
    split
    · rename_i hcs
      exact absurd (List.cons.inj hcs).1 h
    · rfl
  rw [message?, hat, Option.none_or]

theorem messageAt?_error (hquote : Source.isQuote quote = true) (rest : List Char) :
    messageAt? ("Error(".toList ++ quote :: rest) =
      if heard rest = [] then none else some (heard rest) := by
  have hblank : Text.isBlank quote = false := by
    rcases Source.isQuote_iff.mp hquote with rfl | rfl | rfl <;> decide
  have hparen : Text.trimStart ('(' :: quote :: rest) = '(' :: quote :: rest :=
    Text.trimStart_cons (by decide) _
  have hstart : Text.trimStart (quote :: rest) = quote :: rest := Text.trimStart_cons hblank rest
  have hheard : rest.takeWhile (!Source.isQuote ·) = heard rest := rfl
  show messageAt? ('E' :: 'r' :: 'r' :: 'o' :: 'r' :: '(' :: quote :: rest) = _
  simp only [messageAt?, hparen, hstart, hquote, if_true, hheard]
  cases heard rest with
  | nil => rfl
  | cons c cs => rfl

/-- What is raised is the part of the message before its first quote. If there is nothing before it,
a message is looked for behind it. -/
theorem message?_raising (hquote : Source.isQuote quote = true) (message : List Char) :
    message? (raising quote message).toList =
      if heard message = [] then message? (message ++ [quote, ')']) else some (heard message) := by
  have hE : quote ≠ 'E' := by
    rintro rfl
    cases hquote
  have hstart : message? (raising quote message).toList =
      message? ("Error(".toList ++ quote :: (message ++ [quote, ')'])) := by
    rw [toList_raising]
    rfl
  have hbehind : message? ("rror(".toList ++ quote :: (message ++ [quote, ')'])) =
      message? (message ++ [quote, ')']) :=
    calc message? ("rror(".toList ++ quote :: (message ++ [quote, ')']))
      _ = message? (quote :: (message ++ [quote, ')'])) := rfl
      _ = message? (message ++ [quote, ')']) := message?_of_ne hE
  have hcons : message? ("Error(".toList ++ quote :: (message ++ [quote, ')'])) =
      (messageAt? ("Error(".toList ++ quote :: (message ++ [quote, ')']))).or
        (message? ("rror(".toList ++ quote :: (message ++ [quote, ')']))) := rfl
  rw [hstart, hcons, hbehind, messageAt?_error hquote, heard_append hquote]
  split
  · rw [Option.none_or]
  · rw [Option.some_or]

/-- No quote stands in a message that is found. -/
theorem isQuote_of_message? (h : message? cs = some message) :
    ∀ c ∈ message, Source.isQuote c = false := by
  have hat : ∀ {cs : List Char}, messageAt? cs = some message →
      ∀ c ∈ message, Source.isQuote c = false := by
    intro cs h
    unfold messageAt? at h
    repeat' split at h
    all_goals cases h
    intro c hc
    simpa using List.mem_takeWhile_imp hc
  induction cs with
  | nil => cases h
  | cons c cs ih =>
    rcases Option.or_eq_some_iff.mp h with h | ⟨-, h⟩
    · exact hat h
    · exact ih h

/-- No quote stands in what is raised, be it a message that is found or the default one. -/
theorem isQuote_of_raised (cs : List Char) :
    ∀ c ∈ (((message? cs).map String.ofList).getD defaultMessage).toList,
      Source.isQuote c = false := by
  cases hfound : message? cs with
  | none =>
    have hdefault : defaultMessage.toList.all (!Source.isQuote ·) = true := by decide
    simpa using hdefault
  | some found =>
    rw [Option.map_some, Option.getD_some, String.toList_ofList]
    exact isQuote_of_message? hfound

/-! ### Classification -/

theorem assignmentShape?_raising (quote : Char) (message : List Char) :
    assignmentShape? (raising quote message).toList = none := by
  have hword : word? (raising quote message).toList =
      some ("throw", " new Error(".toList ++ quote :: (message ++ [quote, ')'])) := by
    refine word?_eq_some_iff.mpr ⟨Text.ends_cons (by decide +kernel) _, ?_⟩
    refine ⟨⟨"throw".toList, by decide, List.all_eq_true.mp (by decide)⟩, ?_, rfl⟩
    rw [toList_raising]
    rfl
  have hdeclaration : declaration? (raising quote message).toList = none := by
    rw [toList_raising]
    rfl
  have hassignment : assignment? (raising quote message).toList = none := by
    rw [assignment?, hword]
    rfl
  have hfield : fieldAssignment? (raising quote message).toList = none := by
    rw [fieldAssignment?, fieldOf?, hword]
    rfl
  rw [assignmentShape?, hdeclaration, hassignment, hfield]
  rfl

theorem classify_raising (quote : Char) (message : List Char) : classify (raising quote message) =
    .raise (((message? (raising quote message).toList).map String.ofList).getD defaultMessage) := by
  have hraises : raises (raising quote message).toList = true := by
    refine raises_iff.mpr ⟨_, (toList_raising quote message).symm, ?_⟩
    exact Text.ends_cons (by decide +kernel) _
  rw [classify_eq, assignmentShape?_raising, Option.none_or, raised?, if_pos hraises,
    Option.getD_some]

end Statement

/-! ### Scripts -/

/-- A script that raises an error with a message is one statement. -/
theorem Source.statements_raising {quote : Char} {message : List Char}
    (hquote : Source.isQuote quote = true) (hapart : quote ∉ message) :
    Source.statements (Statement.raising quote message) = [Statement.raising quote message] := by
  have htext : (Statement.raising quote message).toList =
      "throw new Error(".toList ++ (quote :: (message ++ [quote]) ++ [')']) := by
    rw [Statement.toList_raising]
    simp
  have huncut : Uncut ';' {} (Statement.raising quote message).toList := by
    rw [htext]
    refine uncut_append_iff.mpr ⟨uncut_of_not_mem (by decide), ?_⟩
    exact uncut_append_iff.mpr ⟨uncut_string rfl hquote hapart, uncut_of_not_mem (by decide)⟩
  have htrim : Text.trim (Statement.raising quote message).toList =
      (Statement.raising quote message).toList := by
    refine Text.trim_eq_self (fun c hc => ?_) (fun c hc => ?_)
    · rw [htext] at hc
      obtain rfl : 't' = c := Option.some.inj hc
      decide
    · rw [htext, ← List.append_assoc, List.getLast?_concat] at hc
      obtain rfl : ')' = c := Option.some.inj hc
      decide
  have hne : (Statement.raising quote message).toList ≠ [] := by
    rw [htext]
    exact List.cons_ne_nil _ _
  simp [statements, huncut.pieces_eq, htrim, hne]

namespace Statement

/-- **A raised message arrives up to its first quote of any kind**, and so it arrives whole exactly if
no quote stands in it, not even one that does not end it. A run of the statement fails with what
arrives. -/
theorem raised_up_to_quote {quote : Char} {message : List Char}
    (hquote : Source.isQuote quote = true) (hne : message ≠ []) (hapart : quote ∉ message) :
    ∃ arrived : String, classify (raising quote message) = .raise arrived ∧
      (arrived = String.ofList message ↔ ∀ c ∈ message, Source.isQuote c = false) ∧
      (heard message ≠ [] → arrived = String.ofList (heard message)) ∧
      ∀ m : Machine, m.live = none → isCall m.function (raising quote message) = false →
        (m.run (raising quote message)).2 = .error (.script arrived) := by
  have hmessage := message?_raising hquote message
  refine ⟨_, classify_raising quote message, ?_, ?_, ?_⟩
  · constructor
    · intro harrived
      have hraised := isQuote_of_raised (raising quote message).toList
      rwa [harrived, String.toList_ofList] at hraised
    · intro hplain
      rw [hmessage, heard_eq_self_iff.mpr hplain, if_neg hne]
      rfl
  · intro hheard
    rw [hmessage, if_neg hheard]
    rfl
  · intro m free hcall
    have hexec : exec m.env (classify (raising quote message)) = _ :=
      congrArg (exec m.env) (classify_raising quote message)
    rw [Machine.run_of_free free, Source.statements_raising hquote hapart,
      Machine.advance_of_raised (m := { m with lastValue := .undefined, status := .running }) hcall
        hexec]

/-- A message with brackets, a semicolon and the word of an error in it. -/
theorem raised_up_to_quote_brackets :
    Source.isQuote '\'' = true ∧ "Error (no; )".toList ≠ [] ∧ '\'' ∉ "Error (no; )".toList ∧
      classify "throw new Error('Error (no; )')" = .raise "Error (no; )" ∧
      ((Machine.new {}).run "throw new Error('Error (no; )')").2 =
        .error (.script "Error (no; )") := by
  have hquote : Source.isQuote '\'' = true := by decide
  have hne : "Error (no; )".toList ≠ [] := by decide
  have hapart : '\'' ∉ "Error (no; )".toList := by decide
  obtain ⟨arrived, hclassify, hwhole, -, hrun⟩ := raised_up_to_quote hquote hne hapart
  have hplain : "Error (no; )".toList.all (!Source.isQuote ·) = true := by decide
  obtain rfl : arrived = "Error (no; )" := hwhole.mpr (by simpa using hplain)
  have htext : raising '\'' "Error (no; )".toList = "throw new Error('Error (no; )')" := by decide
  rw [htext] at hclassify hrun
  exact ⟨hquote, hne, hapart, hclassify, hrun _ rfl (by decide)⟩

/-- An apostrophe cuts a message in double quotes short. -/
theorem raised_cut_short :
    Source.isQuote '"' = true ∧ '"' ∉ "it's late".toList ∧
      raising '"' "it's late".toList = "throw new Error(\"it's late\")" ∧
      classify "throw new Error(\"it's late\")" = .raise "it" := by
  refine ⟨by decide, by decide, by decide, by decide +kernel⟩

end Statement

end Resumable
