import Resumable.Command.Execute
import Resumable.Proofs.Json.Writing
import Resumable.Proofs.Machine.Outline
import Resumable.Proofs.Machine.Requests

/-!
# What running a script prints

The command that runs a script prints one line for each request and one for the end, and answers
each request with the next response. How many lines these are, what stands in them and whether the
command fails can be told from the text of the script and the number of responses.

## The model

* `Json.Raw.at?`: what a JSON text has under a path of names.
* `TellsRequest` and `TellsEnd`: a line is a JSON text with the fields of a request, or of the end.
* `transcript`: the outcomes that requests and the end of a run come to.

## What is proved

* `converse_eq_transcript`: the command shows the outcomes of the conversation that it has with its
  machine.
* `splitOn_printed`: the output, cut at its line ends, is the texts of the outcomes.
* `execute_run_outlined`: how many lines are printed, what each of them says and how the command
  ends.
-/

namespace Resumable

/-! ### The fields of a JSON text -/

namespace Json.Raw

/-- What an object has under a name, if the name stands there once. -/
def under? (name : String) : Raw → Option Raw
  | .object fields => (named? fields).bind (Continuation.required name)
  | _ => none

/-- What stands at the end of a path of names. -/
def at? : List String → Raw → Option Raw
  | [], raw => some raw
  | name :: path, raw => (raw.under? name).bind (at? path)

/-- The text of a string. -/
def string? : Raw → Option String
  | .string s => text? s
  | _ => none

/-- The number that is written by digits alone. -/
def natural? : Raw → Option Nat
  | .number ⟨false, digits, none, none⟩ => some (Decimal.ofRun digits)
  | _ => none

/-- What an object has under a name is found there. -/
theorem under?_written (name : String) (fields : List (String × Json)) :
    under? name (Json.object fields).written = match Fields.entry name fields with
      | .once j => some j.written
      | _ => none := by
  have hnames : ((fun f : String × Raw => f.1 == name) ∘ fun f : String × Json =>
      (f.1, f.2.written)) = fun f => f.1 == name := rfl
  rw [written, under?, named?_writtenFields, Option.bind_some, Continuation.required, Fields.entry,
    Fields.entry, List.filter_map, hnames]
  cases fields.filter fun f => f.1 == name with
  | nil => rfl
  | cons f fs => cases fs <;> rfl

theorem natural?_written (n : Nat) : natural? (Json.number (.integer n)).written = some n := by
  rw [written_natural, natural?, Text.ofRun_decimal]

theorem string?_written (s : String) : string? (Json.string s).written = some s := text?_pieces s

end Json.Raw

namespace Command

open Machine (Pass callCount firstFailure?)

/-! ### Lines -/

/-- What a line has under a path of names. -/
def fieldOf? (line : String) (path : List String) : Option Json.Raw :=
  (Json.raw? line).bind (Json.Raw.at? path)

/-- A line says that the script waits for the answer to a request. -/
structure TellsRequest (line : String) (id : Nat) (address : String) : Prop where
  /-- The line is of this type. -/
  type : (fieldOf? line ["type"]).bind Json.Raw.string? = some "suspended"
  /-- The answer is to be given under this number. -/
  continuationId : (fieldOf? line ["continuationId"]).bind Json.Raw.natural? = some id
  /-- The request has the same number. -/
  requestId : (fieldOf? line ["fetchRequest", "id"]).bind Json.Raw.natural? = some id
  /-- The request has this address. -/
  url : (fieldOf? line ["fetchRequest", "url"]).bind Json.Raw.string? = some address
  /-- The request has no options. -/
  options : fieldOf? line ["fetchRequest", "options"] = some .null

/-- A line says that the script is completed, with a value in its plain form. -/
structure TellsEnd (line : String) (v : Value) : Prop where
  /-- The line is of this type. -/
  type : (fieldOf? line ["type"]).bind Json.Raw.string? = some "completed"
  /-- The value is there as its own text writes it. -/
  value : fieldOf? line ["value"] = Json.raw? v.toJson.toText

/-- The outcome of a run that stops at a request. -/
def suspension (request : Request) : Outcome := .suspended request.id request

theorem tellsRequest_suspension (request : Request) :
    TellsRequest (suspension request).toJson.toText request.id request.address := by
  constructor <;>
    simp [fieldOf?, Json.raw?_toText, suspension, Outcome.toJson, Json.Raw.at?,
      Json.Raw.under?_written, Fields.entry, Json.Raw.natural?_written, Json.Raw.string?_written]
  case options => rfl

theorem tellsEnd_completed (v : Value) : TellsEnd (Outcome.completed v).toJson.toText v := by
  constructor <;>
    simp [fieldOf?, Json.raw?_toText, Outcome.toJson, Json.Raw.at?, Json.Raw.under?_written,
      Fields.entry, Json.Raw.string?_written]

/-- The text of an outcome is one line. -/
theorem not_mem_toText (o : Outcome) : '\n' ∉ o.toJson.toText.toList := by
  intro h
  rw [Json.toText, String.toList_ofList] at h
  exact absurd (Json.visible_render _ _ h) (by decide)

/-- What is printed for outcomes, cut at its line ends, is their texts, and nothing behind the
last of them. -/
theorem splitOn_printed (outcomes : List Outcome) :
    (String.join (outcomes.map outcomeLine)).toList.splitOn '\n' =
      (outcomes.map fun o => o.toJson.toText).map String.toList ++ [[]] := by
  induction outcomes with
  | nil => rfl
  | cons o outcomes ih =>
    have hline : (outcomeLine o).toList = o.toJson.toText.toList ++ ['\n'] := String.toList_append
    rw [List.map_cons, String.join_cons, String.toList_append, hline, List.append_assoc,
      List.singleton_append, List.splitOn_append_cons_self_of_not_mem (not_mem_toText o), ih]
    rfl

/-! ### The conversation of the command -/

/-- The outcomes that requests and the end of a run come to, and the error that ended it. -/
def transcript (requests : List Request) (result : Except MachineError Outcome) :
    List Outcome × Option MachineError :=
  match result with
  | .error e => (requests.map suspension, some e)
  | .ok (.completed v) => (requests.map suspension ++ [.completed v], none)
  | .ok (.suspended _ _) => (requests.map suspension, none)

theorem transcript_cons (request : Request) (requests : List Request)
    (result : Except MachineError Outcome) :
    transcript (request :: requests) result =
      (suspension request :: (transcript requests result).1, (transcript requests result).2) := by
  unfold transcript
  split <;> rfl

/-- **The command shows the conversation that it has with its machine**, from the end of any call
on: each request, and how the last call ended. -/
theorem converse_eq_transcript (responses : List Value) :
    ∀ {m : Machine} {c : Call} {r : Machine × Except MachineError Outcome},
      Machine.CallsTo m c r.1 (.ended r.2) →
        converse responses r = transcript (Machine.converse responses r).requests
          (Machine.converse responses r).result := by
  induction responses with
  | nil =>
    rintro m c ⟨m', e | ⟨id, request⟩ | v⟩ hc
    · rfl
    · obtain rfl : request.id = id := hc.request_id
      rfl
    · rfl
  | cons response responses ih =>
    rintro m c ⟨m', e | ⟨id, request⟩ | v⟩ hc
    · rfl
    · obtain rfl : request.id = id := hc.request_id
      -- The answer is one more call, and its end is where the rest of the conversation goes on.
      rw [converse, ih (Machine.calls_to m' (.resume request.id response)), Machine.converse,
        transcript_cons]
      rfl
    · rfl

theorem converse_run (m : Machine) (source : String) (responses : List Value) :
    converse responses (m.run source) =
      transcript (Machine.converse responses (m.run source)).requests
        (Machine.converse responses (m.run source)).result :=
  converse_eq_transcript responses (Machine.calls_to m (.run source))

variable {p : Pass} {id calls n : Nat} {failure : Option String}

/-- With fewer responses than calls, the transcript has a request for each response and one more. -/
theorem transcript_of_few (hp : p.Outlined id calls failure n) (h : n < calls) :
    transcript p.requests p.result = (p.requests.map suspension, none) := by
  obtain ⟨-, id', request, hresult⟩ := hp.few h
  rw [hresult, transcript]

/-- With enough responses and no error, the transcript has a request for each call and the end. -/
theorem transcript_of_completed (hp : p.Outlined id calls none n) (h : calls ≤ n) :
    transcript p.requests p.result =
      (p.requests.map suspension ++ [.completed p.lastValue], none) := by
  rw [(hp.enough h).2, transcript]

/-- With enough responses and an error, the transcript has a request for each call, and then the
error. -/
theorem transcript_of_failed {message : String} (hp : p.Outlined id calls (some message) n)
    (h : calls ≤ n) :
    transcript p.requests p.result = (p.requests.map suspension, some (.script message)) := by
  rw [(hp.enough h).2, transcript]

/-- The outcomes of a transcript start with the requests. -/
theorem transcript_of_request {requests : List Request} {request : Request} {i : Nat}
    (h : requests[i]? = some request) (result : Except MachineError Outcome) :
    (transcript requests result).1[i]? = some (suspension request) := by
  have hat : (requests.map suspension)[i]? = some (suspension request) := by
    rw [List.getElem?_map, h, Option.map_some]
  unfold transcript
  split
  · exact hat
  · rw [List.getElem?_append_left (List.getElem?_eq_some_iff.mp hat).1]
    exact hat
  · exact hat

/-- An error in a transcript is the script's. -/
theorem not_isUsage_of_transcript (hp : p.Outlined id calls failure n) {e : MachineError}
    (he : (transcript p.requests p.result).2 = some e) : e.isUsage = false := by
  rcases Nat.lt_or_ge n calls with h | h
  · rw [transcript_of_few hp h] at he
    cases he
  · cases failure with
    | none =>
      rw [transcript_of_completed hp h] at he
      cases he
    | some message =>
      rw [transcript_of_failed hp h] at he
      cases he
      rfl

/-! ### The command -/

/-- What the command reports is the transcript of one pass over the statements. -/
theorem execute_run_eq_transcript {w : Workspace} {script source : String}
    {responses : Option String} {answers : List Value} (settings : Settings)
    (hscript : readScript w script = .ok source)
    (hresponses : responses.elim (.ok []) (readResponses w) = .ok answers) :
    let p := Machine.pass settings.engine.suspendFunction settings.engine.firstId .empty .undefined
      (Source.statements source) answers
    execute w settings (.run script responses) =
      ⟨String.join ((transcript p.requests p.result).1.map outcomeLine),
        (transcript p.requests p.result).2.map .machine⟩ := by
  intro p
  have hfollows : (Machine.converse answers ((Machine.new settings.engine).run source)).Follows p
      (Source.statements source) := by
    rw [Machine.run_of_free rfl]
    exact Machine.converse_advance _ _ _ rfl
  have hconverse : converse answers ((Machine.new settings.engine).run source) =
      transcript p.requests p.result := by
    rw [converse_run, hfollows.requests, hfollows.result]
  simp only [execute, hscript, hresponses, runScript, hconverse]

/-- **What the command prints is told by the outline of the script.** The output is lines, each with
a line end behind it. The first of them are requests: each is a JSON text with the number of its
request, counted on from the first number, and with the address that the request has in a pass which
takes the responses in order. With fewer responses than calls before the first error, there is a
line for each response and one more, and the command succeeds. With enough of them, there is a line
for each call; then the command fails with the error if there is one, and otherwise a line for the
end follows and the command succeeds. No failure is a mistake in using the machine. -/
theorem execute_run_outlined (w : Workspace) (settings : Settings) (script : String)
    (responses : Option String) (source : String) (answers : List Value)
    (hscript : readScript w script = .ok source)
    (hresponses : responses.elim (.ok []) (readResponses w) = .ok answers) :
    let function := settings.engine.suspendFunction
    let first := settings.engine.firstId
    let texts := Source.statements source
    let calls := callCount function texts
    let p := Machine.pass function first .empty .undefined texts answers
    let report := execute w settings (.run script responses)
    ∃ lines : List String,
      report.printed.toList.splitOn '\n' = lines.map String.toList ++ [[]] ∧
      (∀ i request, p.requests[i]? = some request → request.id = first + i ∧
        ∃ line, lines[i]? = some line ∧ TellsRequest line (first + i) request.address) ∧
      (answers.length < calls →
        p.requests.length = answers.length + 1 ∧ lines.length = answers.length + 1 ∧
          report.failure = none) ∧
      (calls ≤ answers.length →
        p.requests.length = calls ∧
          (firstFailure? function texts = none →
            lines.length = calls + 1 ∧
              (∃ line, lines[calls]? = some line ∧ TellsEnd line p.lastValue) ∧
              report.failure = none) ∧
          ∀ message, firstFailure? function texts = some message →
            lines.length = calls ∧ report.failure = some (.machine (.script message))) ∧
      ∀ f, report.failure = some f → ∃ e, f = .machine e ∧ e.isUsage = false := by
  intro function first texts calls p report
  have hp : p.Outlined first calls (firstFailure? function texts) answers.length :=
    Machine.pass_outlined function texts _ _ _ answers
  have hreport : report = ⟨String.join ((transcript p.requests p.result).1.map outcomeLine),
      (transcript p.requests p.result).2.map .machine⟩ :=
    execute_run_eq_transcript settings hscript hresponses
  -- From here on only the outline of the pass counts.
  clear_value p report calls texts
  refine ⟨(transcript p.requests p.result).1.map fun o => o.toJson.toText, ?_, ?_, ?_, ?_, ?_⟩
  · rw [hreport]
    exact splitOn_printed _
  · intro i request hi
    have hid : request.id = first + i := hp.numbered i request hi
    refine ⟨hid, (suspension request).toJson.toText, ?_, ?_⟩
    · rw [List.getElem?_map, transcript_of_request hi, Option.map_some]
    · rw [← hid]
      exact tellsRequest_suspension request
  · intro h
    have hlength := (hp.few h).1
    rw [hreport, transcript_of_few hp h]
    exact ⟨hlength, by simpa using hlength, rfl⟩
  · intro h
    have hlength := (hp.enough h).1
    refine ⟨hlength, fun hnone => ?_, fun message hsome => ?_⟩
    · rw [hnone] at hp
      rw [hreport, transcript_of_completed hp h]
      refine ⟨by simpa using hlength, ⟨(Outcome.completed p.lastValue).toJson.toText, ?_,
        tellsEnd_completed p.lastValue⟩, rfl⟩
      simp [← hlength]
    · rw [hsome] at hp
      rw [hreport, transcript_of_failed hp h]
      exact ⟨by simpa using hlength, rfl⟩
  · intro f hf
    rw [hreport] at hf
    obtain ⟨e, he, rfl⟩ := Option.map_eq_some_iff.mp hf
    exact ⟨e, rfl, not_isUsage_of_transcript hp he⟩

/-- Two responses for two calls and an error behind them: two lines are printed, the second with the
first response as its address, and the command fails with the error. -/
theorem execute_run_outlined_error :
    let source := "const a = fetch('/a'); fetch(a); throw new Error('no'); fetch('/c')"
    let w : Workspace := ⟨[("a.js", source.toUTF8), ("r.json", "[\"/b\", null]".toUTF8)], []⟩
    let report := execute w { engine := { firstId := 7 } } (.run "a.js" (some "r.json"))
    readScript w "a.js" = .ok source ∧ readResponses w "r.json" = .ok [.str "/b", .null] ∧
      report.printed =
        "\x7b\"continuationId\":7,\"fetchRequest\":" ++
          "\x7b\"id\":7,\"options\":null,\"url\":\"/a\"\x7d,\"type\":\"suspended\"\x7d\n" ++
        "\x7b\"continuationId\":8,\"fetchRequest\":" ++
          "\x7b\"id\":8,\"options\":null,\"url\":\"/b\"\x7d,\"type\":\"suspended\"\x7d\n" ∧
      report.failure = some (.machine (.script "no")) ∧
      ∃ lines : List String, report.printed.toList.splitOn '\n' = lines.map String.toList ++ [[]] ∧
        lines.length = 2 ∧ ∃ line, lines[1]? = some line ∧ TellsRequest line 8 "/b" := by
  intro source w report
  have hscript : readScript w "a.js" = .ok source := by
    dsimp only [w, source]
    rfl
  have hresponses : readResponses w "r.json" = .ok [.str "/b", .null] := rfl
  have hstatements : Source.statements source =
      ["const a = fetch('/a')", "fetch(a)", "throw new Error('no')", "fetch('/c')"] := by
    decide +kernel
  have hcalls : callCount "fetch" (Source.statements source) = 2 := by
    rw [hstatements]
    decide +kernel
  have hfirst : firstFailure? "fetch" (Source.statements source) = some "no" := by
    rw [hstatements]
    decide +kernel
  have hrequest : (Machine.pass "fetch" 7 .empty .undefined (Source.statements source)
      [.str "/b", .null]).requests[1]? = some ⟨8, "/b"⟩ := by
    rw [hstatements]
    decide +kernel
  obtain ⟨lines, hlines, htold, -, henough, -⟩ :=
    execute_run_outlined w { engine := { firstId := 7 } } "a.js" (some "r.json") source _ hscript
      hresponses
  obtain ⟨hlength, hfailure⟩ := (henough (Nat.le_of_eq hcalls)).2.2 "no" hfirst
  exact ⟨hscript, hresponses, by decide +kernel, hfailure, lines, hlines, hlength.trans hcalls,
    (htold 1 ⟨8, "/b"⟩ hrequest).2⟩

end Command

end Resumable
