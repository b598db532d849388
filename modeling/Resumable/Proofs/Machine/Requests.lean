import Resumable.Proofs.Machine.Invariant

/-!
# Requests and their answers

A caller that keeps its history knows which request is outstanding, without looking into the
machine: the last one that was made, unless an answer was accepted or everything was dropped since
then.

## The model

* `Reply.suspension?` and `Event.accepted?`: the request that a reply hands out, and the number
  under which a call brought an answer that was taken.
* `Outstanding`: a request is outstanding after a history. Only the history is asked.

## What is proved

* `resume_answers_outstanding`: an answer is taken if and only if it goes to the outstanding
  request; otherwise the caller is told which one is outstanding, or that none is. No number is
  answered twice.
* `suspensions_numbered`: over the whole life of a machine, requests are numbered one after the
  other, from the first number of its settings on, or behind the continuation from which it was
  rebuilt.
* `history_heeded`: the calls that were refused can be left out, and nothing else changes.
-/

namespace Resumable

/-! ### What a caller sees -/

/-- The request that a reply hands out, and the number under which it is to be answered. -/
def Reply.suspension? : Reply → Option (Nat × Request)
  | .ended (.ok (.suspended id request)) => some (id, request)
  | _ => none

/-- Whether a reply refuses the call as a mistake of the caller. -/
def Reply.isRefusal : Reply → Bool
  | .ended (.error e) => e.isUsage
  | _ => false

namespace Event

/-- The number under which an event asks for an answer. -/
def asked? (e : Event) : Option Nat := e.reply.suspension?.map Prod.fst

/-- The number under which an event brought an answer that was taken. -/
def accepted? (e : Event) : Option Nat :=
  match e.call with
  | .resume id _ => if e.reply.isRefusal then none else some id
  | _ => none

/-- An event that leaves what is outstanding as it is. -/
def Quiet (e : Event) : Prop := e.asked? = none ∧ e.accepted? = none ∧ e.call ≠ .dispose

end Event

/-- The requests of a history, each with the number under which it is to be answered. -/
def suspensions (h : List Event) : List (Nat × Request) := h.filterMap (·.reply.suspension?)

/-- The numbers under which answers were taken. -/
def accepted (h : List Event) : List Nat := h.filterMap Event.accepted?

/-- The events of a history in which the call was not refused. -/
def unrefused (h : List Event) : List Event := h.filter fun e => !e.reply.isRefusal

theorem suspensions_snoc (h : List Event) (e : Event) :
    suspensions (h ++ [e]) = suspensions h ++ e.reply.suspension?.toList := by
  cases he : e.reply.suspension? <;> simp [suspensions, he]

theorem unrefused_of_isRefusal {e : Event} (he : e.reply.isRefusal = true) (h : List Event) :
    unrefused (e :: h) = unrefused h := List.filter_cons_of_neg (by simp [he])

theorem unrefused_of_not_isRefusal {e : Event} (he : e.reply.isRefusal = false) (h : List Event) :
    unrefused (e :: h) = e :: unrefused h := List.filter_cons_of_pos (by simp [he])

theorem accepted_snoc (h : List Event) (e : Event) :
    accepted (h ++ [e]) = accepted h ++ e.accepted?.toList := by
  cases he : e.accepted? <;> simp [accepted, he]

/-- A request is outstanding after a history: it is the last one that was made, and since then no
answer was taken and not everything was dropped. -/
def Outstanding (h : List Event) (id : Nat) : Prop :=
  ∃ before e since, h = before ++ e :: since ∧ e.asked? = some id ∧ ∀ f ∈ since, f.Quiet

theorem not_outstanding_nil (id : Nat) : ¬ Outstanding [] id := by
  rintro ⟨before, e, since, h, -⟩
  simp at h

/-- After one more event, a request is outstanding if the event made it, or if it was outstanding
and the event is quiet. -/
theorem outstanding_snoc {h : List Event} {e : Event} {id : Nat} :
    Outstanding (h ++ [e]) id ↔ e.asked? = some id ∨ e.Quiet ∧ Outstanding h id := by
  constructor
  · rintro ⟨before, x, since, heq, hx, hsince⟩
    rcases List.eq_nil_or_concat since with rfl | ⟨since', f, rfl⟩
    · obtain ⟨-, hlast⟩ := List.append_inj' heq rfl
      obtain rfl := List.singleton_inj.mp hlast
      exact Or.inl hx
    · rw [List.concat_eq_append, ← List.cons_append, ← List.append_assoc] at heq
      obtain ⟨rfl, hlast⟩ := List.append_inj' heq rfl
      obtain rfl := List.singleton_inj.mp hlast
      refine Or.inr ⟨hsince e (by simp), before, x, since', rfl, hx, fun f hf => ?_⟩
      exact hsince f (by simp [hf])
  · rintro (he | ⟨hquiet, before, x, since, rfl, hx, hsince⟩)
    · exact ⟨h, e, [], rfl, he, by simp⟩
    · refine ⟨before, x, since ++ [e], by simp, hx, fun f hf => ?_⟩
      rcases List.mem_append.mp hf with hf | hf
      · exact hsince f hf
      · rw [List.mem_singleton.mp hf]
        exact hquiet

namespace Machine

variable {m m' : Machine} {texts : List String} {r : Except MachineError Outcome} {c : Call}
  {reply : Reply} {h : List Event} {e : Event}

/-! ### The history tells what is awaited -/

/-- The number under which a machine awaits an answer. -/
def awaited? (m : Machine) : Option Nat := m.live.map Continuation.id

/-- Executing statements is never refused. -/
theorem AdvancesTo.not_isRefusal (h : AdvancesTo m texts m' r) :
    (Reply.ended r).isRefusal = false := by
  cases h <;> rfl

/-- After executing statements, a machine awaits an answer under the number it asked under. -/
theorem AdvancesTo.awaited (h : AdvancesTo m texts m' r) (free : m.live = none) :
    m'.awaited? = (Reply.ended r).suspension?.map Prod.fst := by
  cases h with
  | completed env v => simp [awaited?, free, Reply.suspension?]
  | failed env v message => simp [awaited?, free, Reply.suspension?]
  | suspended env v left => rfl

/-- A history tells what a machine awaits. -/
def Tells (h : List Event) (m : Machine) : Prop := ∀ id, Outstanding h id ↔ m.awaited? = some id

theorem Tells.quiet (ht : Tells h m) (he : e.Quiet) : Tells (h ++ [e]) m := by
  intro id
  rw [outstanding_snoc, he.1, ht id]
  simp [he]

theorem Tells.asked (ht : Tells h m) (he : m'.awaited? = e.asked?) (hq : e.Quiet → m.live = none) :
    Tells (h ++ [e]) m' := by
  intro id
  rw [outstanding_snoc, ht id, he]
  constructor
  · rintro (ha | ⟨hquiet, hm⟩)
    · exact ha
    · simp [awaited?, hq hquiet] at hm
  · exact Or.inl

/-- Each call keeps the history telling what the machine awaits. -/
theorem CallsTo.tells (hc : CallsTo m c m' reply) (ht : Tells h m) :
    Tells (h ++ [⟨c, reply⟩]) m' := by
  cases hc with
  | busy source held => exact ht.quiet ⟨rfl, rfl, by simp⟩
  | unasked id value free => exact ht.quiet ⟨rfl, rfl, by simp⟩
  | mismatched id value held other => exact ht.quiet ⟨rfl, rfl, by simp⟩
  | started source free ends => exact ht.asked (ends.awaited free) fun _ => free
  | answered value held ends =>
    refine ht.asked (ends.awaited rfl) fun hquiet => absurd hquiet.2.1 ?_
    simp [Event.accepted?, ends.not_isRefusal]
  | disposed => exact ht.asked rfl fun hquiet => absurd rfl hquiet.2.2

theorem tells_after (engine : Settings.Engine) (calls : List Call) :
    Tells ((new engine).history calls) ((new engine).after calls) := by
  refine history_induction (P := fun m h => Tells h m) (fun id => ?_) (fun m h c ht => ?_) calls
  · simp [not_outstanding_nil, awaited?, new]
  · exact (calls_to m c).tells ht

/-! ### What the caller is told -/

/-- An answer is taken if it goes to the awaited request, and refused with the reason otherwise. -/
theorem CallsTo.reply_resume {id : Nat} {value : Value}
    (hc : CallsTo m (.resume id value) m' reply) :
    (reply.isRefusal = false ↔ m.awaited? = some id) ∧
      (∀ other, m.awaited? = some other → other ≠ id →
        reply = .ended (.error (.mismatch other id))) ∧
      (m.awaited? = none → reply = .ended (.error (.notSuspended id))) := by
  cases hc with
  | unasked id value free => simp [awaited?, free, Reply.isRefusal, MachineError.isUsage]
  | mismatched id value held other =>
    simp [awaited?, held, other, Reply.isRefusal, MachineError.isUsage]
  | answered value held ends => simp [awaited?, held, ends.not_isRefusal]

/-! ### No number is answered twice -/

/-- The least number under which an answer may still be taken. -/
def horizon (m : Machine) : Nat := m.awaited?.getD m.nextId

/-- Executing statements brings the horizon to the next number. -/
theorem AdvancesTo.horizon_eq (h : AdvancesTo m texts m' r) (free : m.live = none) :
    m'.horizon = m.nextId := by
  cases h with
  | completed env v => simp [horizon, awaited?, free]
  | failed env v message => simp [horizon, awaited?, free]
  | suspended env v left => rfl

theorem Consistent.horizon_le (hm : Consistent m) : m.horizon ≤ m.nextId := by
  cases hlive : m.live with
  | none => simp [horizon, awaited?, hlive]
  | some k =>
    have := hm.nextId k hlive
    simp only [horizon, awaited?, hlive, Option.map_some, Option.getD_some]
    omega

/-- The horizon never goes back, and an answer that is taken falls behind it. -/
theorem CallsTo.horizon_le (hc : CallsTo m c m' reply) (hm : Consistent m) :
    m.horizon ≤ m'.horizon ∧
      ∀ id, Event.accepted? ⟨c, reply⟩ = some id → m.horizon ≤ id ∧ id < m'.horizon := by
  cases hc with
  | busy source held => exact ⟨Nat.le_refl _, fun id hid => nomatch hid⟩
  | unasked id value free => exact ⟨Nat.le_refl _, fun id hid => nomatch hid⟩
  | mismatched id value held other => exact ⟨Nat.le_refl _, fun id hid => nomatch hid⟩
  | started source free ends =>
    have hto : m'.horizon = m.nextId := ends.horizon_eq free
    exact ⟨hto ▸ hm.horizon_le, fun id hid => nomatch hid⟩
  | @answered _ _ k value held ends =>
    have hto : m'.horizon = m.nextId := ends.horizon_eq rfl
    have hnext : m.nextId = k.id + 1 := hm.nextId k held
    have hhere : m.horizon = k.id := by simp [horizon, awaited?, held]
    refine ⟨by omega, fun id hid => ?_⟩
    simp only [Event.accepted?, ends.not_isRefusal, Bool.false_eq_true, if_false,
      Option.some.injEq] at hid
    omega
  | disposed => exact ⟨hm.horizon_le, fun id hid => nomatch hid⟩

/-- The numbers answered so far ascend, and all of them lie behind the horizon. -/
structure Ascending (h : List Event) (m : Machine) : Prop where
  /-- They ascend. -/
  pairwise : (accepted h).Pairwise (· < ·)
  /-- They lie behind the horizon. -/
  behind : ∀ id ∈ accepted h, id < m.horizon

theorem CallsTo.ascending (hc : CallsTo m c m' reply) (hm : Consistent m) (ha : Ascending h m) :
    Ascending (h ++ [⟨c, reply⟩]) m' := by
  obtain ⟨hle, hnew⟩ := hc.horizon_le hm
  refine ⟨?_, fun id hid => ?_⟩
  · rw [accepted_snoc, List.pairwise_append]
    refine ⟨ha.pairwise, by cases Event.accepted? ⟨c, reply⟩ <;> simp, fun a hold b hb => ?_⟩
    exact Nat.lt_of_lt_of_le (ha.behind a hold) (hnew b (Option.mem_toList.mp hb)).1
  · rw [accepted_snoc, List.mem_append] at hid
    rcases hid with hid | hid
    · exact Nat.lt_of_lt_of_le (ha.behind id hid) hle
    · exact (hnew id (Option.mem_toList.mp hid)).2

/-- Answers are taken under ever greater numbers. -/
theorem ascending_after (engine : Settings.Engine) (calls : List Call) :
    Ascending ((new engine).history calls) ((new engine).after calls) := by
  have start : Consistent (new engine) ∧ Ascending [] (new engine) :=
    ⟨consistent_after engine [], .nil, fun id hid => by simp [accepted] at hid⟩
  refine (history_induction (P := fun m h => Consistent m ∧ Ascending h m) start ?_ calls).2
  rintro m h c ⟨hm, ha⟩
  exact ⟨(calls_to m c).consistent hm, (calls_to m c).ascending hm ha⟩

/-- **An answer is taken exactly if it goes to the outstanding request**, which the history alone
tells; otherwise the caller learns which request is outstanding, or that none is. No number is
answered twice. -/
theorem resume_answers_outstanding (engine : Settings.Engine) (calls : List Call) (id : Nat)
    (value : Value) :
    ((((new engine).after calls).call (.resume id value)).2.isRefusal = false ↔
        Outstanding ((new engine).history calls) id) ∧
      (∀ other, Outstanding ((new engine).history calls) other → other ≠ id →
        (((new engine).after calls).call (.resume id value)).2 =
          .ended (.error (.mismatch other id))) ∧
      ((∀ other, ¬ Outstanding ((new engine).history calls) other) →
        (((new engine).after calls).call (.resume id value)).2 =
          .ended (.error (.notSuspended id))) ∧
      (accepted ((new engine).history calls)).Nodup := by
  have ht := tells_after engine calls
  obtain ⟨htaken, hmismatch, hnone⟩ :=
    (calls_to ((new engine).after calls) (.resume id value)).reply_resume
  refine ⟨htaken.trans (ht id).symm, fun other ho => hmismatch other ((ht other).mp ho), ?_, ?_⟩
  · intro hno
    apply hnone
    cases hawaited : ((new engine).after calls).awaited? with
    | none => rfl
    | some other => exact absurd ((ht other).mpr hawaited) (hno other)
  · exact (ascending_after engine calls).pairwise.imp Nat.ne_of_lt

/-- After one request, an answer to another one is refused with the number of the first. -/
theorem resume_answers_outstanding_other :
    Outstanding ((new {}).history [.run "fetch(1)"]) 1 ∧
      (((new {}).after [.run "fetch(1)"]).call (.resume 2 .null)).2 =
        .ended (.error (.mismatch 1 2)) :=
  have made : Outstanding ((new {}).history [.run "fetch(1)"]) 1 :=
    ⟨[], _, [], rfl, by decide +kernel, by simp⟩
  ⟨made, (resume_answers_outstanding {} [.run "fetch(1)"] 2 .null).2.1 1 made (by decide)⟩

/-! ### Numbering -/

/-- The requests of a history are numbered one after the other, from a first number on up to the
next number of the machine. -/
structure Numbered (first : Nat) (h : List Event) (m : Machine) : Prop where
  /-- The next number is the one behind the last request. -/
  next : m.nextId = first + (suspensions h).length
  /-- Each request is numbered by its place. -/
  place : ∀ i id request, (suspensions h)[i]? = some (id, request) →
    id = first + i ∧ request.id = first + i

theorem AdvancesTo.numbers (h : AdvancesTo m texts m' r) :
    ((Reply.ended r).suspension? = none ∧ m'.nextId = m.nextId) ∨
      ∃ address, (Reply.ended r).suspension? = some (m.nextId, ⟨m.nextId, address⟩) ∧
        m'.nextId = m.nextId + 1 := by
  cases h with
  | completed env v => exact Or.inl ⟨rfl, rfl⟩
  | failed env v message => exact Or.inl ⟨rfl, rfl⟩
  | suspended env v left => exact Or.inr ⟨_, rfl, rfl⟩

/-- A call either makes no request and uses no number, or makes one and uses one number. -/
theorem CallsTo.numbers (hc : CallsTo m c m' reply) :
    (reply.suspension? = none ∧ m'.nextId = m.nextId) ∨
      ∃ address, reply.suspension? = some (m.nextId, ⟨m.nextId, address⟩) ∧
        m'.nextId = m.nextId + 1 := by
  cases hc with
  | busy | unasked | mismatched | disposed => exact Or.inl ⟨rfl, rfl⟩
  | started source free ends => exact ends.numbers
  | answered value held ends => exact ends.numbers

/-- A request is to be answered under its own number. -/
theorem CallsTo.request_id {id : Nat} {request : Request}
    (hc : CallsTo m c m' (.ended (.ok (.suspended id request)))) : request.id = id := by
  rcases hc.numbers with ⟨hnone, -⟩ | ⟨address, hsome, -⟩
  · cases hnone
  · cases hsome
    rfl

theorem CallsTo.numbered {first : Nat} (hc : CallsTo m c m' reply) (hn : Numbered first h m) :
    Numbered first (h ++ [⟨c, reply⟩]) m' := by
  rcases hc.numbers with ⟨hnone, hnext⟩ | ⟨address, hsome, hnext⟩
  · have hsame : suspensions (h ++ [⟨c, reply⟩]) = suspensions h := by
      rw [suspensions_snoc, hnone, Option.toList_none, List.append_nil]
    exact ⟨by rw [hsame, hnext, hn.next], by rw [hsame]; exact hn.place⟩
  · have hmore : suspensions (h ++ [⟨c, reply⟩]) =
        suspensions h ++ [(m.nextId, ⟨m.nextId, address⟩)] := by
      rw [suspensions_snoc, hsome, Option.toList_some]
    refine ⟨by rw [hmore, hnext, hn.next, List.length_append]; rfl, fun i id request hi => ?_⟩
    rw [hmore] at hi
    rcases Nat.lt_or_ge i (suspensions h).length with hlt | hge
    · rw [List.getElem?_append_left hlt] at hi
      exact hn.place i id request hi
    · rw [List.getElem?_append_right hge, List.getElem?_singleton] at hi
      split at hi
      · have hnew := hn.next
        simp only [Option.some.injEq, Prod.mk.injEq] at hi
        obtain ⟨rfl, rfl⟩ := hi
        exact ⟨by omega, by simp only; omega⟩
      · simp at hi

theorem numbered_after (m : Machine) (calls : List Call) :
    Numbered m.nextId (m.history calls) (m.after calls) :=
  have start : Numbered m.nextId [] m := ⟨rfl, fun i id request hi => by simp [suspensions] at hi⟩
  history_induction (P := fun m' h => Numbered m.nextId h m') start
    (fun m _ c hn => (calls_to m c).numbered hn) calls

/-- **Requests are numbered one after the other** over the whole life of a machine: from the first
number of its settings on, or, if it was rebuilt from a continuation, behind the continuation. -/
theorem suspensions_numbered (engine : Settings.Engine) (calls : List Call) :
    (∀ i id request, (suspensions ((new engine).history calls))[i]? = some (id, request) →
        id = engine.firstId + i ∧ request.id = engine.firstId + i) ∧
      ∀ k : Continuation, k.id < Text.maxWord →
        ∀ i id request, (suspensions ((ofContinuation engine k).history calls))[i]? =
            some (id, request) →
          id = max engine.firstId (k.id + 1) + i ∧ request.id = max engine.firstId (k.id + 1) + i ∧
            k.id < id := by
  refine ⟨(numbered_after (new engine) calls).place, fun k hk i id request hi => ?_⟩
  have hfirst : (ofContinuation engine k).nextId = max engine.firstId (k.id + 1) := by
    rw [ofContinuation, Nat.min_eq_left hk]
  obtain ⟨hid, hrequest⟩ := (numbered_after (ofContinuation engine k) calls).place i id request hi
  rw [hfirst] at hid hrequest
  exact ⟨hid, hrequest, by omega⟩

/-- A machine that was rebuilt at request 5 makes request 6 next. -/
theorem suspensions_numbered_rebuilt :
    5 < Text.maxWord ∧
      (suspensions ((ofContinuation {} ⟨5, none, .empty, ["fetch('/a')"], .undefined⟩).history
        [.resume 5 .null]))[0]? = some (6, ⟨6, "/a"⟩) ∧
      6 = max 1 (5 + 1) + 0 ∧ 5 < 6 :=
  have below : 5 < Text.maxWord := by decide
  have made : (suspensions ((ofContinuation {} ⟨5, none, .empty, ["fetch('/a')"],
      .undefined⟩).history [.resume 5 .null]))[0]? = some (6, ⟨6, "/a"⟩) := by decide +kernel
  have numbered := (suspensions_numbered {} [.resume 5 .null]).2
    ⟨5, none, .empty, ["fetch('/a')"], .undefined⟩ below 0 6 ⟨6, "/a"⟩ made
  ⟨below, made, numbered.1, numbered.2.2⟩

/-! ### Refused calls -/

/-- A call that is refused changes nothing. -/
theorem CallsTo.eq_of_isRefusal (hc : CallsTo m c m' reply) (hr : reply.isRefusal = true) :
    m' = m := by
  cases hc with
  | busy | unasked | mismatched => rfl
  | started source free ends =>
    rw [ends.not_isRefusal] at hr
    cases hr
  | answered value held ends =>
    rw [ends.not_isRefusal] at hr
    cases hr
  | disposed => cases hr

/-- The calls of a sequence that are not refused when it is made. -/
def heeded (m : Machine) (calls : List Call) : List Call :=
  (unrefused (m.history calls)).map Event.call

/-- **Refused calls can be left out**: the calls that are not refused bring the same replies without
the others, and the machine is the same in the end. -/
theorem history_heeded (m : Machine) (calls : List Call) :
    m.history (m.heeded calls) = unrefused (m.history calls) ∧
      m.after (m.heeded calls) = m.after calls := by
  induction calls generalizing m with
  | nil => exact ⟨rfl, rfl⟩
  | cons c calls ih =>
    obtain ⟨hhistory, hafter⟩ := ih (m.call c).1
    have hmore : m.after (c :: calls) = (m.call c).1.after calls := rfl
    rw [heeded, hmore, history]
    cases hr : (m.call c).2.isRefusal with
    | true =>
      -- The machine is the one before the call, and the call is not among those that are left.
      have hsame : (m.call c).1 = m := (calls_to m c).eq_of_isRefusal hr
      rw [hsame] at hhistory hafter ⊢
      rw [unrefused_of_isRefusal hr]
      exact ⟨hhistory, hafter⟩
    | false =>
      rw [unrefused_of_not_isRefusal hr, List.map_cons, ← heeded, history, hhistory]
      exact ⟨rfl, hafter⟩

end Machine

end Resumable
