import Resumable.Proofs.Machine.Calls
import Resumable.Proofs.Source.Pieces

/-!
# What holds of every machine

A machine spreads its state over its variables, its last value, its status, the continuation it
holds and the number of its next request. After any calls, made in any order and refused or not,
these fit together.

## What is proved

* `Synced`: whether an answer is awaited shows in the status, and a continuation repeats the
  variables and the last value. Executing statements ends so from any machine that awaits no answer.
* `Consistent` and `CallsTo.consistent`: besides, the next request is numbered right behind the one
  that is awaited, and what is left to execute consists of whole statements. Each call keeps this.
* `CallsTo.status`: the status after a call can be told from the one before and from what the caller
  got back.
* `consistent_after_calls`: so it is for a fresh machine after every sequence of calls.
-/

namespace Resumable

/-- The status after a call, told from the one before it and from what the caller got back. -/
def Status.after (before : Status) : Reply → Status
  | .ended (.ok (.suspended _ _)) => .suspended
  | .ended (.ok (.completed _)) => .completed
  | .ended (.error e) => if e.isUsage then before else .failed
  | .disposed => .idle

namespace Machine

variable {m m' : Machine} {texts : List String} {r : Except MachineError Outcome} {c : Call}
  {reply : Reply}

/-- What a machine shows agrees with the continuation it holds. -/
structure Synced (m : Machine) : Prop where
  /-- The status says whether an answer is awaited. -/
  suspended_iff : m.status = .suspended ↔ m.live.isSome = true
  /-- Between calls nothing is being executed. -/
  not_running : m.status ≠ .running
  /-- The continuation has the variables, in their order. -/
  snapshot : ∀ k, m.live = some k → m.env = k.snapshot
  /-- The continuation has the last value. -/
  lastValue : ∀ k, m.live = some k → m.lastValue = k.lastValue

/-- All parts of a machine fit together. -/
structure Consistent (m : Machine) : Prop extends Synced m where
  /-- The next request is numbered right behind the awaited one. -/
  nextId : ∀ k, m.live = some k → m.nextId = k.id + 1
  /-- What is left to execute consists of whole statements. -/
  remaining : ∀ k, m.live = some k → ∀ text ∈ k.remaining, Source.IsStatement text

theorem Synced.of_free (free : m.live = none) (hs : m.status ≠ .suspended)
    (hr : m.status ≠ .running) : Synced m where
  suspended_iff := by simp [free, hs]
  not_running := hr
  snapshot k hk := by simp [free] at hk
  lastValue k hk := by simp [free] at hk

theorem Consistent.of_free (free : m.live = none) (hs : m.status ≠ .suspended)
    (hr : m.status ≠ .running) : Consistent m where
  toSynced := .of_free free hs hr
  nextId k hk := by simp [free] at hk
  remaining k hk := by simp [free] at hk

/-! ### Executing statements -/

/-- However executing statements ends, what the machine shows agrees with what it holds. -/
theorem AdvancesTo.synced (h : AdvancesTo m texts m' r) (free : m.live = none) : Synced m' := by
  cases h with
  | completed env v => exact .of_free free (by simp) (by simp)
  | failed env v message => exact .of_free free (by simp) (by simp)
  | suspended env v left =>
    refine ⟨by simp, by simp, fun k hk => ?_, fun k hk => ?_⟩
    · cases hk; rfl
    · cases hk; rfl

/-- From whole statements on, all parts fit together in the end. -/
theorem AdvancesTo.consistent (h : AdvancesTo m texts m' r) (free : m.live = none)
    (whole : ∀ text ∈ texts, Source.IsStatement text) : Consistent m' := by
  have hm := h.synced free
  cases h with
  | completed env v => exact .of_free free (by simp) (by simp)
  | failed env v message => exact .of_free free (by simp) (by simp)
  | suspended env v left =>
    refine { hm with nextId := fun k hk => ?_, remaining := fun k hk text ht => ?_ }
    · cases hk; rfl
    · -- What is kept is the rest behind one of the statements.
      cases hk
      exact whole text (left.subset (List.mem_cons_of_mem _ ht))

theorem AdvancesTo.status (h : AdvancesTo m texts m' r) (before : Status) :
    m'.status = before.after (.ended r) := by
  cases h <;> rfl

/-! ### Calls -/

/-- Each call keeps all parts of a machine fitting together. -/
theorem CallsTo.consistent (h : CallsTo m c m' reply) (hm : Consistent m) : Consistent m' := by
  cases h with
  | busy | unasked | mismatched => exact hm
  | started source free ends => exact ends.consistent free fun _ ht => .of_mem ht
  | answered value held ends => exact ends.consistent rfl (hm.remaining _ held)
  | disposed => exact .of_free rfl (by simp [dispose]) (by simp [dispose])

/-- The status after a call can be told from the reply. -/
theorem CallsTo.status (h : CallsTo m c m' reply) : m'.status = m.status.after reply := by
  cases h with
  | busy | unasked | mismatched | disposed => rfl
  | started source free ends => exact ends.status m.status
  | answered value held ends => exact ends.status m.status

theorem consistent_after (engine : Settings.Engine) (calls : List Call) :
    Consistent ((new engine).after calls) :=
  have start : Consistent (new engine) := .of_free rfl (by simp [new]) (by simp [new])
  history_induction start (fun m _ c hm => (calls_to m c).consistent hm) calls

/-- **All parts fit together after any calls**: whatever was called on a fresh machine, its parts
fit together, and the status after one more call is the one that the reply tells. -/
theorem consistent_after_calls (engine : Settings.Engine) (calls : List Call) :
    Consistent ((new engine).after calls) ∧
      ∀ c, (((new engine).after calls).call c).1.status =
        ((new engine).after calls).status.after (((new engine).after calls).call c).2 :=
  ⟨consistent_after engine calls, fun c => (calls_to _ c).status⟩

end Machine

end Resumable
