import Resumable.Proofs.Machine.Invariant

/-!
# Rebuilding a machine

A continuation holds less than a machine: it has no status, no function and no number for the next
request. A machine that is rebuilt from it has to find these elsewhere, in the settings and in the
number of the awaited request.

## What is proved

* `Rebuildable`: a machine uses the function of its settings, its next number is not below their
  first one, and while it awaits an answer its next number can be told from the awaited request.
  Fresh and rebuilt machines are so, and each call keeps it.
* `ofContinuation_live`: hence a machine that awaits an answer is the machine rebuilt from its
  continuation, in every part, and no later calls can tell the two apart.
-/

namespace Resumable.Machine

variable {engine : Settings.Engine} {m m' : Machine} {texts : List String}
  {r : Except MachineError Outcome} {c : Call} {reply : Reply}

/-- What a machine holds beyond its continuation can be found in the settings and in the number of
the awaited request. -/
structure Rebuildable (engine : Settings.Engine) (m : Machine) : Prop extends Synced m where
  /-- Its function is that of the settings. -/
  function : m.function = engine.suspendFunction
  /-- Its next number is not below the first one of the settings. -/
  firstId : engine.firstId ≤ m.nextId
  /-- Its next number is the first one of the settings or the one behind the awaited request. -/
  nextId : ∀ k, m.live = some k → k.id < Text.maxWord → m.nextId = max engine.firstId (k.id + 1)

theorem Rebuildable.of_new (engine : Settings.Engine) : Rebuildable engine (new engine) where
  toSynced := .of_free rfl (by simp [new]) (by simp [new])
  function := rfl
  firstId := Nat.le_refl _
  nextId k hk := by simp [new] at hk

theorem Rebuildable.of_ofContinuation (engine : Settings.Engine) (k : Continuation) :
    Rebuildable engine (ofContinuation engine k) where
  suspended_iff := by simp [ofContinuation]
  not_running := by simp [ofContinuation]
  snapshot k' hk := by cases hk; rfl
  lastValue k' hk := by cases hk; rfl
  function := rfl
  firstId := Nat.le_max_left _ _
  nextId k' hk hid := by
    cases hk
    rw [ofContinuation, Nat.min_eq_left hid]

/-- However executing statements ends, the machine can be rebuilt: a request that is made takes the
next number, so the one behind it is next. -/
theorem AdvancesTo.rebuildable (h : AdvancesTo m texts m' r) (free : m.live = none)
    (hfunction : m.function = engine.suspendFunction) (hfirst : engine.firstId ≤ m.nextId) :
    Rebuildable engine m' := by
  have hm := h.synced free
  cases h with
  | completed env v =>
    exact { hm with
      function := hfunction, firstId := hfirst, nextId := fun k hk => by simp [free] at hk }
  | failed env v message =>
    exact { hm with
      function := hfunction, firstId := hfirst, nextId := fun k hk => by simp [free] at hk }
  | suspended env v left =>
    refine { hm with
      function := hfunction, firstId := Nat.le_succ_of_le hfirst, nextId := fun k hk _ => ?_ }
    cases hk
    exact (Nat.max_eq_right (Nat.le_succ_of_le hfirst)).symm

/-- Each call keeps a machine so that it can be rebuilt. -/
theorem CallsTo.rebuildable (h : CallsTo m c m' reply) (hm : Rebuildable engine m) :
    Rebuildable engine m' := by
  cases h with
  | busy | unasked | mismatched => exact hm
  | started source free ends => exact ends.rebuildable free hm.function hm.firstId
  | answered value held ends => exact ends.rebuildable rfl hm.function hm.firstId
  | disposed =>
    exact {
      toSynced := .of_free rfl (by simp [dispose]) (by simp [dispose])
      function := hm.function
      firstId := hm.firstId
      nextId := fun k hk => by simp [dispose] at hk }

theorem Rebuildable.after (hm : Rebuildable engine m) (calls : List Call) :
    Rebuildable engine (m.after calls) :=
  history_induction (P := fun m _ => Rebuildable engine m) hm
    (fun m _ c hm => (calls_to m c).rebuildable hm) calls

/-- A machine that awaits an answer is the one that is rebuilt from its continuation. -/
theorem Rebuildable.ofContinuation_eq (hm : Rebuildable engine m) {k : Continuation}
    (held : m.live = some k) (hid : k.id < Text.maxWord) : ofContinuation engine k = m := by
  have hnext : max engine.firstId (min (k.id + 1) Text.maxWord) = m.nextId := by
    rw [Nat.min_eq_left hid, hm.nextId k held hid]
  have hstatus : m.status = .suspended := hm.suspended_iff.mpr (by rw [held]; rfl)
  calc ofContinuation engine k
    _ = ⟨k.snapshot, some k, k.lastValue, .suspended, engine.suspendFunction,
          max engine.firstId (min (k.id + 1) Text.maxWord)⟩ := rfl
    _ = ⟨m.env, m.live, m.lastValue, m.status, m.function, m.nextId⟩ := by
      rw [hm.snapshot k held, hm.lastValue k held, held, hstatus, hm.function, hnext]
    _ = m := rfl

/-- **Rebuilding changes nothing**: a machine that was fresh or rebuilt, and awaits an answer after
any calls, holds a continuation, and rebuilding from that continuation gives the same machine. So
every later sequence of calls has the same history and leaves the same machine. -/
theorem ofContinuation_live (engine : Settings.Engine) (start : Machine)
    (built : start = new engine ∨ ∃ k, start = ofContinuation engine k) (calls : List Call)
    (waiting : (start.after calls).status = .suspended) :
    ∃ k, (start.after calls).live = some k ∧
      (k.id < Text.maxWord →
        ofContinuation engine k = start.after calls ∧
          ∀ later, (ofContinuation engine k).history later = (start.after calls).history later ∧
            (ofContinuation engine k).after later = (start.after calls).after later) := by
  have hstart : Rebuildable engine start := by
    rcases built with rfl | ⟨k, rfl⟩
    · exact .of_new engine
    · exact .of_ofContinuation engine k
  have hm := hstart.after calls
  obtain ⟨k, held⟩ := Option.isSome_iff_exists.mp (hm.suspended_iff.mp waiting)
  refine ⟨k, held, fun hid => ?_⟩
  have hsame := hm.ofContinuation_eq held hid
  exact ⟨hsame, fun later => by rw [hsame]; exact ⟨rfl, rfl⟩⟩

/-- A machine that was rebuilt below the first number of its settings and then made a request of its
own is again the one that is rebuilt from what it holds. -/
theorem ofContinuation_live_renumbered :
    ((ofContinuation { firstId := 9 } ⟨5, some "a", .empty, ["fetch(a)", "a"], .undefined⟩).after
        [.run "1", .resume 5 (.str "/x")]).status = .suspended ∧
      ∃ k, ((ofContinuation { firstId := 9 } ⟨5, some "a", .empty, ["fetch(a)", "a"],
          .undefined⟩).after [.run "1", .resume 5 (.str "/x")]).live = some k ∧ k.id = 9 ∧
        ofContinuation { firstId := 9 } k =
          (ofContinuation { firstId := 9 } ⟨5, some "a", .empty, ["fetch(a)", "a"],
            .undefined⟩).after [.run "1", .resume 5 (.str "/x")] := by
  have waiting : ((ofContinuation { firstId := 9 } ⟨5, some "a", .empty, ["fetch(a)", "a"],
      .undefined⟩).after [.run "1", .resume 5 (.str "/x")]).status = .suspended := by
    decide +kernel
  have number : ((ofContinuation { firstId := 9 } ⟨5, some "a", .empty, ["fetch(a)", "a"],
      .undefined⟩).after [.run "1", .resume 5 (.str "/x")]).live.map Continuation.id = some 9 := by
    decide +kernel
  obtain ⟨k, held, same⟩ := ofContinuation_live _ _ (.inr ⟨_, rfl⟩) _ waiting
  rw [held, Option.map_some, Option.some.injEq] at number
  exact ⟨waiting, k, held, number, (same (by rw [number]; decide)).1⟩

end Resumable.Machine
