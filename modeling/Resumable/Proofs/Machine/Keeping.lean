import Resumable.Machine.Json
import Resumable.Proofs.Value.Tagged

/-!
# Continuations are kept

A continuation is kept as a text and restored from it. It comes back as it was, if every number in
it has a text that stands for it; if a number in it is not finite, it does not come back at all.

## The model

* `Continuation.WellFormed`: the number of the request has 64 bits, and neither two variables nor
  two fields of an object share a name.
* `Continuation.numbers`: the numbers in the values of a continuation.

## What is proved

* `idOf_written`, `bindingOf_written`, `remainingOf_written`: the plain parts are read back.
* `restore?_save`: a continuation is restored from its text, or lost, as its numbers are.
-/

namespace Resumable.Continuation

open Json (pieces text?_pieces)

variable {k : Continuation} {room : Nat}

/-- The number of the request has 64 bits, and names are distinct. -/
structure WellFormed (k : Continuation) : Prop where
  /-- The number of the request has 64 bits. -/
  id : k.id ≤ Text.maxWord
  /-- No two variables share a name. -/
  names : k.snapshot.names.Nodup
  /-- No two fields of an object in a variable share a name. -/
  snapshot : ∀ f ∈ k.snapshot.bindings, f.2.Distinct
  /-- No two fields of an object in the last value share a name. -/
  lastValue : k.lastValue.Distinct

/-- The numbers in the values of a continuation, at any depth. -/
def numbers (k : Continuation) : List Double :=
  Value.fieldsNumbers k.snapshot.bindings ++ k.lastValue.numbers

/-! ### The parts -/

theorem idOf_written {id : Nat} (h : id ≤ Text.maxWord) :
    idOf (Json.number (.integer id)).written = some id := by
  have hvalue : Json.Numeral.value? ⟨false, Text.decimal id, none, none⟩ = some (.integer id) := by
    simp [Json.Numeral.value?, Json.whole?, Text.ofRun_decimal, h]
  rw [Json.written_natural]
  simp [idOf, hvalue, h]

theorem bindingOf_written (binding : Option String) :
    bindingOf (binding.elim Json.null Json.string).written = some binding := by
  cases binding with
  | none => rfl
  | some s => simp [Json.written, bindingOf, text?_pieces]

theorem remainingOf_written (remaining : List String) :
    remainingOf (Json.array (remaining.map .string)).written = some remaining := by
  rw [Json.written, remainingOf, Json.writtenItems_eq_map]
  induction remaining with
  | nil => rfl
  | cons s remaining ih =>
    simp only [List.map_cons, List.mapM_cons, ih, Json.written, statementOf, text?_pieces]
    rfl

/-- The five parts are found under their names. -/
theorem ofRaw?_written (k : Continuation) (room : Nat) :
    ofRaw? (room + 1) k.toJson.written = ofParts room (Json.number (.integer k.id)).written
      (k.binding.elim Json.null Json.string).written
      (Json.object (Value.fieldsToTagged k.snapshot.bindings)).written
      (Json.array (k.remaining.map .string)).written k.lastValue.toTagged.written := by
  simp [toJson, Json.written, ofRaw?, Json.Raw.named?_writtenFields, required, optional,
    Fields.entry]

theorem depth_toJson (k : Continuation) : k.toJson.depth =
    max (Json.fieldsDepth (Value.fieldsToTagged k.snapshot.bindings) + 1)
      (max (Json.itemsDepth (k.remaining.map .string) + 1) k.lastValue.toTagged.depth) + 1 := by
  cases hbinding : k.binding <;>
    simp [toJson, Json.depth, Json.fieldsDepth, hbinding]

/-! ### The whole -/

/-- A continuation whose numbers read back is restored. -/
theorem restore?_save_of_readsBack (hk : k.WellFormed)
    (hnumbers : ∀ x ∈ k.numbers, x.isFinite = true ∧ Value.readsBack x = true)
    (hdepth : k.toJson.depth ≤ Json.maxDepth) : restore? k.save = some k := by
  rw [depth_toJson, Json.maxDepth] at hdepth
  have hsnapshot : snapshotOf 126
      (Json.object (Value.fieldsToTagged k.snapshot.bindings)).written = some k.snapshot := by
    have hfields : Value.fieldsOf .straight 125
        (Json.writtenFields (Value.fieldsToTagged k.snapshot.bindings)) =
          some k.snapshot.bindings := by
      refine Value.fieldsOf_of_forall fun f hf =>
        Value.ofTagged?_toTagged (hk.snapshot f hf) (fun x hx => ?_) ?_
      · exact hnumbers x (List.mem_append_left _ (Value.mem_fieldsNumbers.mpr ⟨f, hf, hx⟩))
      · have := Value.depth_le_fieldsToTagged hf
        omega
    rw [Json.written, snapshotOf, hfields, Option.map_some, Environment.ofBindings,
      Fields.ofEntries_of_nodup hk.names]
  have hlast : Value.ofTagged? .straight 126 k.lastValue.toTagged.written = some k.lastValue :=
    Value.ofTagged?_toTagged hk.lastValue
      (fun x hx => hnumbers x (List.mem_append_right _ hx)) (by omega)
  rw [restore?, save, Json.raw?_toText, Option.bind_some, Json.maxDepth, ofRaw?_written, ofParts,
    idOf_written hk.id, bindingOf_written, hsnapshot, remainingOf_written, hlast]
  rfl

/-- A continuation with a number that is not finite is not restored. -/
theorem restore?_save_eq_none (hk : k.WellFormed) {x : Double} (hx : x ∈ k.numbers)
    (hfinite : x.isFinite = false) : restore? k.save = none := by
  rw [restore?, save, Json.raw?_toText, Option.bind_some, Json.maxDepth, ofRaw?_written, ofParts]
  rcases List.mem_append.mp hx with hx | hx
  · obtain ⟨f, hf, hx⟩ := Value.mem_fieldsNumbers.mp hx
    have hfields : Value.fieldsOf .straight 125
        (Json.writtenFields (Value.fieldsToTagged k.snapshot.bindings)) = none :=
      Value.fieldsOf_eq_none hf (Value.ofTagged?_eq_none (hk.snapshot f hf) hx hfinite)
    have hsnapshot : snapshotOf 126
        (Json.object (Value.fieldsToTagged k.snapshot.bindings)).written = none := by
      rw [Json.written, snapshotOf, hfields, Option.map_none]
    simp [hsnapshot]
  · simp [Value.ofTagged?_eq_none hk.lastValue hx hfinite]

/-- **A continuation is restored from its text as it was**, if all its numbers read back and the
text does not nest too deep. **With a number that is not finite it is never restored.** -/
theorem restore?_save (k : Continuation) (hk : k.WellFormed) :
    ((∀ x ∈ k.numbers, x.isFinite = true ∧ Value.readsBack x = true) →
        k.toJson.depth ≤ Json.maxDepth → restore? k.save = some k) ∧
      ((∃ x ∈ k.numbers, x.isFinite = false) → restore? k.save = none) :=
  ⟨restore?_save_of_readsBack hk, fun ⟨_, hx, hfinite⟩ => restore?_save_eq_none hk hx hfinite⟩

/-- A list in an object, with a tenth in it, and with a NaN. -/
theorem restore?_save_tenth :
    restore? (Continuation.save ⟨7, some "a", ⟨[("x", .obj [("n\"\n", .list
        [.num (Double.ofBits 0xbfb999999999999a), .null])])]⟩, ["x"], .undefined⟩) =
      some ⟨7, some "a", ⟨[("x", .obj [("n\"\n", .list
        [.num (Double.ofBits 0xbfb999999999999a), .null])])]⟩, ["x"], .undefined⟩ ∧
    restore? (Continuation.save ⟨7, none, .empty, [], .list [.num .nan]⟩) = none := by
  constructor
  · have hlist : ∀ v ∈ [Value.num (Double.ofBits 0xbfb999999999999a), .null], v.Distinct := by
      simp [Value.Distinct.num, Value.Distinct.null]
    have hobject : Value.Distinct (.obj [("n\"\n", .list
        [.num (Double.ofBits 0xbfb999999999999a), .null])]) :=
      .obj (by decide) (by simpa using Value.Distinct.list hlist)
    refine (restore?_save _ ⟨by decide, by decide, by simpa using hobject, .undefined⟩).1 ?_
      (by decide)
    intro x hx
    obtain rfl : x = Double.ofBits 0xbfb999999999999a := by
      simpa [numbers, Value.numbers, Value.fieldsNumbers, Value.itemsNumbers] using hx
    decide +kernel
  · have hlist : ∀ v ∈ [Value.num .nan], v.Distinct := by simp [Value.Distinct.num]
    exact (restore?_save _ ⟨by decide, by decide, by simp [Environment.empty], .list hlist⟩).2
      ⟨.nan, by simp [numbers, Value.numbers, Value.itemsNumbers], rfl⟩

end Resumable.Continuation
