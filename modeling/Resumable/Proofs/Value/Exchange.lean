import Resumable.Proofs.Double.Nearest
import Resumable.Proofs.Fields.Ascending
import Resumable.Proofs.Value.Equality
import Resumable.Value.Json

/-!
# Values exchanged as JSON

A value goes to the host as JSON and may come back. On the way an absent value, a NaN and an infinity
become the empty value, negative zero loses its sign and the fields of every object are put in byte
order; everything else comes back as it was. What the host sees of a finite number is exactly that
number, with one exception: `2 ^ 63` is shown as the integer below it, which converts back to
`2 ^ 63`.

## The model

* `Json.Number.rational?`: the rational number a JSON number is.
* `normal`: what is left of a value after the exchange.
* `Plain`: a value without absent values and without numbers that are not finite.

## What is proved

* `numberToJson_cases`: the forms in which a finite number is shown.
* `number_shown_exactly`: the host sees the number itself, unless it is `2 ^ 63`.
* `exchange_normalizes`: what comes back is the normal form, which equals a plain value and is the
  same after a second exchange.
-/

namespace Resumable

/-- The rational number a JSON number is. -/
def Json.Number.rational? : Json.Number → Option ℚ
  | .integer n => some n
  | .float x => x.rational?

namespace Value

open Fields (names ascending)

variable {v : Value} {x : Double}

/-! ### Numbers -/

theorem maxSigned_eq : (Text.maxSigned : Int) = 2 ^ 63 - 1 := rfl

/-- A finite number is shown as the integer it is, as a number of its own kind, or, if it is
`2 ^ 63`, as the integer before that. -/
theorem numberToJson_cases (h : x.isFinite = true) :
    (∃ n : Int, x.toInt? = some n ∧ n ≠ 2 ^ 63 ∧ numberToJson x = .number (.integer n)) ∨
    (x.toInt? = some (2 ^ 63) ∧ numberToJson x = .number (.integer (2 ^ 63 - 1))) ∨
    (x.toInt? ≠ some (2 ^ 63) ∧ x.isZero = false ∧ numberToJson x = .number (.float x)) := by
  unfold numberToJson
  cases hint : x.toInt? with
  | none =>
    have hzero : x.isZero = false := Double.isZero_eq_false (by simp [hint])
    exact .inr (.inr ⟨by simp, hzero, by simp [h]⟩)
  | some n =>
    have hbound : Text.maxSigned + 1 = 2 ^ 63 := rfl
    dsimp only
    rw [hbound, maxSigned_eq]
    by_cases hfits : n.natAbs ≤ 2 ^ 63
    · rw [if_pos hfits]
      by_cases hedge : n = 2 ^ 63
      · exact .inr (.inl ⟨by rw [hedge], by rw [hedge]; rfl⟩)
      · have hmin : min n (2 ^ 63 - 1) = n := by omega
        exact .inl ⟨n, rfl, hedge, by rw [hmin]⟩
    · rw [if_neg hfits]
      have hedge : n ≠ 2 ^ 63 := by omega
      have hzero : x.isZero = false := by
        apply Double.isZero_eq_false
        rw [hint]
        rintro ⟨⟩
        exact hfits (Nat.zero_le _)
      exact .inr (.inr ⟨by simpa using hedge, hzero, rfl⟩)

theorem toInt?_eq_edge_iff : x.toInt? = some (2 ^ 63) ↔ x.rational? = some (2 ^ 63) := by
  rw [Double.toInt?_eq_some_iff]
  norm_num

/-- **The host sees a finite number exactly**, as an integer or as the number itself, unless it is
`2 ^ 63`, which is shown as the integer below it. -/
theorem number_shown_exactly (h : x.isFinite = true) :
    ∃ n, (Value.num x).toJson = .number n ∧
      (n.rational? = x.rational? ↔ x.rational? ≠ some (2 ^ 63)) ∧
      (∀ y, n = .float y → y = x) ∧
      (x.rational? = some (2 ^ 63) → n = .integer (2 ^ 63 - 1)) := by
  rw [toJson]
  rcases numberToJson_cases h with ⟨n, hint, hne, hjson⟩ | ⟨hint, hjson⟩ | ⟨hint, -, hjson⟩
  · have hvalue := Double.toInt?_eq_some_iff.mp hint
    have hother : x.rational? ≠ some (2 ^ 63) := by
      rw [← toInt?_eq_edge_iff.ne, hint]
      simpa using hne
    refine ⟨_, hjson, iff_of_true ?_ hother, by simp, fun heq => absurd heq hother⟩
    exact hvalue.symm
  · have hvalue := toInt?_eq_edge_iff.mp hint
    refine ⟨_, hjson, iff_of_false ?_ (not_not.mpr hvalue), by simp, fun _ => rfl⟩
    rw [hvalue]
    norm_num [Json.Number.rational?]
  · have hother : x.rational? ≠ some (2 ^ 63) := toInt?_eq_edge_iff.ne.mp hint
    exact ⟨_, hjson, iff_of_true rfl hother, fun y hy => (Json.Number.float.inj hy).symm,
      fun heq => absurd heq hother⟩

/-- The least integer of 64 bits is shown as it is. -/
theorem number_shown_exactly_least :
    (Double.ofInt (-2 ^ 63)).isFinite = true ∧
      ∃ n, (Value.num (.ofInt (-2 ^ 63))).toJson = .number n ∧ n.rational? = some (-2 ^ 63) := by
  have hfinite : (Double.ofInt (-2 ^ 63)).isFinite = true := by decide +kernel
  have hint : (Double.ofInt (-2 ^ 63)).toInt? = some (-2 ^ 63) := by decide +kernel
  have hvalue : (Double.ofInt (-2 ^ 63)).rational? = some (-2 ^ 63) := by
    have := Double.toInt?_eq_some_iff.mp hint
    norm_num at this ⊢
    exact this
  obtain ⟨n, hjson, hexact, -, -⟩ := number_shown_exactly hfinite
  refine ⟨hfinite, n, hjson, ?_⟩
  rw [hexact.mpr (by rw [hvalue]; norm_num), hvalue]

/-- The number `2 ^ 63` is shown as the integer below it. -/
theorem number_shown_saturated :
    (Double.ofInt (2 ^ 63)).rational? = some (2 ^ 63) ∧
      (Value.num (.ofInt (2 ^ 63))).toJson = .number (.integer (2 ^ 63 - 1)) := by
  have hint : (Double.ofInt (2 ^ 63)).toInt? = some (2 ^ 63) := by decide +kernel
  constructor
  · exact toInt?_eq_edge_iff.mp hint
  · rw [toJson, numberToJson, hint]
    rfl

/-! ### The normal form -/

/-- A number without a sign of zero. -/
def unsigned (x : Double) : Double := if x.isZero then .zero else x

mutual
/-- What is left of a value after the exchange: absent values and numbers that are not finite are
empty, zero has no sign and the fields of every object are in byte order. -/
def normal : Value → Value
  | .undefined => .null
  | .null => .null
  | .bool b => .bool b
  | .num x => if x.isFinite then .num (unsigned x) else .null
  | .str s => .str s
  | .list items => .list (normalItems items)
  | .obj fields => .obj (ascending (normalFields fields))

/-- The normal forms of the items of a list. -/
def normalItems : List Value → List Value
  | [] => []
  | v :: vs => v.normal :: normalItems vs

/-- The normal forms of the values of fields. -/
def normalFields : List (String × Value) → List (String × Value)
  | [] => []
  | (name, v) :: fs => (name, v.normal) :: normalFields fs
end

/-- A value has neither absent values in it nor numbers that are not finite. -/
inductive Plain : Value → Prop where
  /-- The empty value. -/
  | null : Plain .null
  /-- A truth value. -/
  | bool (b : Bool) : Plain (.bool b)
  /-- A finite number. -/
  | num {x : Double} (h : x.isFinite = true) : Plain (.num x)
  /-- A text. -/
  | str (s : String) : Plain (.str s)
  /-- A list of such values. -/
  | list {items : List Value} (values : ∀ v ∈ items, Plain v) : Plain (.list items)
  /-- An object of such values. -/
  | obj {fields : List (String × Value)} (values : ∀ f ∈ fields, Plain f.2) : Plain (.obj fields)

theorem normalItems_eq_map (vs : List Value) : normalItems vs = vs.map normal := by
  induction vs with
  | nil => rfl
  | cons v vs ih => rw [normalItems, ih, List.map_cons]

theorem normalFields_eq_map (fs : List (String × Value)) :
    normalFields fs = fs.map fun f => (f.1, f.2.normal) := by
  induction fs with
  | nil => rfl
  | cons f fs ih => rw [normalFields, ih, List.map_cons]

theorem names_normalFields (fs : List (String × Value)) : names (normalFields fs) = names fs := by
  rw [normalFields_eq_map, names, List.map_map]
  rfl

theorem nodup_ascending {fs : List (String × Value)} (h : (names fs).Nodup) :
    (names (ascending (normalFields fs))).Nodup := by
  rw [← names_normalFields] at h
  exact ((Fields.perm_ascending _).map Prod.fst).nodup_iff.mpr h

theorem mem_ascending {fs : List (String × Value)} {g : String × Value} :
    g ∈ ascending (normalFields fs) ↔ ∃ f ∈ fs, (f.1, f.2.normal) = g := by
  rw [(Fields.perm_ascending _).mem_iff, normalFields_eq_map, List.mem_map]

/-- The normal form of an object does not repeat a name either. -/
theorem distinct_normal (hv : v.Distinct) : v.normal.Distinct := by
  induction hv with
  | undefined | null => exact .null
  | bool b => exact .bool b
  | str s => exact .str s
  | num x =>
    rw [normal]
    split
    · exact .num _
    · exact .null
  | list values ih =>
    rw [normal, normalItems_eq_map, Distinct.list_iff, List.forall_mem_map]
    exact ih
  | obj names values ih =>
    rw [normal, Distinct.obj_iff]
    refine ⟨nodup_ascending names, fun g hg => ?_⟩
    obtain ⟨f, hf, rfl⟩ := mem_ascending.mp hg
    exact ih f hf

theorem unsigned_unsigned (x : Double) : unsigned (unsigned x) = unsigned x := by
  unfold unsigned
  by_cases h : x.isZero = true
  · rw [if_pos h]
    rfl
  · rw [if_neg h, if_neg h]

theorem isFinite_unsigned (h : x.isFinite = true) : (unsigned x).isFinite = true := by
  unfold unsigned
  split
  · rfl
  · exact h

theorem eq_unsigned (h : x.isFinite = true) : x.eq (unsigned x) = true := by
  cases x with
  | nan | infinity => simp [Double.isFinite] at h
  | finite negative rank =>
    unfold unsigned
    split
    · rename_i hzero
      have hrank : rank.val = 0 := beq_iff_eq.mp hzero
      refine Double.eq_iff.mpr ⟨0, ?_, rfl⟩
      cases negative <;> simp [Double.place, hrank]
    · exact Double.eq_self_iff.mpr rfl

/-- A normal form is its own normal form. -/
theorem normal_normal (hv : v.Distinct) : v.normal.normal = v.normal := by
  induction hv with
  | undefined | null | bool | str => rfl
  | num x =>
    rw [normal]
    split
    · rename_i h
      rw [normal, if_pos (isFinite_unsigned h), unsigned_unsigned]
    · rfl
  | @list items values ih =>
    rw [normal, normal, normalItems_eq_map, normalItems_eq_map, List.map_map]
    exact congrArg Value.list (List.map_congr_left ih)
  | @obj fields names values ih =>
    rw [normal, normal, normalFields_eq_map, normalFields_eq_map, ← Fields.ascending_map,
      Fields.ascending_ascending, List.map_map]
    refine congrArg (fun fs => Value.obj (ascending fs)) (List.map_congr_left fun f hf => ?_)
    exact Prod.ext rfl (ih f hf)

/-- A plain value equals its normal form. -/
theorem same_normal (hv : v.Distinct) (hplain : v.Plain) : v.same v.normal = true := by
  induction hv with
  | undefined => cases hplain
  | null => rfl
  | bool b => exact beq_self_eq_true b
  | str s => exact beq_self_eq_true s
  | num x =>
    cases hplain with
    | num hfinite =>
      rw [normal, if_pos hfinite, same]
      exact eq_unsigned hfinite
  | @list items values ih =>
    cases hplain with
    | list plain =>
      rw [normal, normalItems_eq_map, same, sameItems_iff]
      refine ⟨(List.length_map _).symm, fun i hi _ => ?_⟩
      rw [List.getElem_map]
      exact ih _ (List.getElem_mem hi) (plain _ (List.getElem_mem hi))
  | @obj fields names values ih =>
    cases hplain with
    | obj plain =>
      rw [normal, same_obj_iff (nodup_ascending names), (Fields.perm_ascending _).length_eq,
        normalFields_eq_map, List.length_map]
      refine ⟨rfl, fun f hf => ⟨f.2.normal, ?_, ih f hf (plain f hf)⟩⟩
      rw [← normalFields_eq_map]
      exact mem_ascending.mpr ⟨f, hf, rfl⟩

/-! ### The exchange -/

theorem itemsToJson_eq_map (vs : List Value) : itemsToJson vs = vs.map toJson := by
  induction vs with
  | nil => rfl
  | cons v vs ih => rw [itemsToJson, ih, List.map_cons]

theorem fieldsToJson_eq_map (fs : List (String × Value)) :
    fieldsToJson fs = fs.map fun f => (f.1, f.2.toJson) := by
  induction fs with
  | nil => rfl
  | cons f fs ih => rw [fieldsToJson, ih, List.map_cons]

theorem itemsOfJson_eq_map (js : List Json) : itemsOfJson js = js.map ofJson := by
  induction js with
  | nil => rfl
  | cons j js ih => rw [itemsOfJson, ih, List.map_cons]

theorem fieldsOfJson_eq_map (fs : List (String × Json)) :
    fieldsOfJson fs = fs.map fun f => (f.1, ofJson f.2) := by
  induction fs with
  | nil => rfl
  | cons f fs ih => rw [fieldsOfJson, ih, List.map_cons]

/-- The integer that stands for `2 ^ 63` converts back to it. -/
theorem ofInt_saturated : Double.ofInt (2 ^ 63 - 1) = Double.ofInt (2 ^ 63) := by decide +kernel

/-- A number comes back as it was, without a sign of zero, or is empty if it is not finite. -/
theorem ofJson_numberToJson (x : Double) : ofJson (numberToJson x) = normal (.num x) := by
  by_cases h : x.isFinite = true
  · rw [normal, if_pos h]
    rcases numberToJson_cases h with ⟨n, hint, -, hjson⟩ | ⟨hint, hjson⟩ | ⟨-, hzero, hjson⟩
    · rw [hjson, ofJson, Json.Number.toDouble, Double.ofInt_of_toInt? hint, unsigned]
    · rw [hjson, ofJson, Json.Number.toDouble, ofInt_saturated, Double.ofInt_of_toInt? hint,
        unsigned]
    · rw [hjson, ofJson, Json.Number.toDouble, unsigned, if_neg (by simp [hzero])]
  · rw [normal, if_neg h]
    cases x with
    | finite => exact absurd rfl h
    | nan | infinity => rfl

/-- What comes back of a value is its normal form. -/
theorem ofJson_toJson (hv : v.Distinct) : ofJson v.toJson = v.normal := by
  induction hv with
  | undefined | null | bool | str => rfl
  | num x => exact ofJson_numberToJson x
  | @list items values ih =>
    rw [toJson, ofJson, normal, itemsToJson_eq_map, itemsOfJson_eq_map, normalItems_eq_map,
      List.map_map]
    exact congrArg Value.list (List.map_congr_left ih)
  | @obj fields names values ih =>
    have hnames : (Fields.names (fieldsToJson fields)).Nodup := by
      rw [fieldsToJson_eq_map, Fields.names, List.map_map]
      exact names
    rw [toJson, ofJson, normal, Fields.sorted_eq_ascending hnames, fieldsOfJson_eq_map,
      ← Fields.ascending_map, fieldsToJson_eq_map, normalFields_eq_map, List.map_map]
    refine congrArg (fun fs => Value.obj (ascending fs)) (List.map_congr_left fun f hf => ?_)
    exact Prod.ext rfl (ih f hf)

/-- **The exchange only normalizes.** What comes back of a value is its normal form; it equals the
value if that is plain, and a second exchange changes nothing more. -/
theorem exchange_normalizes (hv : v.Distinct) :
    ofJson v.toJson = v.normal ∧ (v.Plain → v.same (ofJson v.toJson) = true) ∧
      ofJson (ofJson v.toJson).toJson = ofJson v.toJson := by
  have hback := ofJson_toJson hv
  refine ⟨hback, fun hplain => ?_, ?_⟩
  · rw [hback]
    exact same_normal hv hplain
  · rw [hback, ofJson_toJson (distinct_normal hv), normal_normal hv]

/-- The fields of an object change places and its negative zero loses the sign. -/
theorem exchange_normalizes_zero :
    let v := Value.obj [("b", .num Double.zero.neg), ("a", .list [.null, .str "x"])]
    v.Distinct ∧ v.Plain ∧
      ofJson v.toJson = .obj [("a", .list [.null, .str "x"]), ("b", .num .zero)] ∧
      v.same (ofJson v.toJson) = true := by
  intro v
  have hv : v.Distinct := by
    simp [v, Distinct.obj_iff, Distinct.list_iff, names, Distinct.num, Distinct.null, Distinct.str]
  have hlist : (Value.list [.null, .str "x"]).Plain := by
    apply Plain.list
    simp [Plain.null, Plain.str]
  have hplain : v.Plain := by
    apply Plain.obj
    simp [hlist, Plain.num (x := Double.zero.neg) rfl]
  have hnormal : v.normal = .obj [("a", .list [.null, .str "x"]), ("b", .num .zero)] := by
    show Value.obj (ascending [("b", .num .zero), ("a", .list [.null, .str "x"])]) = _
    rw [← Fields.sorted_eq_ascending (by simp [names])]
    rfl
  obtain ⟨hback, hsame, -⟩ := exchange_normalizes hv
  exact ⟨hv, hplain, hback.trans hnormal, hsame hplain⟩

end Value

end Resumable
