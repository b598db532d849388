import Resumable.Proofs.Json.Writing
import Resumable.Value.Tagged.Reader

/-!
# Tagged values are read back

A value that is kept in its tagged form comes back as it was, with the fields of objects in their
order, as long as no number in it is lost. A NaN or an infinity is lost: it was written without
content, and a number without content is refused.

## The model

* `Json.depth`: how deep arrays and objects nest.
* `Value.Distinct`: no object has two fields of one name, which is what makes it an object.
* `Value.numbers` and `Value.readsBack`: the numbers in a value, and whether the text of a number
  stands for that number.

## What is proved

* `ofTagged?_toTagged`: a tagged value whose numbers read back is read back.
* `ofTagged?_eq_none`: a tagged value with a number that is not finite is refused.
-/

namespace Resumable

/-! ### Fields with distinct names -/

namespace Fields

variable {α : Type} {fs : List (String × α)}

theorem insert_of_not_mem {name : String} (value : α) (h : name ∉ names fs) :
    insert name value fs = fs ++ [(name, value)] := by
  induction fs with
  | nil => rfl
  | cons f fs ih =>
    rw [names, List.map_cons, List.mem_cons, not_or] at h
    rw [insert, if_neg (Ne.symm h.1), ih h.2, List.cons_append]

/-- Writing entries with distinct names one after the other keeps them as they are. -/
theorem ofEntries_of_nodup (h : (names fs).Nodup) : ofEntries fs = fs := by
  have hfold : ∀ (es done : List (String × α)), (names (done ++ es)).Nodup →
      es.foldl (fun fs e => insert e.1 e.2 fs) done = done ++ es := by
    intro es
    induction es with
    | nil => intro done _; rw [List.foldl_nil, List.append_nil]
    | cons e es ih =>
      intro done hnodup
      have hnew : e.1 ∉ names done := by
        rw [names, List.map_append, List.map_cons] at hnodup
        exact fun hmem => (List.nodup_append.mp hnodup).2.2 e.1 hmem e.1 (List.mem_cons_self ..) rfl
      rw [List.foldl_cons, insert_of_not_mem e.2 hnew, ih, List.append_assoc,
        List.singleton_append]
      rwa [List.append_assoc, List.singleton_append]
  exact hfold fs [] h

end Fields

/-! ### Depth -/

namespace Json

mutual
/-- How deep arrays and objects nest in a value. -/
def depth : Json → Nat
  | .array items => itemsDepth items + 1
  | .object fields => fieldsDepth fields + 1
  | _ => 0

/-- The greatest depth among items. -/
def itemsDepth : List Json → Nat
  | [] => 0
  | j :: js => max j.depth (itemsDepth js)

/-- The greatest depth among fields. -/
def fieldsDepth : List (String × Json) → Nat
  | [] => 0
  | (_, j) :: fs => max j.depth (fieldsDepth fs)
end

theorem depth_le_items {j : Json} {js : List Json} (h : j ∈ js) : j.depth ≤ itemsDepth js := by
  induction js with
  | nil => simp at h
  | cons k js ih =>
    rw [itemsDepth]
    rcases List.mem_cons.mp h with rfl | h
    · exact Nat.le_max_left _ _
    · exact Nat.le_trans (ih h) (Nat.le_max_right _ _)

theorem depth_le_fields {f : String × Json} {fs : List (String × Json)} (h : f ∈ fs) :
    f.2.depth ≤ fieldsDepth fs := by
  induction fs with
  | nil => simp at h
  | cons g fs ih =>
    rw [fieldsDepth]
    rcases List.mem_cons.mp h with rfl | h
    · exact Nat.le_max_left _ _
    · exact Nat.le_trans (ih h) (Nat.le_max_right _ _)

end Json

namespace Value

open Json (Piece Raw pieces text?_pieces)

variable {v : Value} {x : Double} {room : Nat} {manner : Manner} {tag : Tag}

/-! ### Values and their numbers -/

/-- No object in a value has two fields of one name. -/
inductive Distinct : Value → Prop where
  /-- The absent value. -/
  | undefined : Distinct .undefined
  /-- The empty value. -/
  | null : Distinct .null
  /-- A truth value. -/
  | bool (b : Bool) : Distinct (.bool b)
  /-- A number. -/
  | num (x : Double) : Distinct (.num x)
  /-- A text. -/
  | str (s : String) : Distinct (.str s)
  /-- A list of such values. -/
  | list {items : List Value} (values : ∀ v ∈ items, Distinct v) : Distinct (.list items)
  /-- An object of such values under distinct names. -/
  | obj {fields : List (String × Value)} (names : (Fields.names fields).Nodup)
      (values : ∀ f ∈ fields, Distinct f.2) : Distinct (.obj fields)

mutual
/-- The numbers in a value, at any depth. -/
def numbers : Value → List Double
  | .num x => [x]
  | .list items => itemsNumbers items
  | .obj fields => fieldsNumbers fields
  | _ => []

/-- The numbers in a list's items. -/
def itemsNumbers : List Value → List Double
  | [] => []
  | v :: vs => v.numbers ++ itemsNumbers vs

/-- The numbers in an object's fields. -/
def fieldsNumbers : List (String × Value) → List Double
  | [] => []
  | (_, v) :: fs => v.numbers ++ fieldsNumbers fs
end

theorem mem_itemsNumbers {vs : List Value} :
    x ∈ itemsNumbers vs ↔ ∃ v ∈ vs, x ∈ v.numbers := by
  induction vs with
  | nil => simp [itemsNumbers]
  | cons v vs ih => simp [itemsNumbers, ih]

theorem mem_fieldsNumbers {fs : List (String × Value)} :
    x ∈ fieldsNumbers fs ↔ ∃ f ∈ fs, x ∈ f.2.numbers := by
  induction fs with
  | nil => simp [fieldsNumbers]
  | cons f fs ih => simp only [fieldsNumbers, List.mem_append, ih, List.mem_cons, exists_eq_or_imp]

/-- Whether the text of a number stands for that number. -/
def readsBack (x : Double) : Bool :=
  match Json.read? (String.ofList (Json.renderDouble x)) with
  | some (.number n) => n.toDouble == x
  | _ => false

/-- A number that reads back was written as one and has its own value. -/
theorem written_of_readsBack (hfinite : x.isFinite = true) (h : readsBack x = true) :
    ∃ nm n, (Json.number (.float x)).written = .number nm ∧ nm.value? = some n ∧
      n.toDouble = x := by
  have hraw := Json.raw?_toText (.number (.float x))
  obtain ⟨nm, hnm⟩ := Json.Number.exists_writes (n := .float x) hfinite
  have hread := Json.numeral?_append hnm Text.ends_nil
  rw [List.append_nil] at hread
  have hwritten : (Json.number (.float x)).written = .number nm := by rw [Json.written, hread]
  unfold readsBack at h
  split at h
  · rename_i n hn
    rw [Json.toText, Json.render, Json.Number.render, hwritten] at hraw
    rw [Json.read?, hraw, Option.bind_some, Raw.toJson?] at hn
    obtain ⟨n', hvalue, heq⟩ := Option.map_eq_some_iff.mp hn
    cases heq
    exact ⟨nm, n, hwritten, hvalue, by simpa using h⟩
  · simp at h

theorem written_of_not_isFinite (h : x.isFinite = false) :
    (Json.number (.float x)).written = .null := by
  cases x with
  | finite => simp [Double.isFinite] at h
  | nan | infinity => rfl

/-! ### Reading tags -/

theorem itemsToTagged_eq_map (vs : List Value) : itemsToTagged vs = vs.map toTagged := by
  induction vs with
  | nil => rfl
  | cons v vs ih => rw [itemsToTagged, ih, List.map_cons]

theorem fieldsToTagged_eq_map (fs : List (String × Value)) :
    fieldsToTagged fs = fs.map fun f => (f.1, f.2.toTagged) := by
  induction fs with
  | nil => rfl
  | cons f fs ih => rw [fieldsToTagged, ih, List.map_cons]

theorem Tag.ofPieces?_name (tag : Tag) : Tag.ofPieces? (pieces tag.name) = some tag := by
  rw [Tag.ofPieces?, text?_pieces]
  cases tag <;> rfl

/-- A value without content is read by its kind alone. -/
theorem ofTagged?_bare (manner : Manner) (room : Nat) (tag : Tag) :
    ofTagged? manner (room + 1) (bare tag).written = Parts.value? ⟨some tag, none⟩ := by
  simp [bare, Json.written, Json.writtenFields, ofTagged?, partsOf, text?_pieces, tag?,
    Tag.ofPieces?_name]

/-- A value with content is read by the reader of its kind. -/
theorem ofTagged?_tagged (manner : Manner) (room : Nat) (tag : Tag) (content : Json) :
    ofTagged? manner (room + 1) (tagged tag content).written =
      contentOf manner room content.written tag := by
  simp [tagged, Json.written, Json.writtenFields, ofTagged?, partsOf, text?_pieces, tag?,
    Tag.ofPieces?_name, Parts.value?]

theorem ofTagged?_zero (manner : Manner) (raw : Raw) : ofTagged? manner 0 raw = none := by
  simp [ofTagged?]

/-! ### Items and fields -/

theorem itemsOf_of_forall {vs : List Value}
    (h : ∀ v ∈ vs, ofTagged? manner room v.toTagged.written = some v) :
    itemsOf manner room (Json.writtenItems (itemsToTagged vs)) = some vs := by
  induction vs with
  | nil => rfl
  | cons v vs ih =>
    have hv := h v (List.mem_cons_self ..)
    have hvs := ih fun w hw => h w (List.mem_cons_of_mem _ hw)
    simp [itemsToTagged, Json.writtenItems, itemsOf, hv, hvs]

theorem fieldsOf_of_forall {fs : List (String × Value)}
    (h : ∀ f ∈ fs, ofTagged? manner room f.2.toTagged.written = some f.2) :
    fieldsOf manner room (Json.writtenFields (fieldsToTagged fs)) = some fs := by
  induction fs with
  | nil => rfl
  | cons f fs ih =>
    have hf := h f (List.mem_cons_self ..)
    have hfs := ih fun g hg => h g (List.mem_cons_of_mem _ hg)
    simp [fieldsToTagged, Json.writtenFields, fieldsOf, text?_pieces, hf, hfs]

theorem itemsOf_eq_none {vs : List Value} (hv : v ∈ vs)
    (h : ofTagged? manner room v.toTagged.written = none) :
    itemsOf manner room (Json.writtenItems (itemsToTagged vs)) = none := by
  induction vs with
  | nil => simp at hv
  | cons w vs ih =>
    rw [itemsToTagged, Json.writtenItems, itemsOf]
    rcases List.mem_cons.mp hv with rfl | hv
    · simp [h]
    · simp [ih hv]

theorem fieldsOf_eq_none {fs : List (String × Value)} {f : String × Value} (hf : f ∈ fs)
    (h : ofTagged? manner room f.2.toTagged.written = none) :
    fieldsOf manner room (Json.writtenFields (fieldsToTagged fs)) = none := by
  induction fs with
  | nil => simp at hf
  | cons g fs ih =>
    rw [fieldsToTagged, Json.writtenFields, fieldsOf]
    rcases List.mem_cons.mp hf with rfl | hf
    · simp [text?_pieces, h]
    · simp [text?_pieces, ih hf]

/-! ### Whole values -/

theorem depth_tagged (tag : Tag) (content : Json) :
    (tagged tag content).depth = content.depth + 1 := by
  simp [tagged, Json.depth, Json.fieldsDepth]

/-- A tagged value opens a level. -/
theorem one_le_depth_toTagged (v : Value) : 1 ≤ v.toTagged.depth := by
  cases v with
  | undefined | null => exact Nat.le_refl 1
  | bool | num | str | list | obj =>
    rw [toTagged, depth_tagged]
    exact Nat.le_add_left 1 _

theorem exists_room (h : v.toTagged.depth ≤ room) : ∃ r, room = r + 1 :=
  Nat.exists_eq_add_of_le' (Nat.le_trans (one_le_depth_toTagged v) h)

theorem depth_le_itemsToTagged {vs : List Value} (hv : v ∈ vs) :
    v.toTagged.depth ≤ Json.itemsDepth (itemsToTagged vs) := by
  rw [itemsToTagged_eq_map]
  exact Json.depth_le_items (List.mem_map_of_mem hv)

theorem depth_le_fieldsToTagged {fs : List (String × Value)} {f : String × Value} (hf : f ∈ fs) :
    f.2.toTagged.depth ≤ Json.fieldsDepth (fieldsToTagged fs) := by
  have hmem : (f.1, f.2.toTagged) ∈ fieldsToTagged fs := by
    rw [fieldsToTagged_eq_map]
    exact List.mem_map_of_mem hf
  exact Json.depth_le_fields hmem

/-- **A tagged value is read back** if all its numbers are and it nests no deeper than the reader
may go. -/
theorem ofTagged?_toTagged (hv : v.Distinct)
    (hnumbers : ∀ x ∈ v.numbers, x.isFinite = true ∧ readsBack x = true)
    (hdepth : v.toTagged.depth ≤ room) :
    ofTagged? .straight room v.toTagged.written = some v := by
  induction hv generalizing room with
  | undefined =>
    obtain ⟨room, rfl⟩ := exists_room hdepth
    exact ofTagged?_bare .straight room .undefined
  | null =>
    obtain ⟨room, rfl⟩ := exists_room hdepth
    exact ofTagged?_bare .straight room .null
  | bool b =>
    obtain ⟨room, rfl⟩ := exists_room hdepth
    rw [toTagged, ofTagged?_tagged, Json.written, contentOf]
  | str s =>
    obtain ⟨room, rfl⟩ := exists_room hdepth
    rw [toTagged, ofTagged?_tagged, Json.written, contentOf, text?_pieces, Option.map_some]
  | num x =>
    obtain ⟨room, rfl⟩ := exists_room hdepth
    obtain ⟨hfinite, hreads⟩ := hnumbers x (by simp [numbers])
    obtain ⟨nm, n, hwritten, hvalue, rfl⟩ := written_of_readsBack hfinite hreads
    rw [toTagged, ofTagged?_tagged, hwritten, contentOf, hvalue, Option.map_some]
  | @list items values ih =>
    rw [toTagged, depth_tagged, Json.depth] at hdepth
    obtain ⟨room, rfl⟩ : ∃ r, room = r + 2 := ⟨room - 2, by omega⟩
    have hitems : itemsOf .straight room (Json.writtenItems (itemsToTagged items)) =
        some items := by
      refine itemsOf_of_forall fun v hv => ih v hv (fun x hx => ?_) ?_
      · exact hnumbers x (mem_itemsNumbers.mpr ⟨v, hv, hx⟩)
      · have := depth_le_itemsToTagged hv
        omega
    rw [toTagged, ofTagged?_tagged, Json.written, contentOf, hitems, Option.map_some]
  | @obj fields names values ih =>
    rw [toTagged, depth_tagged, Json.depth] at hdepth
    obtain ⟨room, rfl⟩ : ∃ r, room = r + 2 := ⟨room - 2, by omega⟩
    have hfields : fieldsOf .straight room (Json.writtenFields (fieldsToTagged fields)) =
        some fields := by
      refine fieldsOf_of_forall fun f hf => ih f hf (fun x hx => ?_) ?_
      · exact hnumbers x (mem_fieldsNumbers.mpr ⟨f, hf, hx⟩)
      · have := depth_le_fieldsToTagged hf
        omega
    rw [toTagged, ofTagged?_tagged, Json.written, contentOf, hfields, Option.map_some,
      Fields.ofEntries_of_nodup names]

/-- **A tagged value with a number that is not finite is refused**, however much room there is. -/
theorem ofTagged?_eq_none (hv : v.Distinct) (hx : x ∈ v.numbers) (hfinite : x.isFinite = false) :
    ofTagged? .straight room v.toTagged.written = none := by
  induction hv generalizing room with
  | undefined | null | bool | str => simp [numbers] at hx
  | num y =>
    obtain rfl : x = y := by simpa [numbers] using hx
    cases room with
    | zero => exact ofTagged?_zero _ _
    | succ room =>
      rw [toTagged, ofTagged?_tagged, written_of_not_isFinite hfinite]
      simp [contentOf]
  | @list items values ih =>
    obtain ⟨v, hv, hx⟩ := mem_itemsNumbers.mp hx
    cases room with
    | zero => exact ofTagged?_zero _ _
    | succ room =>
      rw [toTagged, ofTagged?_tagged, Json.written]
      cases room with
      | zero => simp [contentOf]
      | succ room => rw [contentOf, itemsOf_eq_none hv (ih v hv hx), Option.map_none]
  | @obj fields names values ih =>
    obtain ⟨f, hf, hx⟩ := mem_fieldsNumbers.mp hx
    cases room with
    | zero => exact ofTagged?_zero _ _
    | succ room =>
      rw [toTagged, ofTagged?_tagged, Json.written]
      cases room with
      | zero => simp [contentOf]
      | succ room => rw [contentOf, fieldsOf_eq_none hf (ih f hf hx), Option.map_none]

end Value

end Resumable
