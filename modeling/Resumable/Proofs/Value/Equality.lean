import Mathlib.Data.List.Perm.Subperm
import Mathlib.Order.Compare
import Resumable.Proofs.Value.Tagged
import Resumable.Value.Equality

/-!
# Equality of values is lawful

Strict equality compares contents. On values whose objects do not repeat a name it is symmetric and
transitive, and a value equals itself exactly if there is no NaN in it. An object looks its fields
up in the other one by name and is compared in that direction only; that the other direction agrees
is a matter of counting, since as many names, all distinct and all found, are the same names.

## The model

* `Reordered`: two values differ in the order of the fields of their objects, at any depth.

## What is proved

* `Double.eq_comm`, `Double.eq_trans`, `Double.eq_self_iff`: the laws of numeric equality, on which
  the others rest.
* `sameItems_iff`, `same_obj_iff`: when lists and objects are equal.
* `same_comm`, `same_trans`, `same_self_iff`: the laws of equality of contents.
* `Reordered.same_congr`: the order of fields makes no difference.
* `looseEq_comm`, `looseEq_of_same`: loose equality is symmetric and holds of what is strictly
  equal.
-/

namespace Resumable

/-! ### Numbers -/

namespace Double

variable {x y z : Double}

/-- Two numbers are equal if they share a place on the line. -/
theorem eq_iff : x.eq y = true ↔ ∃ i, x.place = some i ∧ y.place = some i := by
  unfold eq order
  cases x.place with
  | none => simp
  | some i =>
    cases y.place with
    | none => simp
    | some j =>
      rw [beq_iff_eq, Option.some.injEq, compare_eq_iff_eq]
      constructor
      · rintro rfl
        exact ⟨i, rfl, rfl⟩
      · rintro ⟨k, ⟨⟩, ⟨⟩⟩
        rfl

theorem eq_comm (x y : Double) : x.eq y = y.eq x := by
  rw [Bool.eq_iff_iff, eq_iff, eq_iff]
  simp only [and_comm]

theorem eq_trans (hxy : x.eq y = true) (hyz : y.eq z = true) : x.eq z = true := by
  obtain ⟨i, hx, hy⟩ := eq_iff.mp hxy
  obtain ⟨j, hy', hz⟩ := eq_iff.mp hyz
  obtain rfl : i = j := Option.some.inj (hy.symm.trans hy')
  exact eq_iff.mpr ⟨i, hx, hz⟩

/-- A number equals itself unless it is the NaN. -/
theorem eq_self_iff : x.eq x = true ↔ x.isNaN = false := by
  rw [eq_iff]
  cases x <;> simp [place, isNaN]

end Double

/-! ### Names -/

namespace Fields

variable {α β : Type} {fs : List (String × α)} {gs : List (String × β)}

/-- As many names, all distinct and all found, are the same names. -/
theorem mem_names_of_subset (hnodup : (names fs).Nodup) (hlength : fs.length = gs.length)
    (hsubset : names fs ⊆ names gs) {name : String} (h : name ∈ names gs) : name ∈ names fs := by
  have hsubperm : (names fs).Subperm (names gs) := hnodup.subperm hsubset
  have hle : (names gs).length ≤ (names fs).length := by
    rw [names, names, List.length_map, List.length_map, hlength]
  exact (hsubperm.perm_of_length_le hle).mem_iff.mpr h

/-- Of the fields with one name there is only one. -/
theorem eq_of_mem (hnodup : (names fs).Nodup) {name : String} {v w : α} (hv : (name, v) ∈ fs)
    (hw : (name, w) ∈ fs) : w = v := by
  rw [← get?_eq_some_iff hnodup] at hv hw
  exact Option.some.inj (hw.symm.trans hv)

end Fields

namespace Value

open Fields (names)

variable {a b c : Value} {vs ws : List Value} {fs gs : List (String × Value)}

/-! ### Lists and objects -/

/-- Lists are equal if they are equally long and their items are equal in every place. -/
theorem sameItems_iff : sameItems vs ws = true ↔
    vs.length = ws.length ∧ ∀ i (hv : i < vs.length) (hw : i < ws.length),
      vs[i].same ws[i] = true := by
  induction vs generalizing ws with
  | nil => cases ws <;> simp [sameItems]
  | cons v vs ih =>
    cases ws with
    | nil => simp [sameItems]
    | cons w ws =>
      rw [sameItems, Bool.and_eq_true, ih]
      constructor
      · rintro ⟨hhead, hlength, htail⟩
        refine ⟨congrArg Nat.succ hlength, fun i hv hw => ?_⟩
        cases i with
        | zero => exact hhead
        | succ i => exact htail i (Nat.lt_of_succ_lt_succ hv) (Nat.lt_of_succ_lt_succ hw)
      · rintro ⟨hlength, h⟩
        exact ⟨h 0 (Nat.succ_pos _) (Nat.succ_pos _), Nat.succ.inj hlength, fun i hv hw =>
          h (i + 1) (Nat.succ_lt_succ hv) (Nat.succ_lt_succ hw)⟩

theorem sameFields_iff (hgs : (names gs).Nodup) : sameFields fs gs = true ↔
    ∀ f ∈ fs, ∃ w, (f.1, w) ∈ gs ∧ f.2.same w = true := by
  induction fs with
  | nil => simp [sameFields]
  | cons f fs ih =>
    obtain ⟨name, v⟩ := f
    rw [sameFields, Bool.and_eq_true, ih, List.forall_mem_cons]
    refine and_congr_left fun _ => ?_
    simp only [← Fields.get?_eq_some_iff hgs]
    cases Fields.get? gs name <;> simp

/-- Objects are equal if they have equally many fields and each field of the first has its equal
under its name in the second. -/
theorem same_obj_iff (hgs : (names gs).Nodup) : (Value.obj fs).same (.obj gs) = true ↔
    fs.length = gs.length ∧ ∀ f ∈ fs, ∃ w, (f.1, w) ∈ gs ∧ f.2.same w = true := by
  rw [same, Bool.and_eq_true, beq_iff_eq, sameFields_iff hgs]

/-- Two values are of one kind and equal in the way of that kind. -/
inductive Matches : Value → Value → Prop where
  /-- Absent values. -/
  | undefined : Matches .undefined .undefined
  /-- Empty values. -/
  | null : Matches .null .null
  /-- Truth values. -/
  | bool (x : Bool) : Matches (.bool x) (.bool x)
  /-- Numbers. -/
  | num {x y : Double} (h : x.eq y = true) : Matches (.num x) (.num y)
  /-- Texts. -/
  | str (s : String) : Matches (.str s) (.str s)
  /-- Lists. -/
  | list {vs ws : List Value} (h : sameItems vs ws = true) : Matches (.list vs) (.list ws)
  /-- Objects. -/
  | obj {fs gs : List (String × Value)} (h : (Value.obj fs).same (.obj gs) = true) :
      Matches (.obj fs) (.obj gs)

theorem matches_of_same (h : a.same b = true) : Matches a b := by
  unfold same at h
  split at h
  · exact .undefined
  · exact .null
  · obtain rfl := beq_iff_eq.mp h
    exact .bool _
  · exact .num h
  · obtain rfl := beq_iff_eq.mp h
    exact .str _
  · exact .list h
  · exact .obj (by rwa [same])
  · simp at h

/-! ### Symmetry, transitivity and reflexivity -/

theorem same_symm (ha : a.Distinct) (hb : b.Distinct) (h : a.same b = true) :
    b.same a = true := by
  induction ha generalizing b with
  | undefined | null | bool | str => cases matches_of_same h; exact h
  | num x =>
    cases matches_of_same h with
    | num hxy => rwa [same, Double.eq_comm]
  | @list vs values ih =>
    cases matches_of_same h with
    | @list _ ws hitems =>
      cases hb with
      | list values' =>
        rw [same, sameItems_iff]
        rw [sameItems_iff] at hitems
        refine ⟨hitems.1.symm, fun i hw hv => ?_⟩
        exact ih _ (List.getElem_mem hv) (values' _ (List.getElem_mem hw)) (hitems.2 i hv hw)
  | @obj fs hnames values ih =>
    cases matches_of_same h with
    | @obj _ gs h =>
      cases hb with
      | obj hnames' values' =>
        rw [same_obj_iff hnames'] at h
        rw [same_obj_iff hnames]
        refine ⟨h.1.symm, fun g hg => ?_⟩
        -- The name of the field is one of the first object's, and its equal there is the field.
        have hsubset : names fs ⊆ names gs := by
          intro name hname
          obtain ⟨f, hf, rfl⟩ := List.mem_map.mp hname
          obtain ⟨w, hw, -⟩ := h.2 f hf
          exact List.mem_map.mpr ⟨_, hw, rfl⟩
        have hmem := Fields.mem_names_of_subset hnames h.1 hsubset (List.mem_map.mpr ⟨g, hg, rfl⟩)
        obtain ⟨f, hf, hname⟩ := List.mem_map.mp hmem
        obtain ⟨w, hw, hsame⟩ := h.2 f hf
        rw [hname] at hw
        obtain rfl := Fields.eq_of_mem hnames' hw hg
        exact ⟨f.2, hname ▸ hf, ih f hf (values' g hg) hsame⟩

theorem same_comm (ha : a.Distinct) (hb : b.Distinct) : a.same b = b.same a :=
  Bool.eq_iff_iff.mpr ⟨same_symm ha hb, same_symm hb ha⟩

theorem same_trans (ha : a.Distinct) (hb : b.Distinct) (hc : c.Distinct) (hab : a.same b = true)
    (hbc : b.same c = true) : a.same c = true := by
  induction ha generalizing b c with
  | undefined | null | bool | str => cases matches_of_same hab; exact hbc
  | num x =>
    cases matches_of_same hab with
    | num hxy =>
      cases matches_of_same hbc with
      | num hyz => exact Double.eq_trans hxy hyz
  | @list vs values ih =>
    cases matches_of_same hab with
    | @list _ ws hvw =>
      cases matches_of_same hbc with
      | @list _ us hwu =>
        cases hb with
        | list hws =>
          cases hc with
          | list hus =>
            rw [same, sameItems_iff]
            rw [sameItems_iff] at hvw hwu
            refine ⟨hvw.1.trans hwu.1, fun i hv hu => ?_⟩
            have hw : i < ws.length := hvw.1 ▸ hv
            exact ih _ (List.getElem_mem hv) (hws _ (List.getElem_mem hw))
              (hus _ (List.getElem_mem hu)) (hvw.2 i hv hw) (hwu.2 i hw hu)
  | @obj fs hnames values ih =>
    cases matches_of_same hab with
    | @obj _ gs hab =>
      cases matches_of_same hbc with
      | @obj _ us hbc =>
        cases hb with
        | obj hgs hgsv =>
          cases hc with
          | obj hus husv =>
            rw [same_obj_iff hgs] at hab
            rw [same_obj_iff hus] at hbc ⊢
            refine ⟨hab.1.trans hbc.1, fun f hf => ?_⟩
            obtain ⟨w, hw, hfw⟩ := hab.2 f hf
            obtain ⟨u, hu, hwu⟩ := hbc.2 _ hw
            exact ⟨u, hu, ih f hf (hgsv _ hw) (husv _ hu) hfw hwu⟩

/-- A value equals itself exactly if there is no NaN in it. -/
theorem same_self_iff (ha : a.Distinct) :
    a.same a = true ↔ ∀ x ∈ a.numbers, x.isNaN = false := by
  induction ha with
  | undefined | null | bool | str => simp [same, numbers]
  | num x =>
    rw [same, Double.eq_self_iff]
    simp [numbers]
  | @list vs values ih =>
    have hitems : sameItems vs vs = true ↔ ∀ v ∈ vs, v.same v = true := by
      rw [sameItems_iff, List.forall_mem_iff_getElem]
      exact ⟨fun h i hi => h.2 i hi hi, fun h => ⟨rfl, fun i hi _ => h i hi⟩⟩
    rw [same, hitems, numbers]
    simp only [mem_itemsNumbers]
    constructor
    · rintro h x ⟨v, hv, hx⟩
      exact (ih v hv).mp (h v hv) x hx
    · exact fun h v hv => (ih v hv).mpr fun x hx => h x ⟨v, hv, hx⟩
  | @obj fs hnames values ih =>
    have hfields : (Value.obj fs).same (.obj fs) = true ↔ ∀ f ∈ fs, f.2.same f.2 = true := by
      rw [same_obj_iff hnames]
      constructor
      · rintro ⟨-, h⟩ f hf
        obtain ⟨w, hw, hsame⟩ := h f hf
        rwa [Fields.eq_of_mem hnames hf hw] at hsame
      · exact fun h => ⟨rfl, fun f hf => ⟨f.2, hf, h f hf⟩⟩
    rw [hfields, numbers]
    simp only [mem_fieldsNumbers]
    constructor
    · rintro h x ⟨f, hf, hx⟩
      exact (ih f hf).mp (h f hf) x hx
    · exact fun h f hf => (ih f hf).mpr fun x hx => h x ⟨f, hf, hx⟩

/-! ### The order of fields -/

/-- Two values differ in the order of the fields of their objects, at any depth, and in nothing
else. -/
inductive Reordered : Value → Value → Prop where
  /-- In no place. -/
  | refl (v : Value) : Reordered v v
  /-- Here and there. -/
  | trans {u v w : Value} (first : Reordered u v) (second : Reordered v w) : Reordered u w
  /-- In an object itself. -/
  | fields {fs gs : List (String × Value)} (perm : fs.Perm gs) : Reordered (.obj fs) (.obj gs)
  /-- In an item of a list. -/
  | item {v w : Value} (before after : List Value) (inner : Reordered v w) :
      Reordered (.list (before ++ v :: after)) (.list (before ++ w :: after))
  /-- In the value of a field. -/
  | field {v w : Value} (before after : List (String × Value)) (name : String)
      (inner : Reordered v w) :
      Reordered (.obj (before ++ (name, v) :: after)) (.obj (before ++ (name, w) :: after))

theorem Distinct.list_iff : (Value.list vs).Distinct ↔ ∀ v ∈ vs, v.Distinct :=
  ⟨fun h => by cases h; assumption, .list⟩

theorem Distinct.obj_iff :
    (Value.obj fs).Distinct ↔ (names fs).Nodup ∧ ∀ f ∈ fs, f.2.Distinct :=
  ⟨fun h => by cases h; exact ⟨‹_›, ‹_›⟩, fun h => .obj h.1 h.2⟩

theorem Reordered.distinct (h : Reordered a b) (ha : a.Distinct) : b.Distinct := by
  induction h with
  | refl => exact ha
  | trans _ _ ih ih' => exact ih' (ih ha)
  | fields perm =>
    rw [Distinct.obj_iff] at ha ⊢
    exact ⟨(perm.map Prod.fst).nodup_iff.mp ha.1, fun f hf => ha.2 f (perm.mem_iff.mpr hf)⟩
  | item before after _ ih =>
    rw [Distinct.list_iff, List.forall_mem_append, List.forall_mem_cons] at ha ⊢
    exact ⟨ha.1, ih ha.2.1, ha.2.2⟩
  | field before after name _ ih =>
    rw [Distinct.obj_iff, List.forall_mem_append, List.forall_mem_cons] at ha ⊢
    refine ⟨?_, ha.2.1, ih ha.2.2.1, ha.2.2.2⟩
    have := ha.1
    simpa [names] using this

theorem sameItems_congr {v w : Value} (h : ∀ u ∈ ws, v.same u = w.same u)
    (before after : List Value) :
    sameItems (before ++ v :: after) ws = sameItems (before ++ w :: after) ws := by
  induction before generalizing ws with
  | nil =>
    cases ws with
    | nil => rfl
    | cons u ws => rw [List.nil_append, List.nil_append, sameItems, sameItems, h u (by simp)]
  | cons v' before ih =>
    cases ws with
    | nil => rfl
    | cons u ws =>
      rw [List.cons_append, List.cons_append, sameItems, sameItems,
        ih fun u hu => h u (List.mem_cons_of_mem _ hu)]

/-- Equality of contents does not see the order of fields. -/
theorem Reordered.same_left (h : Reordered a b) (ha : a.Distinct) (hc : c.Distinct) :
    a.same c = b.same c := by
  induction h generalizing c with
  | refl => rfl
  | trans first _ ih ih' => exact (ih ha hc).trans (ih' (first.distinct ha) hc)
  | @fields fs gs perm =>
    cases hc with
    | obj hus _ =>
      rw [Bool.eq_iff_iff, same_obj_iff hus, same_obj_iff hus, perm.length_eq]
      simp only [perm.mem_iff]
    | _ => simp [same]
  | @item v w before after inner ih =>
    rw [Distinct.list_iff, List.forall_mem_append, List.forall_mem_cons] at ha
    cases hc with
    | list hus => exact sameItems_congr (fun u hu => ih ha.2.1 (hus u hu)) before after
    | _ => simp [same]
  | @field v w before after name inner ih =>
    rw [Distinct.obj_iff, List.forall_mem_append, List.forall_mem_cons] at ha
    cases hc with
    | @obj us hus husv =>
      have hvalue : (∃ u, (name, u) ∈ us ∧ v.same u = true) ↔
          ∃ u, (name, u) ∈ us ∧ w.same u = true :=
        exists_congr fun u => and_congr_right fun hu => by rw [ih ha.2.2.1 (husv _ hu)]
      rw [Bool.eq_iff_iff]
      simp only [same_obj_iff hus, List.length_append, List.length_cons, List.forall_mem_append,
        List.forall_mem_cons, hvalue]
    | _ => simp [same]

theorem Reordered.same_congr {a' b' : Value} (ha : a.Distinct) (hb : b.Distinct)
    (haa : Reordered a a') (hbb : Reordered b b') : a'.same b' = a.same b := by
  have ha' := haa.distinct ha
  have hb' := hbb.distinct hb
  rw [← haa.same_left ha hb', same_comm ha hb', ← hbb.same_left hb ha, same_comm hb ha]

/-! ### Loose equality -/

theorem eq_ofBool_self (x : Bool) : (Double.ofBool x).eq (.ofBool x) = true := by
  cases x <;> decide +kernel

/-- What is strictly equal is loosely equal. -/
theorem looseEq_of_same (h : a.same b = true) : a.looseEq b = true := by
  cases matches_of_same h with
  | undefined | null => rfl
  | bool x => exact eq_ofBool_self x
  | num hxy => exact hxy
  | str s => exact beq_self_eq_true s
  | list => exact h
  | obj => exact h

theorem looseEq_comm (ha : a.Distinct) (hb : b.Distinct) : a.looseEq b = b.looseEq a := by
  unfold looseEq
  rw [Bool.or_comm b.isNullish, Bool.and_comm b.isNullish, Bool.or_comm b.isStructured,
    same_comm hb ha, Double.eq_comm b.toNumber]
  -- But for two texts, the two sides are now written alike.
  generalize (if (a.isStructured || b.isStructured) = true then a.same b
    else a.toNumber.eq b.toNumber) = other
  split
  · rfl
  · split
    · exact BEq.comm
    · rename_i hstr
      split
      · exact absurd rfl (hstr _ _ rfl)
      · rfl

/-- **The equality operators are lawful** on values whose objects do not repeat a name. Strict
equality is symmetric and transitive, holds of a value and itself exactly if there is no NaN in it,
and does not see the order of fields. It implies loose equality, which is symmetric. -/
theorem equality_lawful (ha : a.Distinct) (hb : b.Distinct) (hc : c.Distinct) :
    a.strictEq b = b.strictEq a ∧
    (a.strictEq b = true → b.strictEq c = true → a.strictEq c = true) ∧
    (a.strictEq a = true ↔ ∀ x ∈ a.numbers, x.isNaN = false) ∧
    (∀ a' b', Reordered a a' → Reordered b b' → a'.strictEq b' = a.strictEq b) ∧
    (a.strictEq b = true → a.looseEq b = true) ∧
    a.looseEq b = b.looseEq a :=
  ⟨same_comm ha hb, same_trans ha hb hc, same_self_iff ha,
    fun _ _ haa hbb => Reordered.same_congr ha hb haa hbb, looseEq_of_same, looseEq_comm ha hb⟩

/-- Two objects with their fields in different orders and zeros of different signs. -/
theorem equality_lawful_zeros :
    let a := Value.obj [("n", .num .zero), ("l", .list [.null])]
    let b := Value.obj [("l", .list [.null]), ("n", .num Double.zero.neg)]
    a.Distinct ∧ b.Distinct ∧ a.strictEq b = true ∧ b.strictEq a = true ∧ a.strictEq a = true ∧
      a.looseEq b = true := by
  intro a b
  have ha : a.Distinct := by
    simp [a, Distinct.obj_iff, Distinct.list_iff, names, Distinct.num, Distinct.null]
  have hb : b.Distinct := by
    simp [b, Distinct.obj_iff, Distinct.list_iff, names, Distinct.num, Distinct.null]
  have hab : a.strictEq b = true := by decide +kernel
  obtain ⟨hcomm, htrans, -, -, hloose, -⟩ := equality_lawful ha hb ha
  have hba : b.strictEq a = true := hcomm ▸ hab
  exact ⟨ha, hb, hab, hba, htrans hab hba, hloose hab⟩

end Value

end Resumable
