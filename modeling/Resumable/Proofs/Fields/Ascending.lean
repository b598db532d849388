import Mathlib.Data.List.Nodup
import Mathlib.Data.String.Basic
import Resumable.Fields

/-!
# Fields in byte order

Fields that are sorted while they arrive end up as sorting them at once would leave them, in the
order of the bytes of their names. Texts are compared character by character; since the encoding
keeps the order of characters and the bytes of none begin those of another, that is the order of
their bytes.

## The model

* `Text.bytes`: the bytes of a text in its encoding.
* `Fields.ascending`: the fields in the order of the bytes of their names.

## What is proved

* `Text.lt_iff_bytes_lt`: the order of texts is the order of their bytes.
* `sorted_eq_ascending`: fields with distinct names that are sorted on arrival stand in byte order.
-/

namespace Resumable

/-! ### The order of bytes -/

namespace Text

/-- The bytes of a text in its encoding. -/
def bytes (s : String) : List UInt8 := s.toByteArray.data.toList

theorem bytes_eq (s : String) : bytes s = s.toList.flatMap String.utf8EncodeChar := by
  rw [bytes, ← String.utf8Encode_toList, List.utf8Encode]
  simp

/-- The order of numbers is the order of their digits in base 64, from the most significant one on. -/
theorem digits_lt {v w : Nat} (h : v < w) :
    v / 262144 < w / 262144 ∨ v / 262144 = w / 262144 ∧
      (v / 4096 % 64 < w / 4096 % 64 ∨ v / 4096 % 64 = w / 4096 % 64 ∧
        (v / 64 % 64 < w / 64 % 64 ∨ v / 64 % 64 = w / 64 % 64 ∧ v % 64 < w % 64)) := by
  have hv : v = v / 262144 * 262144 + v / 4096 % 64 * 4096 + v / 64 % 64 * 64 + v % 64 := by omega
  have hw : w = w / 262144 * 262144 + w / 4096 % 64 * 4096 + w / 64 % 64 * 64 + w % 64 := by omega
  have hdigit : v / 4096 % 64 < 64 ∧ v / 64 % 64 < 64 ∧ v % 64 < 64 := by omega
  rw [hv, hw] at h
  generalize v / 262144 = a, v / 4096 % 64 = b, v / 64 % 64 = c, v % 64 = d at h hdigit ⊢
  omega

theorem ofNat_cons_lt_iff {a b : Nat} (ha : a < 256) (hb : b < 256) (xs ys : List UInt8) :
    UInt8.ofNat a :: xs < UInt8.ofNat b :: ys ↔ a < b ∨ a = b ∧ xs < ys := by
  rw [List.cons_lt_cons_iff, UInt8.lt_iff_toNat_lt, ← UInt8.toNat_inj, UInt8.toNat_ofNat',
    UInt8.toNat_ofNat', Nat.mod_eq_of_lt ha, Nat.mod_eq_of_lt hb]

/-- Of two characters the smaller one has the smaller bytes, whatever follows them. -/
theorem encode_append_lt {c d : Char} (h : c < d) (xs ys : List UInt8) :
    String.utf8EncodeChar c ++ xs < String.utf8EncodeChar d ++ ys := by
  have hlt : c.val.toNat < d.val.toNat := h
  have hd : d.val.toNat < 0x110000 := by
    have := d.valid
    simp only [UInt32.isValidChar, Nat.isValidChar] at this
    omega
  unfold String.utf8EncodeChar
  generalize c.val.toNat = v at hlt ⊢
  generalize d.val.toNat = w at hlt hd ⊢
  dsimp only
  by_cases hshort : v ≤ 65535
  · split_ifs <;>
      simp (disch := omega) only [List.cons_append, List.nil_append, ofNat_cons_lt_iff] <;> omega
  · -- Both characters have four bytes, one digit in each.
    have hv : v / 262144 % 8 = v / 262144 := Nat.mod_eq_of_lt (by omega)
    have hw : w / 262144 % 8 = w / 262144 := Nat.mod_eq_of_lt (by omega)
    rw [if_neg (by omega), if_neg (by omega), if_neg hshort, if_neg (by omega), if_neg (by omega),
      if_neg (by omega), hv, hw]
    simp (disch := omega) only [List.cons_append, List.nil_append, ofNat_cons_lt_iff,
      Nat.add_lt_add_iff_right, Nat.add_left_inj]
    rcases digits_lt hlt with h | ⟨h1, h | ⟨h2, h | ⟨h3, h⟩⟩⟩
    · exact .inl h
    · exact .inr ⟨h1, .inl h⟩
    · exact .inr ⟨h1, .inr ⟨h2, .inl h⟩⟩
    · exact .inr ⟨h1, .inr ⟨h2, .inr ⟨h3, .inl h⟩⟩⟩

theorem flatMap_encode_lt {cs ds : List Char} (h : cs < ds) :
    cs.flatMap String.utf8EncodeChar < ds.flatMap String.utf8EncodeChar := by
  induction cs generalizing ds with
  | nil =>
    cases ds with
    | nil => exact absurd h (List.lt_irrefl _)
    | cons d ds =>
      obtain ⟨b, bs, hbytes⟩ := List.exists_cons_of_ne_nil (String.utf8EncodeChar_ne_nil (c := d))
      rw [List.flatMap_nil, List.flatMap_cons, hbytes, List.cons_append]
      exact List.nil_lt_cons b _
  | cons c cs ih =>
    cases ds with
    | nil => exact absurd h (List.not_lt_nil _)
    | cons d ds =>
      rw [List.flatMap_cons, List.flatMap_cons]
      rcases List.cons_lt_cons_iff.mp h with hlt | ⟨rfl, hlt⟩
      · exact encode_append_lt hlt _ _
      · exact List.append_left_lt (ih hlt)

/-- **The order of texts is the order of their bytes.** -/
theorem lt_iff_bytes_lt {s t : String} : s < t ↔ bytes s < bytes t := by
  have hmono : ∀ {s t : String}, s < t → bytes s < bytes t := by
    intro s t h
    rw [bytes_eq, bytes_eq]
    exact flatMap_encode_lt (String.lt_iff.mp h)
  constructor
  · exact hmono
  · intro h
    rcases lt_trichotomy s t with hlt | rfl | hgt
    · exact hlt
    · exact absurd h (List.lt_irrefl _)
    · exact absurd h (List.lt_asymm (hmono hgt))

theorem le_iff_bytes_le {s t : String} : s ≤ t ↔ bytes s ≤ bytes t := by
  rw [← not_lt, ← List.not_lt, lt_iff_bytes_lt]

end Text

/-! ### Sorting -/

namespace Fields

variable {α β : Type} {fs : List (String × α)} {name : String}

/-- Whether the name of one field comes before that of another, or is the same, byte by byte. -/
def comesBefore (f g : String × α) : Bool := decide (Text.bytes f.1 ≤ Text.bytes g.1)

/-- The fields in the order of the bytes of their names. -/
def ascending (fs : List (String × α)) : List (String × α) := fs.mergeSort comesBefore

theorem comesBefore_iff {f g : String × α} : comesBefore f g = true ↔ f.1 ≤ g.1 := by
  rw [comesBefore, decide_eq_true_eq, ← Text.le_iff_bytes_le]

theorem perm_ascending (fs : List (String × α)) : (ascending fs).Perm fs :=
  List.mergeSort_perm fs comesBefore

theorem pairwise_ascending (fs : List (String × α)) :
    (ascending fs).Pairwise fun f g => f.1 ≤ g.1 := by
  have hpairwise : (ascending fs).Pairwise fun f g => comesBefore f g = true := by
    apply List.pairwise_mergeSort
    · intro f g h hfg hgh
      exact comesBefore_iff.mpr ((comesBefore_iff.mp hfg).trans (comesBefore_iff.mp hgh))
    · intro f g
      rw [Bool.or_eq_true, comesBefore_iff, comesBefore_iff]
      exact le_total f.1 g.1
  exact hpairwise.imp comesBefore_iff.mp

/-- Sorting looks at names only. -/
theorem ascending_map (g : α → β) (fs : List (String × α)) :
    ascending (fs.map fun f => (f.1, g f.2)) = (ascending fs).map fun f => (f.1, g f.2) := by
  apply Eq.symm
  apply List.map_mergeSort
  intro f _ g _
  rfl

theorem ascending_ascending (fs : List (String × α)) : ascending (ascending fs) = ascending fs :=
  List.mergeSort_of_pairwise ((pairwise_ascending fs).imp comesBefore_iff.mpr)

/-- A new entry goes among the fields without replacing one. -/
theorem perm_insertSorted (value : α) (h : name ∉ names fs) :
    (insertSorted name value fs).Perm ((name, value) :: fs) := by
  induction fs with
  | nil => exact .refl _
  | cons f fs ih =>
    rw [names, List.map_cons, List.mem_cons, not_or] at h
    rw [insertSorted, if_neg (Ne.symm h.1)]
    split
    · exact .refl _
    · exact ((ih h.2).cons f).trans (.swap (name, value) f fs)

/-- Fields that ascend by name still do so with a new entry among them. -/
theorem pairwise_insertSorted (value : α) (h : name ∉ names fs)
    (hfs : fs.Pairwise fun f g => f.1 < g.1) :
    (insertSorted name value fs).Pairwise fun f g => f.1 < g.1 := by
  induction fs with
  | nil => exact List.pairwise_singleton _ _
  | cons f fs ih =>
    rw [names, List.map_cons, List.mem_cons, not_or] at h
    rw [List.pairwise_cons] at hfs
    rw [insertSorted, if_neg (Ne.symm h.1)]
    split
    · rename_i hlt
      refine List.pairwise_cons.mpr ⟨?_, List.pairwise_cons.mpr hfs⟩
      intro g hg
      rcases List.mem_cons.mp hg with rfl | hg
      · exact hlt
      · exact lt_trans hlt (hfs.1 g hg)
    · rename_i hle
      refine List.pairwise_cons.mpr ⟨?_, ih h.2 hfs.2⟩
      intro g hg
      rcases List.mem_cons.mp ((perm_insertSorted value h.2).mem_iff.mp hg) with rfl | hg
      · exact lt_of_le_of_ne (not_lt.mp hle) (Ne.symm h.1)
      · exact hfs.1 g hg

/-- Sorting fields with distinct names as they arrive loses none and leaves them ascending. -/
theorem sorted_spec (h : (names fs).Nodup) :
    (sorted fs).Perm fs ∧ (sorted fs).Pairwise fun f g => f.1 < g.1 := by
  have hfold : ∀ (es done : List (String × α)), (names (done ++ es)).Nodup →
      (done.Pairwise fun f g => f.1 < g.1) →
      (es.foldl (fun fs e => insertSorted e.1 e.2 fs) done).Perm (done ++ es) ∧
        (es.foldl (fun fs e => insertSorted e.1 e.2 fs) done).Pairwise fun f g => f.1 < g.1 := by
    intro es
    induction es with
    | nil =>
      intro done _ hdone
      rw [List.foldl_nil, List.append_nil]
      exact ⟨.refl _, hdone⟩
    | cons e es ih =>
      intro done hnodup hdone
      have hnew : e.1 ∉ names done := by
        rw [names, List.map_append, List.map_cons] at hnodup
        exact fun hmem => (List.nodup_append.mp hnodup).2.2 e.1 hmem e.1 (List.mem_cons_self ..) rfl
      have hperm : (insertSorted e.1 e.2 done ++ es).Perm (done ++ e :: es) :=
        ((perm_insertSorted e.2 hnew).append_right es).trans List.perm_middle.symm
      have hnames : (names (insertSorted e.1 e.2 done ++ es)).Nodup :=
        (hperm.map Prod.fst).nodup_iff.mpr hnodup
      obtain ⟨hfolded, hpairwise⟩ := ih _ hnames (pairwise_insertSorted e.2 hnew hdone)
      exact ⟨hfolded.trans hperm, hpairwise⟩
  exact hfold fs [] h .nil

/-- **Fields with distinct names that are sorted on arrival stand in byte order.** -/
theorem sorted_eq_ascending (h : (names fs).Nodup) : sorted fs = ascending fs := by
  obtain ⟨hperm, hpairwise⟩ := sorted_spec h
  refine List.Perm.eq_of_pairwise ?_ (hpairwise.imp le_of_lt) (pairwise_ascending fs)
    (hperm.trans (perm_ascending fs).symm)
  intro f g hf hg hfg hgf
  -- Of the fields with one name there is only one.
  have hname : f.1 = g.1 := le_antisymm hfg hgf
  exact List.inj_on_of_nodup_map h (hperm.mem_iff.mp hf) ((perm_ascending fs).mem_iff.mp hg) hname

end Fields

end Resumable
