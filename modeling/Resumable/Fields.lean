/-!
# Fields in order of arrival

A list of named entries that remembers the order in which the names first arrived. Writing a name
that is present replaces its entry in place; a new name goes to the end. Objects and environments
are such lists.

This models the maps that keep insertion order, in `Val` and in `Environment`.
-/

namespace Resumable.Fields

variable {α : Type}

/-- The names, in order of arrival. -/
def names (fs : List (String × α)) : List String := fs.map Prod.fst

/-- The entry of a name. -/
def get? (fs : List (String × α)) (name : String) : Option α := fs.lookup name

/-- Writes the entry of a name: in place if the name is present, else at the end. -/
def insert (name : String) (value : α) : List (String × α) → List (String × α)
  | [] => [(name, value)]
  | (n, v) :: fs => if n = name then (n, value) :: fs else (n, v) :: insert name value fs

/-- Writing an entry keeps the names and their order; a new name comes last. -/
theorem names_insert (name : String) (value : α) (fs : List (String × α)) :
    names (insert name value fs) = if name ∈ names fs then names fs else names fs ++ [name] := by
  induction fs with
  | nil => rfl
  | cons f fs ih =>
    obtain ⟨n, v⟩ := f
    by_cases hn : n = name
    · simp [insert, names, hn]
    · have hcons : names (insert name value ((n, v) :: fs)) =
          n :: names (insert name value fs) := by simp [insert, names, hn]
      have hmem : name ∈ names ((n, v) :: fs) ↔ name ∈ names fs := by simp [names, Ne.symm hn]
      rw [hcons, ih]
      simp only [hmem]
      split <;> rfl

theorem prefix_names_insert (name : String) (value : α) (fs : List (String × α)) :
    names fs <+: names (insert name value fs) := by
  rw [names_insert]
  split
  · exact List.prefix_refl _
  · exact List.prefix_append _ _

theorem nodup_names_insert {fs : List (String × α)} (h : (names fs).Nodup) (name : String)
    (value : α) : (names (insert name value fs)).Nodup := by
  rw [names_insert]
  split
  · exact h
  · rename_i hnew
    refine List.nodup_append.mpr ⟨h, by simp, fun a ha b hb => ?_⟩
    obtain rfl : b = name := List.mem_singleton.mp hb
    rintro rfl
    exact hnew ha

theorem mem_names_of_get? {fs : List (String × α)} {name : String} {value : α}
    (h : get? fs name = some value) : name ∈ names fs := by
  obtain ⟨before, behind, hfs, -⟩ := List.lookup_eq_some_iff.mp h
  rw [names, hfs]
  simp

theorem get?_cons (n other : String) (v : α) (fs : List (String × α)) :
    get? ((n, v) :: fs) other = if other = n then some v else get? fs other := by
  by_cases h : other = n
  · simp [get?, h]
  · simp [get?, List.lookup_cons, h, beq_eq_false_iff_ne.mpr h]

/-- Writing an entry changes what is found under its name and nothing else. -/
theorem get?_insert (name other : String) (value : α) (fs : List (String × α)) :
    get? (insert name value fs) other = if other = name then some value else get? fs other := by
  induction fs with
  | nil => exact get?_cons name other value []
  | cons f fs ih =>
    obtain ⟨n, v⟩ := f
    by_cases hn : n = name
    · rw [insert, if_pos hn, get?_cons, get?_cons, hn]
      split <;> rfl
    · rw [insert, if_neg hn, get?_cons, get?_cons, ih]
      by_cases h : other = n
      · rw [if_pos h, if_pos h, if_neg fun hname => hn (h.symm.trans hname)]
      · rw [if_neg h, if_neg h]

/-- Where no name repeats, the entry of a name is what stands beside it. -/
theorem get?_eq_some_iff {fs : List (String × α)} (h : (names fs).Nodup) (name : String)
    (value : α) : get? fs name = some value ↔ (name, value) ∈ fs := by
  induction fs with
  | nil => simp [get?]
  | cons f fs ih =>
    obtain ⟨n, v⟩ := f
    rw [names, List.map_cons, List.nodup_cons] at h
    rw [get?_cons, List.mem_cons, Prod.mk.injEq]
    by_cases hn : name = n
    · subst hn
      have hfree : (name, value) ∉ fs := fun hmem => h.1 (List.mem_map.mpr ⟨_, hmem, rfl⟩)
      simp [hfree, eq_comm]
    · simp [hn, ih h.2]

/-- The fields without those of a name. -/
def erase (name : String) (fs : List (String × α)) : List (String × α) :=
  fs.filter fun f => f.1 != name

/-- Writing an entry leaves the fields of all other names as they are and where they are. -/
theorem erase_insert (name : String) (value : α) (fs : List (String × α)) :
    erase name (insert name value fs) = erase name fs := by
  induction fs with
  | nil => simp [erase, insert]
  | cons f fs ih =>
    obtain ⟨n, v⟩ := f
    by_cases hn : n = name
    · simp [erase, insert, hn]
    · simp only [erase] at ih
      simp [erase, insert, hn, ih]

/-- What stands under a name that should not repeat. -/
inductive Entry (α : Type) where
  /-- The name does not occur. -/
  | absent
  /-- The name occurs once. -/
  | once (value : α)
  /-- The name occurs more than once. -/
  | repeated

/-- The entry of a name among fields whose names should not repeat. -/
def entry (name : String) (fs : List (String × α)) : Entry α :=
  match fs.filter fun f => f.1 == name with
  | [] => .absent
  | [(_, value)] => .once value
  | _ => .repeated

/-- The fields that result from writing entries one after the other. -/
def ofEntries (es : List (String × α)) : List (String × α) :=
  es.foldl (fun fs e => insert e.1 e.2 fs) []

/-- Writes the entry of a name among fields that ascend by name, keeping them ascending. -/
def insertSorted (name : String) (value : α) : List (String × α) → List (String × α)
  | [] => [(name, value)]
  | (n, v) :: fs =>
    if n = name then (name, value) :: fs
    else if name < n then (name, value) :: (n, v) :: fs
    else (n, v) :: insertSorted name value fs

/-- The fields ascending by name; of several entries of one name the last one counts. -/
def sorted (es : List (String × α)) : List (String × α) :=
  es.foldl (fun fs e => insertSorted e.1 e.2 fs) []

end Resumable.Fields
