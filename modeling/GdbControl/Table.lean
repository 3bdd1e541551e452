/-!
A table maps keys to values and keeps its keys in the order in which they came in. A key whose value
is replaced keeps its place; one that was erased and comes back goes to the end.
-/

namespace GdbControl

structure Table (α : Type) where
  entries : List (String × α)
  distinct : (entries.map Prod.fst).Nodup
deriving Repr

namespace Table

variable {α : Type}

def empty : Table α := ⟨[], List.nodup_nil⟩

instance : Inhabited (Table α) := ⟨empty⟩

def keys (table : Table α) : List String := table.entries.map Prod.fst

def values (table : Table α) : List α := table.entries.map Prod.snd

def size (table : Table α) : Nat := table.entries.length

def get? (table : Table α) (key : String) : Option α := table.entries.lookup key

def contains (table : Table α) (key : String) : Bool := (table.get? key).isSome

/-- The entries with the value of `key` replaced. -/
def replaced (key : String) (value : α) : List (String × α) → List (String × α)
  | [] => []
  | entry :: rest =>
    (if entry.1 = key then (key, value) else entry) :: replaced key value rest

theorem keys_replaced (key : String) (value : α) (entries : List (String × α)) :
    (replaced key value entries).map Prod.fst = entries.map Prod.fst := by
  induction entries with
  | nil => rfl
  | cons entry rest ih =>
    by_cases same : entry.1 = key
    · simp [replaced, same, ih]
    · simp [replaced, same, ih]

def insert (table : Table α) (key : String) (value : α) : Table α :=
  if present : key ∈ table.entries.map Prod.fst then
    ⟨replaced key value table.entries, by rw [keys_replaced]; exact table.distinct⟩
  else
    ⟨table.entries ++ [(key, value)], by
      rw [List.map_append, List.map_singleton]
      exact List.nodup_append.mpr ⟨table.distinct, by simp, by
        intro left inTable right inNew
        rw [List.mem_singleton] at inNew
        subst inNew
        exact fun same => present (same ▸ inTable)⟩⟩

def erase (table : Table α) (key : String) : Table α :=
  ⟨table.entries.filter (·.1 != key),
    table.distinct.sublist (List.filter_sublist.map Prod.fst)⟩

/-- A value for a key that may lack one. -/
def insertIfNew (table : Table α) (key : String) (value : α) : Table α :=
  if table.contains key then table else table.insert key value

/-- A change of the value of one key, where it has one. -/
def modify (table : Table α) (key : String) (change : α → α) : Table α :=
  match table.get? key with
  | none => table
  | some value => table.insert key (change value)

theorem lookup_replaced_self {key : String} {value : α} {entries : List (String × α)}
    (present : key ∈ entries.map Prod.fst) :
    (replaced key value entries).lookup key = some value := by
  induction entries with
  | nil => cases present
  | cons entry rest ih =>
    by_cases same : entry.1 = key
    · simp [replaced, same]
    · have inRest : key ∈ rest.map Prod.fst := by
        rcases List.mem_cons.mp present with head | tail
        · exact absurd head.symm same
        · exact tail
      have differs : (key == entry.1) = false := beq_eq_false_iff_ne.mpr (Ne.symm same)
      rw [replaced, if_neg same, List.lookup_cons, differs]
      exact ih inRest

theorem lookup_replaced_of_ne {key other : String} (value : α) (entries : List (String × α))
    (different : other ≠ key) :
    (replaced key value entries).lookup other = entries.lookup other := by
  induction entries with
  | nil => rfl
  | cons entry rest ih =>
    by_cases same : entry.1 = key
    · have differs : (other == key) = false := beq_eq_false_iff_ne.mpr different
      rw [replaced, if_pos same, List.lookup_cons, List.lookup_cons, same, differs]
      exact ih
    · rw [replaced, if_neg same, List.lookup_cons, List.lookup_cons, ih]

theorem lookup_eq_none_of_not_mem {key : String} {entries : List (String × α)}
    (absent : key ∉ entries.map Prod.fst) : entries.lookup key = none := by
  induction entries with
  | nil => rfl
  | cons entry rest ih =>
    have different : key ≠ entry.1 := fun same => absent (List.mem_cons.mpr (.inl same))
    have inRest : key ∉ rest.map Prod.fst := fun tail => absent (List.mem_cons.mpr (.inr tail))
    rw [List.lookup_cons, beq_eq_false_iff_ne.mpr different]
    exact ih inRest

theorem get?_insert_self (table : Table α) (key : String) (value : α) :
    (table.insert key value).get? key = some value := by
  unfold insert get?
  split
  · next present => exact lookup_replaced_self present
  · next absent =>
    rw [List.lookup_append, lookup_eq_none_of_not_mem absent, List.lookup_cons_self]
    rfl

theorem get?_insert_of_ne (table : Table α) {key other : String} (value : α)
    (different : other ≠ key) : (table.insert key value).get? other = table.get? other := by
  unfold insert get?
  split
  · exact lookup_replaced_of_ne value table.entries different
  · have differs : (other == key) = false := beq_eq_false_iff_ne.mpr different
    rw [List.lookup_append, List.lookup_cons, differs]
    exact Option.or_none

theorem get?_erase_self (table : Table α) (key : String) : (table.erase key).get? key = none := by
  refine lookup_eq_none_of_not_mem ?_
  intro member
  obtain ⟨entry, kept, same⟩ := List.mem_map.mp member
  have differs := (List.mem_filter.mp kept).2
  exact absurd same (bne_iff_ne.mp differs)

theorem get?_erase_of_ne (table : Table α) {key other : String} (different : other ≠ key) :
    (table.erase key).get? other = table.get? other := by
  unfold erase get?
  dsimp only
  induction table.entries with
  | nil => rfl
  | cons entry rest ih =>
    by_cases same : entry.1 = key
    · have differs : (other == entry.1) = false := by
        rw [same]
        exact beq_eq_false_iff_ne.mpr different
      rw [List.filter_cons_of_neg (by simp [same]), List.lookup_cons, differs]
      exact ih
    · rw [List.filter_cons_of_pos (by simp [same]), List.lookup_cons, List.lookup_cons, ih]

theorem keys_insert_of_mem {table : Table α} {key : String} (value : α) (present : key ∈ table.keys) :
    (table.insert key value).keys = table.keys := by
  have inTable : key ∈ table.entries.map Prod.fst := present
  simp [insert, keys, inTable, keys_replaced]

theorem replaced_of_not_mem {key : String} (value : α) {entries : List (String × α)}
    (absent : key ∉ entries.map Prod.fst) : replaced key value entries = entries := by
  induction entries with
  | nil => rfl
  | cons entry rest ih =>
    simp only [List.map_cons, List.mem_cons, not_or] at absent
    rw [replaced, if_neg (Ne.symm absent.1), ih absent.2]

theorem replaced_of_lookup {key : String} {value : α} {entries : List (String × α)}
    (distinct : (entries.map Prod.fst).Nodup) (found : entries.lookup key = some value) :
    replaced key value entries = entries := by
  induction entries with
  | nil => cases found
  | cons entry rest ih =>
    obtain ⟨alone, others⟩ := List.nodup_cons.mp distinct
    by_cases same : entry.1 = key
    · subst same
      rw [List.lookup_cons_self] at found
      cases found
      rw [replaced, if_pos rfl, replaced_of_not_mem _ alone]
    · rw [List.lookup_cons, beq_eq_false_iff_ne.mpr (Ne.symm same)] at found
      rw [replaced, if_neg same, ih others found]

/-- To give a key the value that it has changes nothing. -/
theorem insert_of_get? {table : Table α} {key : String} {value : α}
    (found : table.get? key = some value) : table.insert key value = table := by
  have present : key ∈ table.entries.map Prod.fst := by
    refine Decidable.byContradiction fun absent => ?_
    cases (lookup_eq_none_of_not_mem absent).symm.trans found
  have same := replaced_of_lookup table.distinct found
  cases table
  simp only [insert, present, dite_true, mk.injEq]
  exact same

/-- To erase a key that has no value changes nothing. -/
theorem erase_of_get? {table : Table α} {key : String} (absent : table.get? key = none) :
    table.erase key = table := by
  have others : ∀ entry ∈ table.entries, (entry.1 != key) = true := by
    intro entry member
    refine bne_iff_ne.mpr fun same => ?_
    have found := List.lookup_eq_none_iff.mp absent entry member
    simp [same] at found
  have same := List.filter_eq_self.mpr others
  cases table
  simp only [erase, mk.injEq]
  exact same

theorem keys_insert_of_not_mem {table : Table α} {key : String} (value : α)
    (absent : key ∉ table.keys) : (table.insert key value).keys = table.keys ++ [key] := by
  have notInTable : key ∉ table.entries.map Prod.fst := absent
  simp only [insert, keys, notInTable, dite_false, List.map_append, List.map_singleton]

theorem keys_erase (table : Table α) (key : String) :
    (table.erase key).keys.Sublist table.keys :=
  List.filter_sublist.map Prod.fst

theorem lookup_of_mem {key : String} {value : α} {entries : List (String × α)}
    (distinct : (entries.map Prod.fst).Nodup) (member : (key, value) ∈ entries) :
    entries.lookup key = some value := by
  induction entries with
  | nil => cases member
  | cons entry rest ih =>
    obtain ⟨alone, others⟩ := List.nodup_cons.mp distinct
    rcases List.mem_cons.mp member with rfl | inRest
    · exact List.lookup_cons_self
    · have differs : key ≠ entry.1 := by
        rintro rfl
        exact alone (List.mem_map.mpr ⟨_, inRest, rfl⟩)
      rw [List.lookup_cons, beq_eq_false_iff_ne.mpr differs]
      exact ih others inRest

/-- The entries are what the keys have. -/
theorem mem_entries_iff {table : Table α} {key : String} {value : α} :
    (key, value) ∈ table.entries ↔ table.get? key = some value := by
  constructor
  · exact lookup_of_mem table.distinct
  · intro found
    obtain ⟨front, back, shape, -⟩ := List.lookup_eq_some_iff.mp found
    rw [shape]
    exact List.mem_append_right front List.mem_cons_self

end Table
end GdbControl
