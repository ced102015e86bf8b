import ScriptHeap.Table

/-! What each operation on tables does to the look-up and to the order of the keys. -/
namespace ScriptHeap.Table
variable {α : Type}

private theorem lookup_cons_of_ne {key held : NameHash} (entries : List (NameHash × α)) (value : α)
    (different : key ≠ held) : ((held, value) :: entries).lookup key = entries.lookup key := by
  rw [List.lookup_cons, beq_eq_false_iff_ne.2 different]

private theorem lookup_eq_none {entries : List (NameHash × α)} {key : NameHash} :
    entries.lookup key = none ↔ key ∉ entries.map Prod.fst := by
  simp only [List.lookup_eq_none_iff, List.mem_map, not_exists, not_and, bne_iff_ne, ne_eq]
  exact ⟨fun absent entry member same => absent entry member same.symm,
    fun absent entry member same => absent entry member same.symm⟩

private theorem lookup_adjusted (entries : List (NameHash × α)) (key other : NameHash)
    (change : α → α) :
    (entries.map fun entry => (entry.1, if entry.1 = key then change entry.2 else entry.2)).lookup
      other = if other = key then (entries.lookup key).map change else entries.lookup other := by
  induction entries with
  | nil => simp
  | cons entry rest ih =>
    obtain ⟨held, value⟩ := entry
    rw [List.map_cons]
    by_cases here : other = held
    · subst here
      by_cases same : other = key
      · subst same
        simp
      · simp [same]
    · rw [lookup_cons_of_ne _ _ here, ih, lookup_cons_of_ne rest value here]
      by_cases same : other = key
      · subst same
        simp [lookup_cons_of_ne rest value here]
      · simp [same]

private theorem lookup_filter (entries : List (NameHash × α)) (key other : NameHash) :
    (entries.filter fun entry => entry.1 != key).lookup other =
      if other = key then none else entries.lookup other := by
  induction entries with
  | nil => simp
  | cons entry rest ih =>
    obtain ⟨held, value⟩ := entry
    by_cases gone : held = key
    · subst gone
      rw [List.filter_cons_of_neg (by simp), ih]
      by_cases same : other = held
      · simp [same]
      · simp [same, lookup_cons_of_ne rest value same]
    · rw [List.filter_cons_of_pos (by simpa using gone)]
      by_cases here : other = held
      · subst here
        simp [gone]
      · rw [lookup_cons_of_ne _ _ here, ih, lookup_cons_of_ne rest value here]

/-! ## Looking up -/

@[simp] theorem get?_empty (key : NameHash) : (empty : Table α).get? key = none := rfl

@[simp] theorem keys_empty : (empty : Table α).keys = [] := rfl

theorem get?_eq_none_iff {table : Table α} {key : NameHash} :
    table.get? key = none ↔ key ∉ table.keys := lookup_eq_none

/-- An entry is found under its key, since no other has that key. -/
theorem get?_eq_some_iff {table : Table α} {key : NameHash} {value : α} :
    table.get? key = some value ↔ (key, value) ∈ table.entries := by
  rw [get?, List.lookup_eq_some_iff]
  constructor
  · rintro ⟨front, back, split, -⟩
    rw [split]
    exact List.mem_append_right _ List.mem_cons_self
  · intro member
    obtain ⟨front, back, split⟩ := List.append_of_mem member
    refine ⟨front, back, split, ?_⟩
    have distinct := table.distinct
    rw [split, List.map_append, List.map_cons] at distinct
    intro entry listed
    have apart := (List.nodup_append.1 distinct).2.2 entry.1 (List.mem_map_of_mem listed) key
      List.mem_cons_self
    simpa using Ne.symm apart

/-- A table is known by its keys in order and by what is found under them. -/
theorem ext_of_get? {table other : Table α} (keys : table.keys = other.keys)
    (get : ∀ key, table.get? key = other.get? key) : table = other := by
  apply Table.ext
  refine List.ext_getElem ?_ fun place inside within => ?_
  · simpa only [Table.keys, List.length_map] using congrArg List.length keys
  · have same : table.entries[place].1 = other.entries[place].1 := by
      have there := congrArg (fun keys => keys[place]?) keys
      simpa [Table.keys, inside, within] using there
    have held : table.get? table.entries[place].1 = some table.entries[place].2 :=
      get?_eq_some_iff.2 (List.getElem_mem inside)
    have there : other.get? other.entries[place].1 = some other.entries[place].2 :=
      get?_eq_some_iff.2 (List.getElem_mem within)
    rw [get, same, there, Option.some.injEq] at held
    exact Prod.ext same held.symm

theorem contains_eq_isSome (table : Table α) (key : NameHash) :
    table.contains key = (table.get? key).isSome := by
  rw [Bool.eq_iff_iff, contains, List.contains_iff_mem, Option.isSome_iff_ne_none, ne_eq,
    get?_eq_none_iff, Decidable.not_not]

/-! ## Writing -/

@[simp] theorem keys_adjust (table : Table α) (key : NameHash) (change : α → α) :
    (table.adjust key change).keys = table.keys := by
  simp [adjust, keys]

theorem get?_adjust (table : Table α) (key other : NameHash) (change : α → α) :
    (table.adjust key change).get? other =
      if other = key then (table.get? key).map change else table.get? other :=
  lookup_adjusted table.entries key other change

/-- A present key keeps its place, and an absent one goes to the end. -/
theorem keys_insert (table : Table α) (key : NameHash) (value : α) :
    (table.insert key value).keys =
      if key ∈ table.keys then table.keys else table.keys ++ [key] := by
  unfold insert
  split
  · simp
  · simp [keys]

theorem get?_insert (table : Table α) (key other : NameHash) (value : α) :
    (table.insert key value).get? other = if other = key then some value else table.get? other := by
  unfold insert
  split
  · next present =>
    rw [get?_adjust]
    cases found : table.get? key with
    | none => exact absurd present (get?_eq_none_iff.1 found)
    | some old => rfl
  · next absent =>
    have missing : table.entries.lookup key = none := get?_eq_none_iff.2 absent
    simp only [get?, List.lookup_append]
    by_cases same : other = key
    · subst same
      simp [missing]
    · simp [same, lookup_cons_of_ne [] value same]

/-- A write to a key that is present; where it is absent, there is nothing to write to. -/
theorem getD_replace? (table : Table α) (key : NameHash) (value : α) :
    ((table.replace? key value).getD table).keys = table.keys ∧
      ∀ other, ((table.replace? key value).getD table).get? other =
        if other = key then (table.get? key).map fun _ => value else table.get? other := by
  rw [replace?]
  by_cases present : table.contains key = true
  · simp only [present, ↓reduceIte, Option.getD_some]
    exact ⟨keys_adjust .., fun other => get?_adjust table key other _⟩
  · simp only [present, Bool.false_eq_true, ↓reduceIte, Option.getD_none, true_and]
    rw [contains_eq_isSome, Bool.not_eq_true, Option.isSome_eq_false_iff, Option.isNone_iff_eq_none]
      at present
    intro other
    split
    · next same => rw [same, present, Option.map_none]
    · rfl

/-! ## Removing -/

theorem keys_erase (table : Table α) (key : NameHash) :
    (table.erase key).keys = table.keys.filter (· != key) := by
  simp [erase, keys, List.filter_map, Function.comp_def]

theorem get?_erase (table : Table α) (key other : NameHash) :
    (table.erase key).get? other = if other = key then none else table.get? other :=
  lookup_filter table.entries key other

/-! ## Merging -/

private theorem get?_foldl_insert (entries : List (NameHash × α)) (table : Table α) (key : NameHash)
    (distinct : (entries.map Prod.fst).Nodup) :
    (entries.foldl (fun merged entry => merged.insert entry.1 entry.2) table).get? key =
      (entries.lookup key).or (table.get? key) := by
  induction entries generalizing table with
  | nil => rfl
  | cons entry rest ih =>
    obtain ⟨held, value⟩ := entry
    obtain ⟨fresh, distinctRest⟩ := List.nodup_cons.1 distinct
    rw [List.foldl_cons, ih _ distinctRest, get?_insert]
    by_cases here : key = held
    · subst here
      simp [lookup_eq_none.2 fresh]
    · rw [lookup_cons_of_ne rest value here, if_neg here]

/-- Where both tables have a key, the value copied wins. -/
theorem get?_copyFrom (table other : Table α) (key : NameHash) :
    (table.copyFrom other).get? key = (other.get? key).or (table.get? key) :=
  get?_foldl_insert other.entries table key other.distinct

private theorem keys_foldl_insert (entries : List (NameHash × α)) (table : Table α)
    (distinct : (entries.map Prod.fst).Nodup) :
    (entries.foldl (fun merged entry => merged.insert entry.1 entry.2) table).keys =
      table.keys ++ (entries.map Prod.fst).filter fun key => !table.contains key := by
  induction entries generalizing table with
  | nil => simp
  | cons entry rest ih =>
    obtain ⟨held, value⟩ := entry
    obtain ⟨fresh, distinctRest⟩ := List.nodup_cons.1 distinct
    rw [List.foldl_cons, ih _ distinctRest, keys_insert]
    have later : ((rest.map Prod.fst).filter fun key => !(table.insert held value).contains key) =
        (rest.map Prod.fst).filter fun key => !table.contains key := by
      apply List.filter_congr
      intro key member
      have different : key ≠ held := fun same => fresh (same ▸ member)
      simp [contains_eq_isSome, get?_insert, different]
    rw [later, List.map_cons]
    split
    · next present => simp [contains, present]
    · next absent => simp [contains, absent]

/-- After a copy the old keys come first, and then the new ones in the other table's order. -/
theorem keys_copyFrom (table other : Table α) :
    (table.copyFrom other).keys =
      table.keys ++ other.keys.filter fun key => !table.contains key :=
  keys_foldl_insert other.entries table other.distinct

/-- A copy of what is there already changes nothing. -/
theorem copyFrom_eq_self {table other : Table α}
    (held : ∀ key value, other.get? key = some value → table.get? key = some value) :
    table.copyFrom other = table := by
  apply ext_of_get?
  · have present : (other.keys.filter fun key => !table.contains key) = [] := by
      refine List.filter_eq_nil_iff.2 fun key listed absent => ?_
      cases found : other.get? key with
      | none => exact get?_eq_none_iff.1 found listed
      | some value => simp [contains_eq_isSome, held key value found] at absent
    rw [keys_copyFrom, present, List.append_nil]
  · intro key
    rw [get?_copyFrom]
    cases found : other.get? key with
    | none => rfl
    | some value => exact (held key value found).symm

end ScriptHeap.Table
