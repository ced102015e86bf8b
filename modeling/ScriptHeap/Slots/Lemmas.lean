import ScriptHeap.Slots

/-! What each operation on slots does to the look-up. A newcomer is found under the key it was issued and
nowhere else, a change is seen through its own key only, and a key that is void stays void. -/
namespace ScriptHeap.Slots
variable {α : Type}

theorem get?_eq_some_iff {store : Slots α} {key : SlotKey} {occupant : α} :
    store.get? key = some occupant ↔ store.slots[key.index]? = some ⟨key.generation, some occupant⟩ := by
  unfold get?
  split
  · next slot found =>
    rw [found]
    obtain ⟨generation, held⟩ := slot
    by_cases same : generation = key.generation <;> simp [same]
  · next absent => simp [absent]

theorem isNone_of_mem_vacant {store : Slots α} {index : Nat} (listed : index ∈ store.vacant) :
    ∃ slot, store.slots[index]? = some slot ∧ slot.occupant = none := by
  have found := (store.vacant_iff index).1 listed
  cases held : store.slots[index]? with
  | none => simp [held] at found
  | some slot => exact ⟨slot, rfl, by simpa [held] using found⟩

@[simp] theorem get?_empty (key : SlotKey) : (empty : Slots α).get? key = none := by
  simp [get?, empty]

/-- The next newcomer's key is not in use. -/
@[simp] theorem get?_nextKey (store : Slots α) : store.get? store.nextKey = none := by
  cases served : store.vacant with
  | nil => simp [get?, nextKey, served]
  | cons first rest =>
    have listed : first ∈ store.vacant := by simp [served]
    obtain ⟨slot, found, vacated⟩ := isNone_of_mem_vacant listed
    simp [get?, nextKey, served, generationAt, found, vacated]

/-- A newcomer is found under the key that was next, and every other key is served as before. -/
theorem get?_insert (store : Slots α) (newcomer : α) (key : SlotKey) :
    (store.insert newcomer).get? key =
      if key = store.nextKey then some newcomer else store.get? key := by
  obtain ⟨index, generation⟩ := key
  unfold insert
  split
  · next served =>
    simp only [get?, nextKey, served, generationAt, List.headD_nil, Array.getElem?_push]
    by_cases last : index = store.slots.size
    · subst last
      by_cases zero : generation = 0
      · subst zero
        simp
      · simp [zero, Ne.symm zero]
    · simp [last]
  · next first rest served =>
    have listed : first ∈ store.vacant := by simp [served]
    obtain ⟨slot, found, vacated⟩ := isNone_of_mem_vacant listed
    simp only [get?, nextKey, served, generationAt, List.headD_cons, Array.getElem?_modify]
    by_cases here : first = index
    · subst here
      by_cases current : generation = slot.generation
      · subst current
        simp [found]
      · simp [found, current, Ne.symm current]
    · simp [here, Ne.symm here]

/-- A change is seen through its own key only. -/
theorem get?_modify (store : Slots α) (key other : SlotKey) (change : α → α) :
    (store.modify key change).get? other =
      if other = key then (store.get? key).map change else store.get? other := by
  obtain ⟨index, generation⟩ := other
  simp only [get?, modify, Array.getElem?_modify]
  by_cases here : key.index = index
  · subst here
    cases found : store.slots[key.index]? with
    | none => simp
    | some slot =>
      by_cases current : slot.generation = key.generation
      · by_cases same : generation = key.generation
        · subst same
          simp [current]
        · have differs : (⟨key.index, generation⟩ : SlotKey) ≠ key := fun equal => same (by rw [← equal])
          simp [current, differs, Ne.symm same]
      · by_cases same : generation = key.generation
        · subst same
          simp [current]
        · have differs : (⟨key.index, generation⟩ : SlotKey) ≠ key := fun equal => same (by rw [← equal])
          simp [current, differs]
  · have differs : (⟨index, generation⟩ : SlotKey) ≠ key := fun equal => here (by rw [← equal])
    simp [here, differs]

/-- Only what a change does to the occupant of its key matters. -/
theorem modify_congr {store : Slots α} {key : SlotKey} {change other : α → α}
    (same : ∀ occupant, store.get? key = some occupant → change occupant = other occupant) :
    store.modify key change = store.modify key other := by
  refine Slots.ext (Array.ext_getElem? fun index => ?_) rfl
  simp only [modify, Array.getElem?_modify]
  by_cases here : key.index = index
  · subst here
    cases found : store.slots[key.index]? with
    | none => rfl
    | some slot =>
      obtain ⟨generation, held⟩ := slot
      by_cases current : generation = key.generation
      · subst current
        cases held with
        | none => rfl
        | some occupant => simp [same occupant (get?_eq_some_iff.2 found)]
      · simp [current]
  · rw [if_neg here, if_neg here]

/-- Changes of different occupants can be made in either order. -/
theorem modify_comm (store : Slots α) {key other : SlotKey} (different : key ≠ other)
    (change change' : α → α) :
    (store.modify key change).modify other change' = (store.modify other change').modify key change := by
  apply Slots.ext
  · apply Array.ext_getElem?
    intro index
    simp only [modify, Array.getElem?_modify]
    cases store.slots[index]? with
    | none => simp
    | some slot =>
      obtain ⟨generation, occupant⟩ := slot
      by_cases first : key.index = index
      · by_cases second : other.index = index
        · by_cases one : generation = key.generation
          · have two : generation ≠ other.generation := by
              intro two
              apply different
              cases key
              cases other
              simp_all
            subst one
            simp [first, second, two]
          · by_cases two : generation = other.generation
            · subst two
              simp [first, second, one]
            · simp [first, second, one, two]
        · simp [first, second]
      · simp [first]
  · rfl

theorem get?_mapAll (store : Slots α) (change : α → α) (key : SlotKey) :
    (store.mapAll change).get? key = (store.get? key).map change := by
  simp only [get?, mapAll, Array.getElem?_map]
  cases store.slots[key.index]? with
  | none => rfl
  | some slot => by_cases current : slot.generation = key.generation <;> simp [current]

/-- A key that was vacated is void, and every other key is served as before. -/
theorem get?_vacate (store : Slots α) (key other : SlotKey) :
    (store.vacate key).get? other = if other = key then none else store.get? other := by
  unfold vacate
  split
  · next held =>
    obtain ⟨occupant, held⟩ := Option.isSome_iff_exists.1 held
    have found := get?_eq_some_iff.1 held
    obtain ⟨index, generation⟩ := other
    simp only [get?, Array.getElem?_modify]
    by_cases here : key.index = index
    · subst here
      by_cases same : generation = key.generation
      · subst same
        simp [found]
      · have differs : (⟨key.index, generation⟩ : SlotKey) ≠ key := fun equal => same (by rw [← equal])
        simp [found, differs, Ne.symm same]
    · have differs : (⟨index, generation⟩ : SlotKey) ≠ key := fun equal => here (by rw [← equal])
      simp [here, differs]
  · next void =>
    split
    · next same => simpa [same] using void
    · rfl

/-! ## Counting -/

/-- The vacant slots in order of their numbers. -/
theorem vacant_perm (store : Slots α) :
    store.vacant.Perm ((List.range store.slots.size).filter fun index =>
      (store.slots[index]?.map (·.occupant.isNone)) == some true) := by
  refine (List.perm_ext_iff_of_nodup store.distinct (List.nodup_range.filter _)).2 fun index => ?_
  rw [store.vacant_iff, List.mem_filter, List.mem_range]
  constructor
  · intro vacated
    refine ⟨?_, by simpa using vacated⟩
    cases Nat.lt_or_ge index store.slots.size with
    | inl inside => exact inside
    | inr outside => simp [Array.getElem?_eq_none outside] at vacated
  · intro listed
    simpa using listed.2

theorem length_vacant_le (store : Slots α) : store.vacant.length ≤ store.slots.size := by
  rw [store.vacant_perm.length_eq]
  exact Nat.le_trans (List.length_filter_le ..) (by simp)

@[simp] theorem size_empty : (empty : Slots α).size = 0 := rfl

@[simp] theorem size_insert (store : Slots α) (newcomer : α) :
    (store.insert newcomer).size = store.size + 1 := by
  have bound := store.length_vacant_le
  unfold insert size
  split
  · next served => simp [served]
  · next first rest served =>
    rw [served, List.length_cons] at bound
    simp only [served, List.length_cons, Array.size_modify]
    omega

@[simp] theorem size_modify (store : Slots α) (key : SlotKey) (change : α → α) :
    (store.modify key change).size = store.size := by
  simp [size, modify]

@[simp] theorem size_mapAll (store : Slots α) (change : α → α) :
    (store.mapAll change).size = store.size := by
  simp [size, mapAll]

theorem size_vacate (store : Slots α) (key : SlotKey) :
    (store.vacate key).size = if (store.get? key).isSome then store.size - 1 else store.size := by
  unfold vacate
  split
  · simp only [size, Array.size_modify, List.length_cons]
    omega
  · rfl

private theorem countP_range (slots : List (Slot α)) (test : Slot α → Bool) :
    (List.range slots.length).countP (fun index => slots[index]?.map test == some true) =
      slots.countP test := by
  induction slots with
  | nil => rfl
  | cons first rest ih =>
    rw [List.length_cons, List.range_succ_eq_map, List.countP_cons, List.countP_map, List.countP_cons,
      ← ih]
    simp [Function.comp_def]

/-- A store has as many occupants as it counts. -/
theorem length_occupants (store : Slots α) : store.occupants.length = store.size := by
  have vacated : store.vacant.length = store.slots.toList.countP (·.occupant.isNone) := by
    rw [store.vacant_perm.length_eq, ← List.countP_eq_length_filter, ← countP_range]
    simp
  have all : store.slots.toList.length = store.slots.toList.countP (·.occupant.isNone) +
      store.slots.toList.countP (·.occupant.isSome) := by
    rw [List.length_eq_countP_add_countP fun slot : Slot α => slot.occupant.isNone]
    congr 2
    funext slot
    cases slot.occupant <;> rfl
  rw [occupants, List.length_filterMap_eq_countP, size, vacated, ← Array.length_toList, all]
  omega

end ScriptHeap.Slots
