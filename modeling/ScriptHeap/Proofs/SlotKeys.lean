import ScriptHeap.Slots.Lemmas

/-! The keys of a store: those in use, one for each occupant, and those ever issued. An issued key is
in use until its slot is vacated, and from then on it is void, whoever is served from that slot. -/
namespace ScriptHeap.Slots
variable {α : Type} {store : Slots α} {key other : SlotKey}

/-! ## Keys in use -/

theorem generationAt_of_isSome (held : (store.get? key).isSome = true) :
    store.generationAt key.index = key.generation := by
  obtain ⟨occupant, held⟩ := Option.isSome_iff_exists.1 held
  have found := get?_eq_some_iff.1 held
  simp [generationAt, found]

theorem index_lt_of_isSome (held : (store.get? key).isSome = true) :
    key.index < store.slots.size := by
  obtain ⟨occupant, held⟩ := Option.isSome_iff_exists.1 held
  have found := get?_eq_some_iff.1 held
  exact (Array.getElem?_eq_some_iff.1 found).1

/-- The key that a slot's present occupant has or would have. -/
def keyAt (store : Slots α) (index : Nat) : SlotKey := ⟨index, store.generationAt index⟩

/-- The keys in use, by slot number. -/
def keys (store : Slots α) : List SlotKey :=
  ((List.range store.slots.size).map store.keyAt).filter fun key => (store.get? key).isSome

theorem mem_keys : key ∈ store.keys ↔ (store.get? key).isSome = true := by
  refine ⟨fun listed => (List.mem_filter.1 listed).2, fun held => List.mem_filter.2 ⟨?_, held⟩⟩
  refine List.mem_map.2 ⟨key.index, List.mem_range.2 (index_lt_of_isSome held), ?_⟩
  rw [keyAt, generationAt_of_isSome held]

theorem nodup_keys (store : Slots α) : store.keys.Nodup := by
  have indices : ((List.range store.slots.size).map store.keyAt).Nodup := by
    refine List.pairwise_map.2 (List.nodup_range.imp fun different same => ?_)
    exact different (congrArg SlotKey.index same)
  exact indices.filter _

private theorem filterMap_range_getElem? {β : Type} (slots : List (Slot α)) (view : Slot α → Option β) :
    (List.range slots.length).filterMap (fun index => slots[index]?.bind view) =
      slots.filterMap view := by
  induction slots with
  | nil => rfl
  | cons first rest ih =>
    rw [List.length_cons, List.range_succ_eq_map, List.filterMap_cons, List.filterMap_map,
      List.filterMap_cons, ← ih]
    rfl

/-- Each occupant has one key in use. -/
theorem filterMap_get?_keys (store : Slots α) : store.keys.filterMap store.get? = store.occupants := by
  have seen (index : Nat) :
      store.get? (store.keyAt index) = store.slots.toList[index]?.bind Slot.occupant := by
    rw [Array.getElem?_toList]
    cases found : store.slots[index]? with
    | none => simp [get?, keyAt, found]
    | some slot => simp [get?, keyAt, generationAt, found]
  rw [keys, List.filterMap_filter, List.filterMap_map, occupants, ← filterMap_range_getElem?,
    Array.length_toList]
  congr 1
  funext index
  rw [Function.comp_apply, ← seen]
  cases store.get? (store.keyAt index) <;> rfl

theorem length_keys (store : Slots α) : store.keys.length = store.size := by
  have each : ∀ key ∈ store.keys, (store.get? key).isSome = true := fun _ listed => mem_keys.1 listed
  rw [← length_occupants, ← filterMap_get?_keys, List.length_filterMap_eq_countP,
    List.countP_eq_length.2 each]

/-- A list of just the keys in use, without repetition, is `keys` in another order. -/
theorem perm_keys {listed : List SlotKey} (distinct : listed.Nodup)
    (exactly : ∀ key, key ∈ listed ↔ (store.get? key).isSome = true) : listed.Perm store.keys :=
  (List.perm_ext_iff_of_nodup distinct store.nodup_keys).2 fun key =>
    (exactly key).trans mem_keys.symm

/-! ## Keys ever issued -/

/-- A key was issued at some time: its slot has gone on to later generations, or its occupant is
still there. -/
def Issued (store : Slots α) (key : SlotKey) : Prop :=
  key.generation < store.generationAt key.index ∨ (store.get? key).isSome = true

theorem issued_of_isSome (held : (store.get? key).isSome = true) : store.Issued key := .inr held

theorem not_issued_empty : ¬ (empty : Slots α).Issued key := by
  simp [Issued, generationAt, empty, get?]

/-- The next newcomer's key is a new one. -/
theorem not_issued_nextKey (store : Slots α) : ¬ store.Issued store.nextKey := by
  rintro (past | held)
  · exact Nat.lt_irrefl _ past
  · simp at held

/-! What each operation does to the generations: only vacating a slot raises one. -/

private theorem generationAt_insert (store : Slots α) (newcomer : α) (index : Nat) :
    (store.insert newcomer).generationAt index = store.generationAt index := by
  unfold insert
  split
  · simp only [generationAt, Array.getElem?_push]
    split
    · next last => simp [last]
    · rfl
  · simp only [generationAt, Array.getElem?_modify]
    split
    · next first _ _ same =>
      subst same
      cases store.slots[first]? <;> rfl
    · rfl

theorem generationAt_modify (store : Slots α) (key : SlotKey) (change : α → α) (index : Nat) :
    (store.modify key change).generationAt index = store.generationAt index := by
  simp only [generationAt, modify, Array.getElem?_modify]
  split
  · next same =>
    subst same
    cases store.slots[key.index]? with
    | none => rfl
    | some slot => by_cases current : slot.generation = key.generation <;> simp [current]
  · rfl

private theorem generationAt_mapAll (store : Slots α) (change : α → α) (index : Nat) :
    (store.mapAll change).generationAt index = store.generationAt index := by
  simp only [generationAt, mapAll, Array.getElem?_map]
  cases store.slots[index]? <;> rfl

theorem generationAt_vacate (held : (store.get? key).isSome = true) (index : Nat) :
    (store.vacate key).generationAt index =
      if index = key.index then store.generationAt index + 1 else store.generationAt index := by
  obtain ⟨occupant, found⟩ := Option.isSome_iff_exists.1 held
  rw [get?_eq_some_iff] at found
  simp only [vacate, held, ↓reduceDIte, generationAt, Array.getElem?_modify]
  by_cases same : index = key.index
  · subst same
    simp [found]
  · simp [same, Ne.symm same]

theorem issued_insert (store : Slots α) (newcomer : α) (key : SlotKey) :
    (store.insert newcomer).Issued key ↔ key = store.nextKey ∨ store.Issued key := by
  rw [Issued, Issued, generationAt_insert, get?_insert]
  by_cases same : key = store.nextKey <;> simp [same]

theorem issued_modify (store : Slots α) (other : SlotKey) (change : α → α) (key : SlotKey) :
    (store.modify other change).Issued key ↔ store.Issued key := by
  rw [Issued, Issued, generationAt_modify, get?_modify]
  by_cases same : key = other <;> simp [same]

theorem issued_mapAll (store : Slots α) (change : α → α) (key : SlotKey) :
    (store.mapAll change).Issued key ↔ store.Issued key := by
  rw [Issued, Issued, generationAt_mapAll, get?_mapAll, Option.isSome_map]

/-- A vacated key stays among the issued ones: its slot has a later generation now. -/
theorem issued_vacate (store : Slots α) (other key : SlotKey) :
    (store.vacate other).Issued key ↔ store.Issued key := by
  by_cases held : (store.get? other).isSome = true
  · have current := generationAt_of_isSome held
    rw [Issued, Issued, generationAt_vacate held, get?_vacate]
    by_cases same : key = other
    · subst same
      simp [current, held]
    · have later : key.index = other.index → key.generation ≠ other.generation := by
        intro slot generation
        exact same (by cases key; cases other; simp_all)
      by_cases slot : key.index = other.index
      · have apart := later slot
        have passed : key.generation < store.generationAt key.index + 1 ↔
            key.generation < store.generationAt key.index := by
          rw [slot, current]
          omega
        rw [if_pos slot, if_neg same, passed]
      · rw [if_neg slot, if_neg same]
  · rw [vacate, dif_neg held]

end ScriptHeap.Slots
