/-! Generational slots. An occupant is stored in a numbered slot and found by a key of slot number and
generation. Taking an occupant out raises the slot's generation and puts the slot on a stack of vacant
ones, from which the next newcomer is served; so a slot is used again and again, but a key is never
issued twice. The heap keeps its objects this way and the link table its cells.

Slot numbers and generations are unbounded here. A machine keeps both in words of 32 bits, where slots
past 2^32 cannot be told apart, and where generations wrap around: a slot that was vacated 2^32 times
begins again at generation zero, and its first key is issued, and valid, once more. What is said here of
keys holds there as long as there are fewer than 2^32 slots and none was vacated that often. -/
namespace ScriptHeap

/-- Where an occupant is, and which occupant of that slot is meant. Both numbers are unbounded, where a
machine has two words of 32 bits. -/
structure SlotKey where
  index : Nat
  generation : Nat
deriving DecidableEq, Repr, Inhabited

/-- A slot counts in its generation how often it was vacated. -/
structure Slot (α : Type) where
  generation : Nat
  occupant : Option α

/-- Slots, and the vacant ones among them, most recently vacated first. -/
@[ext] structure Slots (α : Type) where
  slots : Array (Slot α)
  vacant : List Nat
  distinct : vacant.Nodup
  vacant_iff : ∀ index, index ∈ vacant ↔ (slots[index]?.map (·.occupant.isNone)) = some true

namespace Slots
variable {α : Type}

def empty : Slots α where
  slots := #[]
  vacant := []
  distinct := .nil
  vacant_iff := by simp

instance : Inhabited (Slots α) := ⟨empty⟩

/-- How many slots are occupied. -/
def size (store : Slots α) : Nat := store.slots.size - store.vacant.length

def isEmpty (store : Slots α) : Bool := store.size == 0

/-- All occupants, by slot number. -/
def occupants (store : Slots α) : List α := store.slots.toList.filterMap (·.occupant)

/-- The occupant that a key was issued for, while it is still there. -/
def get? (store : Slots α) (key : SlotKey) : Option α :=
  match store.slots[key.index]? with
  | some slot => if slot.generation = key.generation then slot.occupant else none
  | none => none

/-- The generation of a slot; a slot not yet made begins at zero. -/
def generationAt (store : Slots α) (index : Nat) : Nat :=
  (store.slots[index]?.map (·.generation)).getD 0

/-- The key that the next newcomer gets. -/
def nextKey (store : Slots α) : SlotKey :=
  let index := store.vacant.headD store.slots.size
  ⟨index, store.generationAt index⟩

private theorem map_modify_occupied (slots : Array (Slot α)) (index other : Nat)
    (change : Slot α → Slot α) :
    ((slots.modify index change)[other]?.map (·.occupant.isNone)) =
      if index = other then slots[other]?.map fun slot => (change slot).occupant.isNone
      else slots[other]?.map (·.occupant.isNone) := by
  rw [Array.getElem?_modify]
  split <;> simp [Function.comp_def]

/-- Stores a newcomer under `nextKey`. -/
def insert (store : Slots α) (newcomer : α) : Slots α :=
  match served : store.vacant with
  | [] =>
    { slots := store.slots.push ⟨0, some newcomer⟩
      vacant := []
      distinct := .nil
      vacant_iff := by
        intro index
        have before := store.vacant_iff index
        rw [served] at before
        rw [Array.getElem?_push]
        split
        · simp
        · exact before }
  | first :: rest =>
    { slots := store.slots.modify first fun slot => { slot with occupant := some newcomer }
      vacant := rest
      distinct := (List.nodup_cons.1 (served ▸ store.distinct)).2
      vacant_iff := by
        intro index
        have before := store.vacant_iff index
        have fresh := (List.nodup_cons.1 (served ▸ store.distinct)).1
        rw [served, List.mem_cons] at before
        rw [map_modify_occupied]
        split
        · next same =>
          subst same
          simp [fresh]
        · next different =>
          rw [← before]
          simp [Ne.symm different] }

/-- Applies a change to the occupant of a key, if it is there. -/
def modify (store : Slots α) (key : SlotKey) (change : α → α) : Slots α where
  slots := store.slots.modify key.index fun slot =>
    if slot.generation = key.generation then { slot with occupant := slot.occupant.map change }
    else slot
  vacant := store.vacant
  distinct := store.distinct
  vacant_iff := by
    intro index
    rw [store.vacant_iff index, map_modify_occupied]
    split
    · have same : ∀ slot : Slot α,
          (if slot.generation = key.generation then
            { slot with occupant := slot.occupant.map change } else slot).occupant.isNone =
          slot.occupant.isNone := by
        intro slot
        split <;> simp
      simp only [same]
    · rfl

/-- Applies a change to every occupant. -/
def mapAll (store : Slots α) (change : α → α) : Slots α where
  slots := store.slots.map fun slot => { slot with occupant := slot.occupant.map change }
  vacant := store.vacant
  distinct := store.distinct
  vacant_iff := by
    intro index
    rw [store.vacant_iff index, Array.getElem?_map]
    simp [Function.comp_def]

/-- Takes the occupant of a key out. The key, like every earlier one of that slot, is void for ever,
since generations never wrap around here; a key that is void already changes nothing. -/
def vacate (store : Slots α) (key : SlotKey) : Slots α :=
  if held : (store.get? key).isSome then
    { slots := store.slots.modify key.index fun slot => ⟨slot.generation + 1, none⟩
      vacant := key.index :: store.vacant
      distinct := by
        refine List.nodup_cons.2 ⟨fun listed => ?_, store.distinct⟩
        have empty := (store.vacant_iff key.index).1 listed
        unfold get? at held
        split at held
        · next slot found =>
          rw [found] at empty
          split at held <;> simp_all
        · simp at held
      vacant_iff := by
        intro index
        rw [map_modify_occupied, List.mem_cons, store.vacant_iff index]
        split
        · next same =>
          subst same
          unfold get? at held
          split at held
          · next slot found => simp [found]
          · simp at held
        · next different => simp [Ne.symm different] }
  else store

end Slots
end ScriptHeap
