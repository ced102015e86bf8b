import Mathlib.Logic.ExistsUnique
import ScriptHeap.Classes.Registry
import ScriptHeap.Heap.Allocate
import ScriptHeap.Table.Lemmas

/-! Which byte strings their hashes tell apart. A byte is mixed into the hash in a way that can be undone, so
what follows on two byte strings neither brings their hashes together nor drives them apart. Two names that
differ in one byte are therefore two keys, wherever names are keys. -/
namespace ScriptHeap

/-! ## One byte -/

/-- The factor that undoes the multiplication with the prime, modulo 2 ^ 32. -/
def fnvInverse : NameHash := 0x359C449B

theorem fnvPrime_mul_fnvInverse : fnvPrime * fnvInverse = 1 := by decide

/-- No hash is lost in the multiplication with the prime. -/
theorem mul_fnvPrime_inj {hash other : NameHash} : hash * fnvPrime = other * fnvPrime ↔ hash = other := by
  refine ⟨fun same => ?_, congrArg (· * fnvPrime)⟩
  have undone := congrArg (· * fnvInverse) same
  simpa only [UInt32.mul_assoc, fnvPrime_mul_fnvInverse, UInt32.mul_one] using undone

/-- Whatever byte comes next, the hash before it can be told from the hash after it. -/
theorem fnvStep_left_inj {hash other : NameHash} (byte : UInt8) :
    fnvStep hash byte = fnvStep other byte ↔ hash = other := by
  rw [fnvStep, fnvStep, mul_fnvPrime_inj, UInt32.xor_left_inj]

/-- Two bytes after the same hash give two hashes. -/
theorem fnvStep_right_inj {byte other : UInt8} (hash : NameHash) :
    fnvStep hash byte = fnvStep hash other ↔ byte = other := by
  rw [fnvStep, fnvStep, mul_fnvPrime_inj, UInt32.xor_right_inj, UInt8.toUInt32_inj]

/-! ## Byte strings -/

theorem foldl_fnvStep_inj (bytes : List UInt8) {hash other : NameHash} :
    bytes.foldl fnvStep hash = bytes.foldl fnvStep other ↔ hash = other := by
  induction bytes generalizing hash other with
  | nil => rfl
  | cons byte bytes ih => rw [List.foldl_cons, List.foldl_cons, ih, fnvStep_left_inj]

/-- The hash goes on from the hash of what came before. -/
theorem fnv1a_append (front back : List UInt8) :
    fnv1a (front ++ back) = back.foldl fnvStep (fnv1a front) := List.foldl_append

theorem fnv1a_append_inj {front other : List UInt8} (back : List UInt8) :
    fnv1a (front ++ back) = fnv1a (other ++ back) ↔ fnv1a front = fnv1a other := by
  rw [fnv1a_append, fnv1a_append, foldl_fnvStep_inj]

theorem fnv1a_exchange_inj {byte other : UInt8} (front back : List UInt8) :
    fnv1a (front ++ [byte] ++ back) = fnv1a (front ++ [other] ++ back) ↔ byte = other := by
  rw [fnv1a_append_inj, fnv1a_append, fnv1a_append]
  exact fnvStep_right_inj (fnv1a front)

/-- Byte strings of one length that differ in exactly one place. -/
def DifferInOne (one other : List UInt8) : Prop :=
  one.length = other.length ∧ ∃! place : Nat, one[place]? ≠ other[place]?

/-- They have the same bytes before that place and behind it. -/
theorem DifferInOne.split {one other : List UInt8} (differ : DifferInOne one other) :
    ∃ front byte exchanged back, byte ≠ exchanged ∧ one = front ++ [byte] ++ back ∧
      other = front ++ [exchanged] ++ back := by
  obtain ⟨long, place, apart, only⟩ := differ
  have alike (spot : Nat) (elsewhere : spot ≠ place) : one[spot]? = other[spot]? :=
    Decidable.byContradiction fun different => elsewhere (only spot different)
  have inside : place < one.length := by
    refine Nat.lt_of_not_le fun beyond => apart ?_
    rw [List.getElem?_eq_none beyond, List.getElem?_eq_none (long ▸ beyond)]
  have within : place < other.length := long ▸ inside
  have fronts : one.take place = other.take place := by
    refine List.ext_getElem? fun spot => ?_
    rw [List.getElem?_take, List.getElem?_take]
    split
    · exact alike spot (by omega)
    · rfl
  have backs : one.drop (place + 1) = other.drop (place + 1) := by
    refine List.ext_getElem? fun spot => ?_
    rw [List.getElem?_drop, List.getElem?_drop]
    exact alike (place + 1 + spot) (by omega)
  refine ⟨one.take place, one[place], other[place], one.drop (place + 1), ?_, ?_, ?_⟩
  · intro same
    rw [List.getElem?_eq_getElem inside, List.getElem?_eq_getElem within, same] at apart
    exact apart rfl
  · simp
  · rw [fronts, backs]
    simp

theorem DifferInOne.fnv1a_ne {one other : List UInt8} (differ : DifferInOne one other) :
    fnv1a one ≠ fnv1a other := by
  obtain ⟨front, byte, exchanged, back, apart, rfl, rfl⟩ := differ.split
  exact fun same => apart ((fnv1a_exchange_inj front back).1 same)

/-! ## Names as keys -/

section
variable {one other : String}

/-- What is written or removed under one name is not seen under a name of another hash. -/
theorem Table.get?_aside {α : Type} (table : Table α) (apart : hashName one ≠ hashName other) (value : α) :
    (table.put (hashName one) value).2.get? (hashName other) = table.get? (hashName other) ∧
      (table.remove (hashName one)).2.get? (hashName other) = table.get? (hashName other) := by
  rw [put, remove, get?_insert, if_neg apart.symm, get?_erase, if_neg apart.symm]
  exact ⟨rfl, rfl⟩

theorem SpelledMap.get?_aside (map : SpelledMap) (apart : hashName one ≠ hashName other) (value : Value) :
    (map.put one value).2.get? other = map.get? other ∧ (map.remove one).2.get? other = map.get? other := by
  obtain ⟨written, removed⟩ := map.values.get?_aside apart value
  constructor
  · have values : (map.put one value).2.values = (map.values.put (hashName one) value).2 := by
      rw [put, Table.put]
      cases map.values.get? (hashName one) <;> rfl
    rw [get?, getByHash?, values, written, get?, getByHash?]
  · have values : (map.remove one).2.values = (map.values.remove (hashName one)).2 := by
      rw [remove, Table.remove]
      cases map.values.get? (hashName one) <;> rfl
    rw [get?, getByHash?, values, removed, get?, getByHash?]

theorem ClassRegistry.get?_aside {registry registered : ClassRegistry} {heap : Heap} {handle : Handle}
    {definition : ClassDef} {replaced : Option Handle} (apart : hashName one ≠ hashName other)
    (found : heap.expect .classDef handle = .ok definition) (named : definition.hash = hashName one)
    (registers : registry.register heap handle = .ok (replaced, registered)) :
    registered.get? (hashName other) = registry.get? (hashName other) := by
  rw [register, found] at registers
  simp only [named] at registers
  cases registers
  exact (registry.classes.get?_aside apart handle).1

end

/-- **The hash separates close names.** What two byte strings go on with in common leaves their hashes the
same or different, as they were; so byte strings that differ in one byte have different hashes. Two names of
one length that differ in exactly one byte are never the same key: whatever is written or removed under the
one, in a table, a map or the registry of classes, what is found under the other stays as it is. -/
theorem closeNames_apart :
    (∀ front other back : List UInt8,
      fnv1a (front ++ back) = fnv1a (other ++ back) ↔ fnv1a front = fnv1a other) ∧
    (∀ (front back : List UInt8) (byte other : UInt8), byte ≠ other →
      fnv1a (front ++ [byte] ++ back) ≠ fnv1a (front ++ [other] ++ back)) ∧
    ∀ one other : String, DifferInOne (Text.utf8 one) (Text.utf8 other) →
      hashName one ≠ hashName other ∧
      (∀ (α : Type) (table : Table α) (value : α),
        (table.put (hashName one) value).2.get? (hashName other) = table.get? (hashName other) ∧
        (table.remove (hashName one)).2.get? (hashName other) = table.get? (hashName other)) ∧
      (∀ (map : SpelledMap) (value : Value),
        (map.put one value).2.get? other = map.get? other ∧
        (map.remove one).2.get? other = map.get? other) ∧
      ∀ (registry registered : ClassRegistry) (heap : Heap) (handle : Handle) (definition : ClassDef)
        (replaced : Option Handle), heap.expect .classDef handle = .ok definition →
        definition.hash = hashName one →
        registry.register heap handle = .ok (replaced, registered) →
        registered.get? (hashName other) = registry.get? (hashName other) := by
  refine ⟨fun front other back => fnv1a_append_inj back,
    fun front back byte other apart same => apart ((fnv1a_exchange_inj front back).1 same), ?_⟩
  intro one other differ
  have apart : hashName one ≠ hashName other := differ.fnv1a_ne
  exact ⟨apart, fun α table value => table.get?_aside apart value,
    fun map value => map.get?_aside apart value,
    fun registry registered heap handle definition replaced found named registers =>
      ClassRegistry.get?_aside apart found named registers⟩

/-- Two such names: an entry under the one is found whatever is done under the other, also in a registry
where a class of the other name is registered. -/
theorem closeNames_speedAndSpend :
    DifferInOne (Text.utf8 "speed") (Text.utf8 "spend") ∧ hashName "speed" ≠ hashName "spend" ∧
      ((Table.empty.put (hashName "spend") 4).2.put (hashName "speed") 7).2.get? (hashName "spend") =
        some 4 ∧
      ((SpelledMap.empty.put "spend" .null).2.remove "speed").2.get? "spend" = some .null ∧
      ∃ registered, ClassRegistry.register ⟨(Table.empty.put (hashName "spend") ⟨⟨3, 0⟩⟩).2⟩
          ((Heap.ofConfig .default).newClass (hashName "speed")).heap ⟨⟨0, 0⟩⟩ = .ok (none, registered) ∧
        registered.get? (hashName "spend") = some ⟨⟨3, 0⟩⟩ := by
  have differ : DifferInOne (Text.utf8 "speed") (Text.utf8 "spend") := by
    have speed : Text.utf8 "speed" = [115, 112, 101, 101, 100] := by decide
    have spend : Text.utf8 "spend" = [115, 112, 101, 110, 100] := by decide
    rw [speed, spend]
    refine ⟨rfl, 3, by decide, fun place different => ?_⟩
    match place with
    | 0 | 1 | 2 | 4 => exact absurd rfl different
    | 3 => rfl
    | place + 5 => exact absurd rfl different
  obtain ⟨apart, tables, maps, registries⟩ := closeNames_apart.2.2 "speed" "spend" differ
  refine ⟨differ, apart, ?_, ?_, _, rfl, ?_⟩
  · exact (tables Nat (Table.empty.put (hashName "spend") 4).2 7).1
  · exact (maps (SpelledMap.empty.put "spend" .null).2 .null).2
  · exact registries ⟨(Table.empty.put (hashName "spend") ⟨⟨3, 0⟩⟩).2⟩ _
      ((Heap.ofConfig .default).newClass (hashName "speed")).heap ⟨⟨0, 0⟩⟩
      (.ofHash (hashName "speed")) none rfl rfl rfl

end ScriptHeap
