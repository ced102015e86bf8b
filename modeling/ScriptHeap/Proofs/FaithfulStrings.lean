import ScriptHeap.Proofs.HandleSafety
import ScriptHeap.Proofs.Views
import ScriptHeap.Text.Utf8.Lemmas

/-! Strings as byte strings. A string shows the bytes that it was made of, whether they were taken or copied,
and whatever they are: zero bytes and bytes that are not UTF-8 are bytes like any others. It shows them as long
as it is there, since nothing that is done to a heap changes a string. -/
namespace ScriptHeap

/-! ## One string -/

namespace StringObject
variable {string one other : StringObject} {bytes more : List UInt8}

/-- What there is to see of a string: its bytes and how many they are, the zero byte behind them, and the hash
of the bytes alone. -/
structure Shows (string : StringObject) (bytes : List UInt8) : Prop where
  content : string.bytes = bytes
  size : string.size = bytes.length
  buffer : string.buffer = bytes ++ [0]
  hash : string.hash = fnv1a bytes

/-- The string was made of some bytes, and shows them. -/
def Faithful (string : StringObject) : Prop := ∃ bytes, string.Shows bytes

/-- To copy bytes into a buffer of one's own comes to the same as to take the buffer. -/
theorem copy_eq_take (bytes : List UInt8) : copy bytes = take bytes := by
  rw [copy, take, List.foldr_cons_eq_append']

theorem shows_take (bytes : List UInt8) : (take bytes).Shows bytes where
  content := by
    rw [StringObject.bytes, size, take, List.length_append]
    exact List.take_left
  size := by
    rw [size, take, List.length_append]
    rfl
  buffer := rfl
  hash := rfl

theorem shows_copy (bytes : List UInt8) : (copy bytes).Shows bytes := copy_eq_take bytes ▸ shows_take bytes

/-- Strings are of one content if they have the same bytes: their hashes are then the same, and where the
hashes differ there is no need to look further. -/
theorem sameContent_iff (shows : one.Shows bytes) (shows' : other.Shows more) :
    one.sameContent other = true ↔ one.bytes = other.bytes := by
  rw [sameContent, Bool.and_eq_true, beq_iff_eq, beq_iff_eq, and_iff_right_iff_imp, shows.content,
    shows'.content, shows.hash, shows'.hash]
  exact congrArg fnv1a

/-- The hash of a string that is a text is that of the name it spells. -/
theorem Shows.hash_eq_hashName {name : String} (shows : string.Shows bytes)
    (read : string.text? = some name) : string.hash = hashName name := by
  rw [text?, shows.content] at read
  rw [shows.hash, hashName, Text.utf8_of_ofUtf8? read]

end StringObject

/-! ## One operation -/

/-- Strings are made of bytes. They have nothing to be edited through, so that an edit can do no more than
put another string in the place of one. -/
def Operation.SparesStrings : Operation → Prop
  | .create (.raw (.string string)) => string.Faithful
  | .edit .string _ change => ∀ string : StringObject, string.Faithful → StringObject.Faithful (change string)
  | _ => True

/-- No other string is put in the place of the one that this object is. -/
def Operation.KeepsString (handle : Handle) : Operation → Prop
  | .edit .string target change => target = handle → ∀ string, change string = string
  | _ => True

namespace Operation
variable {op : Operation} {heap : Heap} {handle : Handle} {payload : Payload} {string : StringObject}

/-- Whatever is allocated shows its bytes if it is a string. -/
theorem Allocates.shows {dispatch : Option Handle} (allocates : op.Allocates heap payload dispatch)
    (spares : op.SparesStrings) (made : Variant.string.project payload = some string) :
    string.Faithful := by
  cases allocates with
  | capture => cases made
  | @create creation _ _ allocates =>
    cases creation with
    | raw given =>
      cases allocates
      cases payload with
      | string => exact Option.some.inj made ▸ spares
      | _ => cases made
    | takenString bytes =>
      cases allocates
      exact ⟨bytes, Option.some.inj made ▸ StringObject.shows_take bytes⟩
    | copiedString bytes =>
      cases allocates
      exact ⟨bytes, Option.some.inj made ▸ StringObject.shows_copy bytes⟩
    | text spelled =>
      cases allocates
      exact ⟨_, Option.some.inj made ▸ StringObject.shows_copy _⟩
    | namedClass name =>
      obtain rfl | ⟨text, rfl⟩ := allocates
      · exact ⟨_, Option.some.inj made ▸ StringObject.shows_copy _⟩
      · cases made
    | namedNameSpace name =>
      obtain rfl | ⟨text, rfl⟩ := allocates
      · exact ⟨_, Option.some.inj made ▸ StringObject.shows_copy _⟩
      · cases made
    | closure code =>
      obtain ⟨definition, -, rfl⟩ := allocates
      cases made
    | _ =>
      cases allocates
      cases made

/-- Strings are revised by edits of theirs, and by nothing else. -/
theorem Revises.string_cases {change : Payload → Payload} (revises : op.Revises handle change) :
    (∀ payload, Variant.string.project (change payload) = Variant.string.project payload) ∨
      ∃ revision : StringObject → StringObject, op = .edit .string handle revision ∧
        ∀ payload, Variant.string.project (change payload) =
          (Variant.string.project payload).map revision := by
  by_cases aside : op.revisedKind? = some .string
  · right
    cases revises with
    | @edit type _ revision =>
      cases aside
      exact ⟨revision, rfl, fun payload => Variant.string.project_modify ..⟩
    | _ => cases aside
  · exact .inl fun payload => revises.project_of_ne aside payload

theorem Revises.string_eq {change : Payload → Payload} (revises : op.Revises handle change)
    (keeps : op.KeepsString handle) (payload : Payload) :
    Variant.string.project (change payload) = Variant.string.project payload := by
  obtain same | ⟨revision, rfl, revised⟩ := revises.string_cases
  · exact same payload
  · have kept : revision = id := funext (keeps rfl)
    rw [revised, kept, Option.map_id, id]

theorem Revises.faithful {change : Payload → Payload} (revises : op.Revises handle change)
    (spares : op.SparesStrings)
    (before : ∀ string, Variant.string.project payload = some string → string.Faithful)
    (seen : Variant.string.project (change payload) = some string) : string.Faithful := by
  obtain same | ⟨revision, rfl, revised⟩ := revises.string_cases
  · exact before string (same payload ▸ seen)
  · obtain ⟨was, there, rfl⟩ := Option.map_eq_some_iff.1 ((revised payload).symm.trans seen)
    exact spares was (before was there)

end Operation

/-! ## Runs -/

namespace Heap
variable {heap rest : Heap} {handle : Handle} {string : StringObject}

/-- Every string shows the bytes it was made of. -/
def Legible (heap : Heap) : Prop :=
  ∀ handle string, heap.view? .string handle = some string → string.Faithful

theorem Legible.congr (legible : heap.Legible)
    (same : ∀ handle, rest.view? .string handle = heap.view? .string handle) : rest.Legible := by
  intro handle string seen
  exact legible handle string (same handle ▸ seen)

theorem Legible.loses {gone : List Handle} (legible : heap.Legible) (loses : heap.Loses gone rest) :
    rest.Legible := by
  intro handle string seen
  rw [view?_of_loses loses] at seen
  split at seen
  · cases seen
  · exact legible handle string seen

theorem Legible.perform {op : Operation} (legible : heap.Legible) (spares : op.SparesStrings) :
    (op.perform heap).heap.Legible := by
  have kept : op.Preserves fun _ rest => rest.Legible := by
    constructor
    case allocate =>
      intro _ rest payload dispatch allocates held
      obtain ⟨failure, told, -, refused⟩ | granted := rest.allocateWith_cases payload dispatch
      · rw [Step.Leaves, refused]
        exact held
      · rw [Step.Leaves, granted]
        intro handle string seen
        rw [view?_grown] at seen
        split at seen
        · exact allocates.shows spares seen
        · exact held handle string seen
    case free =>
      intro _ rest target _ held
      exact held.loses (rest.loses_free target).1
    case sweep =>
      intro _ rest _ held
      exact held.loses rest.loses_sweep.1
    case clearMarks =>
      intro _ rest _ held
      exact held.congr fun handle => view?_congr (rest.payloadAt_clearMarks handle)
    case revise =>
      intro _ rest target change revises held handle string seen
      have revised := rest.payloadAt_revise target change handle
      rw [revise] at revised
      rw [view?_eq_payloadAt, revised] at seen
      have before := held handle
      rw [view?_eq_payloadAt] at before
      split at seen
      · next same =>
        subst same
        cases there : rest.payloadAt handle with
        | none =>
          rw [there] at seen
          cases seen
        | some payload =>
          rw [there] at seen before
          exact revises.faithful spares before seen
      · exact before string seen
    case stamp =>
      intro _ rest target change _ held
      exact held.loses (rest.loses_modifyHeader target change)
    case settle =>
      intro _ rest builtins links _ held
      exact held.congr fun _ => rfl
    case report =>
      intro _ rest notice _ held
      exact held
  exact kept.performs legible

theorem legible_ofConfig (config : HeapConfig) : (ofConfig config).Legible := by
  intro handle string seen
  rw [view?, get?, ofConfig, Slots.get?_empty] at seen
  cases seen

end Heap

namespace History
variable {past : History} {ops : List Operation} {handle : Handle}

theorem legible_run (config : HeapConfig) (spares : ∀ op ∈ ops, op.SparesStrings) :
    (run config ops).heap.Legible :=
  after_keeps (fun past => past.heap.Legible) (Heap.legible_ofConfig config)
    fun _ op listed legible => legible.perform (spares op listed)

/-- A string that is still there is the same. -/
theorem string_after {string : StringObject} (keeps : ∀ op ∈ ops, op.KeepsString handle)
    (held : past.heap.view? .string handle = some string)
    (live : (past.after ops).heap.contains handle = true) :
    (past.after ops).heap.view? .string handle = some string := by
  have issued := Heap.issued_of_contains (Heap.contains_of_view? (Option.isSome_of_eq_some held))
  obtain ⟨after, found⟩ := Option.isSome_iff_exists.1 (Heap.isSome_payloadAt.trans live)
  obtain ⟨before, there, steps⟩ := (later_after past ops).payload handle issued after found
  have unchanged : Variant.string.project after = Variant.string.project before := by
    clear found
    induction steps with
    | refl => rfl
    | tail _ last ih =>
      obtain ⟨op, listed, change, revises, rfl⟩ := last
      exact (revises.string_eq (keeps op listed) _).trans ih
  rw [Heap.view?_eq_payloadAt, there, Option.bind_some] at held
  rw [Heap.view?_eq_payloadAt, found, Option.bind_some, unchanged, held]

/-- **Faithful strings.** To take bytes and to copy them is the same step, with the same result. A string that
was made of bytes in one of these ways shows them as long as it is there, whatever happens to the heap; and so
does every other string of the heap with bytes of its own. Strings are of one content exactly if they have the
same bytes, and the hash of one that is a text finds in any table what the name itself does. -/
theorem strings_run (config : HeapConfig) (ops more : List Operation)
    (spares : ∀ op ∈ ops, op.SparesStrings) (bytes : List UInt8) :
    let past := run config ops
    (Creation.takenString bytes).perform past.heap = (Creation.copiedString bytes).perform past.heap ∧
    (∀ creation ∈ [Creation.takenString bytes, .copiedString bytes], ∀ handle,
      (creation.perform past.heap).outcome = .ok handle → (∀ op ∈ more, op.KeepsString handle) →
      let later := run config (ops ++ .create creation :: more)
      later.heap.contains handle = true →
        ∃ string, later.heap.view? .string handle = some string ∧ string.Shows bytes) ∧
    (∀ handle string, past.heap.view? .string handle = some string → ∃ own, string.Shows own) ∧
    (∀ (one other : StringObject) (own others : List UInt8), one.Shows own → other.Shows others →
      (one.sameContent other = true ↔ one.bytes = other.bytes)) ∧
    ∀ handle string name, past.heap.view? .string handle = some string → string.text? = some name →
      ∀ (α : Type) (table : Table α), table.get? string.hash = table.get? (hashName name) := by
  intro past
  have legible : past.heap.Legible := legible_run config spares
  have alike : (Creation.takenString bytes).perform past.heap =
      (Creation.copiedString bytes).perform past.heap := by
    rw [Creation.perform, Creation.perform, Heap.takeString, Heap.copyString, StringObject.copy_eq_take]
  refine ⟨alike, ?_, legible, fun one other own others => StringObject.sameContent_iff, ?_⟩
  · intro creation either handle granted keeps later live
    have taken : creation.perform past.heap = (Creation.takenString bytes).perform past.heap := by
      rcases List.mem_pair.1 either with rfl | rfl
      · rfl
      · exact alike.symm
    have made : (past.perform (.create creation)).heap.view? .string handle = some (.take bytes) := by
      rw [taken] at granted
      have placed := ((sound_run config ops).allocated granted).2
      have same : (past.perform (.create creation)).heap = (past.heap.takeString bytes).heap :=
        congrArg Step.heap taken
      rw [same, Heap.view?_eq_payloadAt]
      exact (congrArg (·.bind Variant.string.project) placed).trans rfl
    have continued : later = (past.perform (.create creation)).after more := run_append ..
    rw [continued] at live ⊢
    exact ⟨_, string_after keeps made live, StringObject.shows_take bytes⟩
  · intro handle string name seen read α table
    obtain ⟨own, shows⟩ := legible handle string seen
    rw [shows.hash_eq_hashName read]

/-- A string that is a text, with a map before it. -/
def worded : List Operation := [.create .map, .create (.copiedString [102, 111, 111])]

/-- A third string is put aside for a fourth one and swept away with all that is not marked, and slots are
used again. -/
def replaced : List Operation :=
  [.create (.takenString [1]), .edit .string ⟨⟨3, 0⟩⟩ fun _ => .copy [2], .mark ⟨⟨2, 0⟩⟩ true, .sweep,
    .create (.array #[])]

/-- What lives on between them has a byte that begins no character, between zero bytes. -/
theorem strings_replaced :
    let later := run .default (worded ++ .create (.copiedString [0, 255, 0]) :: replaced)
    later.heap.contains ⟨⟨3, 0⟩⟩ = false ∧ later.heap.contains ⟨⟨1, 0⟩⟩ = false ∧
      (∃ string, later.heap.view? .string ⟨⟨2, 0⟩⟩ = some string ∧ string.Shows [0, 255, 0]) ∧
      ∃ string, (run .default worded).heap.view? .string ⟨⟨1, 0⟩⟩ = some string ∧
        (Table.empty.insert (hashName "foo") 7).get? string.hash = some 7 := by
  have spares : ∀ op ∈ worded, op.SparesStrings := by
    simp [worded, Operation.SparesStrings]
  have keeps : ∀ op ∈ replaced, op.KeepsString ⟨⟨2, 0⟩⟩ := by
    simp [replaced, Operation.KeepsString]
  obtain ⟨-, faithful, -, -, found⟩ := strings_run .default worded replaced spares [0, 255, 0]
  refine ⟨by decide, by decide, faithful _ (by simp) _ (by decide) keeps (by decide), ?_⟩
  refine ⟨.copy [102, 111, 111], rfl, ?_⟩
  rw [found ⟨⟨1, 0⟩⟩ _ "foo" rfl (by decide)]
  decide

end History
end ScriptHeap
