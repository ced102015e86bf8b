import Mathlib.Data.List.Induction
import ScriptHeap.Proofs.KindAgreement
import ScriptHeap.Proofs.Shedding

/-! What an object is given when it comes into being. Its header names its kind and the class that its
members are looked up in, and a closure has a number of places. As long as the host writes no header,
nothing alters the former, and nor the latter if it leaves closures their places: what lives at the end of
a run still carries what was given to it by the operation that brought it into being, from the state of the
heap at that point. -/
namespace ScriptHeap

/-- Whether the host itself writes to a header. -/
def Operation.writesHeader : Operation → Bool
  | .writeDispatch .. | .writeType .. | .writeNext .. => true
  | _ => false

theorem Operation.writesNext_of_untouched (op : Operation) (untouched : op.writesHeader = false) :
    op.writesNext = false := by
  cases op with
  | writeNext => cases untouched
  | _ => rfl

theorem Operation.writesType_of_untouched (op : Operation) (untouched : op.writesHeader = false) :
    op.writesType = false := by
  cases op with
  | writeType => cases untouched
  | _ => rfl

/-- Closures are made by the heap, and an edit leaves as many places as there are. -/
def Operation.SparesPlaces : Operation → Prop
  | .create (.raw (.closure _)) => False
  | .edit .closure _ change => ∀ closure : Closure,
    (change closure).upvalues.size = closure.upvalues.size
  | _ => True

/-- How many variables a closure has places for. -/
def Payload.places? (payload : Payload) : Option Nat :=
  (Variant.closure.project payload).map (·.upvalues.size)

/-- What an object is given once: its kind, its class, and a trait of what it holds. -/
structure Imprint (α : Type) where
  type : ObjectType
  dispatch : Option Handle
  trait : α

section
variable {α : Type}

/-- The imprint of an object that is made of a payload. -/
def Payload.imprint (trait : Payload → α) (payload : Payload) (dispatch : Option Handle) : Imprint α :=
  ⟨payload.type, dispatch, trait payload⟩

def Object.imprint (trait : Payload → α) (object : Object) : Imprint α :=
  ⟨object.header.type, object.header.dispatch, trait object.payload⟩

namespace Heap
variable {heap rest : Heap} {trait : Payload → α}

def imprint? (trait : Payload → α) (heap : Heap) (handle : Handle) : Option (Imprint α) :=
  (heap.get? handle).map (Object.imprint trait)

theorem imprint?_eq_bodyAt (heap : Heap) (handle : Handle) :
    heap.imprint? trait handle = (heap.bodyAt handle).map (Object.imprint trait) := by
  rw [imprint?, bodyAt, Option.map_map]
  rfl

/-- Marks and links are no part of an imprint. -/
theorem Sheds.imprint? {gone : List Handle} (sheds : heap.Sheds gone rest) (handle : Handle) :
    rest.imprint? trait handle = if handle ∈ gone then none else heap.imprint? trait handle := by
  rw [imprint?_eq_bodyAt, sheds.bodies, imprint?_eq_bodyAt]
  split <;> rfl

theorem imprint?_modify (heap : Heap) (target : Handle) {change : Object → Object}
    (kept : ∀ object, (change object).imprint trait = object.imprint trait) (handle : Handle) :
    (heap.modify target change).imprint? trait handle = heap.imprint? trait handle := by
  rw [imprint?, get?_modify]
  by_cases same : handle = target
  · subst same
    simp [imprint?, Function.comp_def, kept]
  · simp [same, imprint?]

theorem imprint?_grown (heap : Heap) (payload : Payload) (dispatch : Option Handle) (handle : Handle) :
    (heap.grown payload dispatch).imprint? trait handle =
      if handle = heap.nextHandle then some (payload.imprint trait dispatch)
      else heap.imprint? trait handle := by
  rw [imprint?, get?_grown]
  split <;> rfl

end Heap
end

namespace Operation
variable {op : Operation} {heap rest : Heap} {payload : Payload} {dispatch : Option Handle} {α : Type}
  {trait : Payload → α}

/-! ## What an operation gives and what it leaves -/

/-- What is allocated depends on the heap by its classes for new objects, and for a closure by the
function. -/
theorem Allocates.congr (builtins : rest.builtins = heap.builtins)
    (functions : ∀ code definition, op = .create (.closure code) →
      rest.expect .function code = .ok definition → heap.expect .function code = .ok definition)
    (allocates : op.Allocates rest payload dispatch) : op.Allocates heap payload dispatch := by
  have tables (type : ObjectType) : rest.builtin? type = heap.builtin? type := congrFun builtins type
  cases allocates with
  | capture =>
    rw [tables]
    exact .capture
  | @create creation _ _ allocates =>
    have stamped : creation.dispatch rest payload.type = creation.dispatch heap payload.type := by
      cases creation <;> first | rfl | exact tables _
    rw [stamped]
    refine .create ?_
    cases creation with
    | closure code =>
      obtain ⟨definition, found, same⟩ := allocates
      exact ⟨definition, functions code definition rfl found, same⟩
    | _ => exact allocates

/-- One allocation does not change what else is allocated. -/
theorem Allocates.before {made : Payload} {given : Option Handle}
    (first : op.Allocates heap made given)
    (allocates : op.Allocates (heap.grown made given) payload dispatch) :
    op.Allocates heap payload dispatch := by
  have tables : (heap.grown made given).builtins = heap.builtins := rfl
  refine allocates.congr tables ?_
  rintro code definition rfl found
  obtain ⟨⟨function, -, rfl⟩⟩ := first
  rw [Heap.expect_eq_ok_iff, Heap.view?_grown] at found
  split at found
  · cases found
  · exact Heap.expect_eq_ok_iff.2 found

/-- Closures come from functions, with as many places as these declare. -/
theorem Allocates.closure_of_places (allocates : op.Allocates heap payload dispatch)
    (spares : op.SparesPlaces) {count : Nat} (places : payload.places? = some count) :
    ∃ code definition, op = .create (.closure code) ∧
      heap.view? .function code = some definition ∧ count = definition.upvalueCount := by
  cases allocates with
  | capture => cases places
  | @create creation _ _ allocates =>
    cases creation with
    | closure code =>
      obtain ⟨definition, found, rfl⟩ := allocates
      have size : (Payload.closure (.ofCount code definition.upvalueCount)).places? =
          some definition.upvalueCount := congrArg some Array.size_replicate
      exact ⟨code, definition, rfl, Heap.expect_eq_ok_iff.1 found,
        Option.some.inj (places.symm.trans size)⟩
    | raw given =>
      cases allocates
      cases payload with
      | closure => exact spares.elim
      | _ => cases places
    | namedClass name => obtain rfl | ⟨text, rfl⟩ := allocates <;> cases places
    | namedNameSpace name => obtain rfl | ⟨text, rfl⟩ := allocates <;> cases places
    | _ =>
      cases allocates
      cases places

/-- The operation may revise payloads, but not in this trait. -/
def Keeps (op : Operation) (trait : Payload → α) : Prop :=
  ∀ handle change, op.Revises handle change → ∀ payload, trait (change payload) = trait payload

/-- No revision changes how many places a closure has. -/
theorem SparesPlaces.keeps (spares : op.SparesPlaces) : op.Keeps Payload.places? := by
  intro handle change revises payload
  by_cases aside : op.revisedKind? = some .closure
  · cases revises with
    | @edit type _ revision =>
      cases aside
      have own : Variant.closure.project (Variant.closure.modify revision payload) =
          (Variant.closure.project payload).map revision := Variant.closure.project_modify ..
      have kept : (fun closure : Closure => closure.upvalues.size) ∘ revision =
          fun closure => closure.upvalues.size := funext spares
      rw [Payload.places?, Variant.ofType, own, Option.map_map, kept, Payload.places?]
    | _ => cases aside
  · rw [Payload.places?, revises.project_of_ne aside, Payload.places?]

/-- What an operation gives to the objects it brings into being, and what it leaves to the others. -/
structure Imprints (op : Operation) (trait : Payload → α) (heap : Heap) (told : List Notice)
    (gone : List Handle) (rest : Heap) : Prop where
  given : ∀ handle ∈ newborns told, ∃ payload dispatch,
    op.Allocates heap payload dispatch ∧
      rest.imprint? trait handle = some (payload.imprint trait dispatch)
  left : ∀ handle ∉ newborns told,
    rest.imprint? trait handle = if handle ∈ gone then none else heap.imprint? trait handle

namespace Imprints
variable {told news : List Notice} {middle : Heap} {gone : List Handle}

theorem congr (imprints : op.Imprints trait heap told gone middle)
    (born : newborns news = newborns told) (same : rest.imprint? trait = middle.imprint? trait) :
    op.Imprints trait heap news gone rest := by
  constructor
  · rw [born, same]
    exact imprints.given
  · rw [born, same]
    exact imprints.left

/-- One object more. -/
theorem grown (imprints : op.Imprints trait heap told [] middle)
    (allocates : op.Allocates heap payload dispatch) {size bytes : Nat} :
    op.Imprints trait heap (told ++ [.logged (.allocated middle.nextHandle payload.type size bytes)]) []
      (middle.grown payload dispatch) := by
  have born : newborns (told ++ [.logged (.allocated middle.nextHandle payload.type size bytes)]) =
      middle.nextHandle :: newborns told := newborns_append ..
  constructor
  · intro handle listed
    rw [Heap.imprint?_grown]
    by_cases new : handle = middle.nextHandle
    · exact ⟨payload, dispatch, allocates, if_pos new⟩
    · rw [born, List.mem_cons, or_iff_right new] at listed
      rw [if_neg new]
      exact imprints.given handle listed
  · intro handle unlisted
    rw [born, List.mem_cons, not_or] at unlisted
    rw [Heap.imprint?_grown, if_neg unlisted.1]
    exact imprints.left handle unlisted.2

end Imprints

/-- An operation that neither frees nor sweeps. -/
private theorem imprints_keeping (frees : ∀ target, op ≠ .free target) (sweeps : op ≠ .sweep)
    (untouched : op.writesHeader = false) (keeps : op.Keeps trait) (heap : Heap) :
    op.Imprints trait heap (op.perform heap).notices [] (op.perform heap).heap := by
  have kept : op.Preserves fun told rest => op.Imprints trait heap told [] rest ∧
      ∀ payload dispatch, op.Allocates rest payload dispatch → op.Allocates heap payload dispatch := by
    constructor
    case allocate =>
      rintro told middle payload dispatch allocates ⟨imprints, before⟩
      obtain ⟨failure, news, refuses, refused⟩ | granted := middle.allocateWith_cases payload dispatch
      · rw [Step.Leaves, refused]
        have silent : newborns (told ++ news) = newborns told := by
          rw [newborns_append, refuses.newborns, List.nil_append]
        exact ⟨imprints.congr silent rfl, before⟩
      · rw [Step.Leaves, granted]
        exact ⟨imprints.grown (before payload dispatch allocates),
          fun more given after => before more given (allocates.before after)⟩
    case free =>
      rintro told middle target same -
      exact absurd same (frees target)
    case sweep =>
      rintro told middle same -
      exact absurd same sweeps
    case clearMarks =>
      rintro told middle rfl ⟨imprints, -⟩
      refine ⟨imprints.congr rfl (funext fun handle => ?_), fun _ _ allocates => by cases allocates⟩
      rw [Heap.imprint?, Heap.get?_clearMarks, Option.map_map]
      rfl
    case revise =>
      rintro told middle handle change revises ⟨imprints, before⟩
      have kept (object : Object) :
          Object.imprint trait { object with payload := change object.payload } =
            object.imprint trait := by
        simp only [Object.imprint, keeps handle change revises]
      refine ⟨imprints.congr rfl (funext (middle.imprint?_modify handle kept)), ?_⟩
      intro payload dispatch allocates
      have tables : (middle.revise handle change).builtins = middle.builtins := rfl
      refine before payload dispatch (allocates.congr tables ?_)
      rintro code definition rfl
      cases revises
    case stamp =>
      rintro told middle handle change stamps ⟨imprints, -⟩
      cases stamps with
      | mark =>
        exact ⟨imprints.congr rfl (funext (middle.imprint?_modify handle fun _ => rfl)),
          fun _ _ allocates => by cases allocates⟩
      | _ => cases untouched
    case settle =>
      rintro told middle builtins links settles ⟨imprints, -⟩
      refine ⟨imprints.congr rfl rfl, fun _ _ allocates => ?_⟩
      cases settles <;> cases allocates
    case report =>
      rintro told middle notice reports ⟨imprints, before⟩
      refine ⟨imprints.congr ?_ rfl, before⟩
      rw [newborns_append, reports.newborns, List.nil_append]
  exact (kept.performs ⟨⟨by simp [newborns], fun handle _ => rfl⟩, fun _ _ => id⟩).1

/-- Every operation gives imprints to what it brings into being, and leaves those of what stays. -/
theorem imprints (op : Operation) (untouched : op.writesHeader = false) (keeps : op.Keeps trait)
    (heap : Heap) :
    op.Imprints trait heap (op.perform heap).notices (op.removals heap) (op.perform heap).heap := by
  cases op with
  | free target =>
    have silent := (heap.loses_free target).2
    constructor
    · rw [perform, silent]
      simp
    · exact fun handle _ => (heap.sheds_free target).imprint? handle
  | sweep =>
    have silent : newborns (sweep.perform heap).notices = [] := heap.loses_sweep.2
    constructor
    · rw [silent]
      simp
    · exact fun handle _ => heap.sheds_sweep.imprint? handle
  | _ => exact imprints_keeping (by simp) (by simp) untouched keeps heap

/-! ## The classes for new objects -/

/-- The class that an operation registers for a kind, if it does so and is not refused. -/
def registers? (op : Operation) (heap : Heap) (type : ObjectType) : Option Handle :=
  match op with
  | .setBuiltin kind implementation =>
    match (heap.setBuiltin kind implementation).outcome with
    | .ok () => if type = kind then some implementation else none
    | .error _ => none
  | _ => none

/-- Nothing but registering changes the classes for new objects. -/
theorem builtins_keeping (registers : ∀ type implementation, op ≠ .setBuiltin type implementation)
    (heap : Heap) : (op.perform heap).heap.builtins = heap.builtins := by
  have kept : op.Preserves fun _ rest => rest.builtins = heap.builtins := by
    constructor
    case allocate =>
      intro _ middle payload dispatch _ same
      obtain ⟨failure, told, -, refused⟩ | granted := middle.allocateWith_cases payload dispatch
      · rw [Step.Leaves, refused]
        exact same
      · rw [Step.Leaves, granted]
        exact same
    case free =>
      intro _ middle target _ same
      exact (middle.sheds_free target).builtins.trans same
    case sweep =>
      intro _ middle _ same
      exact middle.sheds_sweep.builtins.trans same
    case clearMarks => exact fun _ same => same
    case revise => exact fun _ same => same
    case stamp => exact fun _ same => same
    case settle =>
      intro _ middle builtins links settles same
      cases settles with
      | setBuiltin => exact absurd rfl (registers _ _)
      | relink => exact same
    case report => exact fun _ same => same
  exact kept.performs rfl

theorem builtin?_perform (op : Operation) (heap : Heap) (type : ObjectType) :
    (op.perform heap).heap.builtin? type = (op.registers? heap type).or (heap.builtin? type) := by
  cases op with
  | setBuiltin kind implementation =>
    simp only [registers?, perform, Heap.setBuiltin]
    cases heap.expect .classDef implementation with
    | error cause => rfl
    | ok definition =>
      simp only [Step.ofLook, Step.andThen, Step.done, Step.after, Heap.builtin?]
      split <;> rfl
  | _ => exact congrFun (builtins_keeping (by simp) heap) type

end Operation

/-! ## Whole runs -/

namespace History
variable {past : History} {ops : List Operation}

/-- The class that is registered last for a kind in a run from here. -/
def registered? (past : History) (type : ObjectType) : List Operation → Option Handle
  | [] => none
  | op :: rest => ((past.perform op).registered? type rest).or (op.registers? past.heap type)

theorem builtin?_after (past : History) (type : ObjectType) (ops : List Operation) :
    (past.after ops).heap.builtin? type = (past.registered? type ops).or (past.heap.builtin? type) := by
  induction ops generalizing past with
  | nil => rfl
  | cons op ops ih =>
    have later := ih (past.perform op)
    have first : (past.perform op).heap.builtin? type =
        (op.registers? past.heap type).or (past.heap.builtin? type) := op.builtin?_perform past.heap type
    rw [first, ← Option.or_assoc] at later
    exact later

/-- The class that an operation after a run gives to the objects of a kind: an instance is given the class
it is made of, and everything else the one registered last for its kind. -/
def stamp? (config : HeapConfig) (sooner : List Operation) (op : Operation) (type : ObjectType) :
    Option Handle :=
  match op with
  | .create (.instanceOf ofClass) => some ofClass
  | _ => (start config).registered? type sooner

theorem stamp?_of_allocates {config : HeapConfig} {sooner : List Operation} {op : Operation}
    {payload : Payload} {dispatch : Option Handle}
    (allocates : op.Allocates (run config sooner).heap payload dispatch) :
    dispatch = stamp? config sooner op payload.type := by
  have tables (type : ObjectType) :
      (run config sooner).heap.builtin? type = (start config).registered? type sooner := by
    rw [run, builtin?_after]
    exact Option.or_none
  cases allocates with
  | capture => exact tables .upvalue
  | @create creation _ _ allocates => cases creation <;> first | rfl | exact tables _

/-- What lives has the imprint that it was given by the operation that brought it into being. -/
theorem imprint_run (config : HeapConfig) {ops : List Operation} {α : Type} {trait : Payload → α}
    (untouched : ∀ op ∈ ops, op.writesHeader = false) (keeps : ∀ op ∈ ops, op.Keeps trait)
    {handle : Handle} {imprint : Imprint α}
    (held : (run config ops).heap.imprint? trait handle = some imprint) :
    ∃ sooner op later payload dispatch, ops = sooner ++ op :: later ∧
      handle ∈ newborns (op.perform (run config sooner).heap).notices ∧
      op.Allocates (run config sooner).heap payload dispatch ∧
      imprint = payload.imprint trait dispatch := by
  induction ops using List.reverseRecOn with
  | nil => cases held
  | append_singleton sooner op ih =>
    rw [List.forall_mem_append, List.forall_mem_singleton] at untouched keeps
    have last : run config (sooner ++ [op]) = (run config sooner).perform op := run_append ..
    have imprints := op.imprints untouched.2 keeps.2 (run config sooner).heap
    rw [last] at held
    by_cases born : handle ∈ newborns (op.perform (run config sooner).heap).notices
    · obtain ⟨payload, dispatch, allocates, given⟩ := imprints.given handle born
      exact ⟨sooner, op, [], payload, dispatch, rfl, born, allocates,
        Option.some.inj (held.symm.trans given)⟩
    · have left := (imprints.left handle born).symm.trans held
      split at left
      · cases left
      · obtain ⟨before, first, later, payload, dispatch, rfl, rest⟩ := ih untouched.1 keeps.1 left
        exact ⟨before, first, later ++ [op], payload, dispatch, by simp, rest⟩

/-- The operation that brought something into being gave it its kind and its class, and to a closure its
places, if the host leaves it these. -/
theorem birth_run (config : HeapConfig) {ops : List Operation}
    (untouched : ∀ op ∈ ops, op.writesHeader = false) {handle : Handle} {object : Object}
    (found : (run config ops).heap.get? handle = some object) :
    ∃ sooner op later payload dispatch, ops = sooner ++ op :: later ∧
      handle ∈ newborns (op.perform (run config sooner).heap).notices ∧
      op.Allocates (run config sooner).heap payload dispatch ∧
      object.header.type = payload.type ∧ object.header.dispatch = dispatch ∧
      ((∀ op ∈ ops, op.SparesPlaces) → object.payload.places? = payload.places?) := by
  have held {α : Type} (trait : Payload → α) :
      (run config ops).heap.imprint? trait handle = some (object.imprint trait) := by
    rw [Heap.imprint?, found]
    rfl
  by_cases spares : ∀ op ∈ ops, op.SparesPlaces
  · obtain ⟨sooner, op, later, payload, dispatch, parts, born, allocates, same⟩ :=
      imprint_run config untouched (fun op listed => (spares op listed).keeps) (held Payload.places?)
    exact ⟨sooner, op, later, payload, dispatch, parts, born, allocates, congrArg Imprint.type same,
      congrArg Imprint.dispatch same, fun _ => congrArg Imprint.trait same⟩
  -- nothing is claimed of places then, so the imprint need carry no trait
  · obtain ⟨sooner, op, later, payload, dispatch, parts, born, allocates, same⟩ :=
      imprint_run config untouched (fun _ _ _ _ _ _ => rfl) (held fun _ => ())
    exact ⟨sooner, op, later, payload, dispatch, parts, born, allocates, congrArg Imprint.type same,
      congrArg Imprint.dispatch same, fun all => absurd all spares⟩

/-- **Stamps of birth.** After any run in which the host writes no header, every header shows the kind of
its payload, so that all answers from headers are those from payloads, what a sweep counts included, and
nothing complains of having found what it expected. Whatever lives still has the class that it was given
by the operation that brought it into being: an instance the class it was made of, and everything else the
class that had then been registered last for its kind, if any. And as long as the host leaves closures
their places, each has as many as its function declared when the closure was made. -/
theorem stamps_run (config : HeapConfig) (ops : List Operation)
    (untouched : ∀ op ∈ ops, op.writesHeader = false) :
    let heap := (run config ops).heap
    heap.Truthful ∧ (∀ handle, heap.AnswersAlike handle) ∧
      (∀ stats, heap.sweep.outcome = .ok stats →
        stats.freedBytes = ((heap.doomed heap.objects).map heap.payloadSize).sum) ∧
      heap.Coherent ∧
      ∀ handle object, heap.get? handle = some object → ∃ sooner op later,
        ops = sooner ++ op :: later ∧
        handle ∈ newborns (op.perform (run config sooner).heap).notices ∧
        object.header.dispatch = stamp? config sooner op object.header.type ∧
        ((∀ op ∈ ops, op.SparesPlaces) → ∀ closure, object.payload = .closure closure →
          ∃ code definition, op = .create (.closure code) ∧
            (run config sooner).heap.view? .function code = some definition ∧
            closure.upvalues.size = definition.upvalueCount) := by
  intro heap
  have links : ∀ op ∈ ops, op.writesNext = false := fun op listed =>
    op.writesNext_of_untouched (untouched op listed)
  have types : ∀ op ∈ ops, op.writesType = false := fun op listed =>
    op.writesType_of_untouched (untouched op listed)
  obtain ⟨order, balanced⟩ := balanced_run config links types
  refine ⟨balanced.truthful, balanced.answersAlike, fun _ => balanced.swept,
    balanced.truthful.coherent, ?_⟩
  intro handle object found
  obtain ⟨sooner, op, later, payload, dispatch, rfl, born, allocates, type, stamped, places⟩ :=
    birth_run config untouched found
  refine ⟨sooner, op, later, rfl, born, ?_, ?_⟩
  · rw [stamped, type]
    exact stamp?_of_allocates allocates
  · intro spares closure made
    have count := places spares
    rw [made] at count
    exact allocates.closure_of_places (spares op (by simp)) count.symm

/-- An array for each of two classes registered for arrays, the second one after its class is freed and a
further attempt to register it is refused. There is an instance of the first class, and a closure of a
function that declares more variables afterwards. -/
def reregistered : List Operation :=
  [.create (.classOf 7), .setBuiltin .array ⟨⟨0, 0⟩⟩, .create (.array #[]), .create (.classOf 8),
    .setBuiltin .array ⟨⟨2, 0⟩⟩, .create (.instanceOf ⟨⟨0, 0⟩⟩),
    .create (.function { FunctionDef.empty with upvalueCount := 2 }), .create (.closure ⟨⟨4, 0⟩⟩),
    .edit .function ⟨⟨4, 0⟩⟩ ({ · with upvalueCount := 9 }), .free ⟨⟨2, 0⟩⟩,
    .setBuiltin .array ⟨⟨2, 0⟩⟩, .create (.array #[])]

theorem stamps_reregistered :
    let heap := (run .default reregistered).heap
    let dispatch (handle : Handle) := (heap.get? handle).map (·.header.dispatch)
    heap.Truthful ∧ heap.AnswersAlike ⟨⟨5, 0⟩⟩ ∧
      dispatch ⟨⟨0, 0⟩⟩ = some none ∧ dispatch ⟨⟨1, 0⟩⟩ = some (some ⟨⟨0, 0⟩⟩) ∧
      dispatch ⟨⟨2, 1⟩⟩ = some (some ⟨⟨2, 0⟩⟩) ∧ dispatch ⟨⟨3, 0⟩⟩ = some (some ⟨⟨0, 0⟩⟩) ∧
      (∀ op ∈ reregistered, op.SparesPlaces) ∧
      ∃ sooner later code definition, reregistered = sooner ++ .create (.closure code) :: later ∧
        (run .default sooner).heap.view? .function code = some definition ∧
        definition.upvalueCount = 2 := by
  obtain ⟨truthful, alike, -, -, births⟩ := stamps_run .default reregistered (by decide)
  have spares : ∀ op ∈ reregistered, op.SparesPlaces := by
    simp [reregistered, Operation.SparesPlaces]
  refine ⟨truthful, alike _, by decide, by decide, by decide, by decide, spares, ?_⟩
  have made : ((run .default reregistered).heap.get? ⟨⟨5, 0⟩⟩).map Object.payload =
      some (.closure (.ofCount ⟨⟨4, 0⟩⟩ 2)) := rfl
  obtain ⟨object, found, payload⟩ := Option.map_eq_some_iff.1 made
  obtain ⟨sooner, op, later, parts, -, -, closes⟩ := births _ object found
  obtain ⟨code, definition, rfl, declared, count⟩ := closes spares _ payload
  exact ⟨sooner, later, code, definition, parts, declared, count.symm⟩

end History
end ScriptHeap
