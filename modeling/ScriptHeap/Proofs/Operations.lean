import ScriptHeap.Classes.Registry
import ScriptHeap.Heap.OpenUpvalues
import ScriptHeap.Heap.Sweep
import ScriptHeap.Slots.Lemmas

/-! The operations of a heap, and what they are made of. Whatever a host does, the heap is changed by
allocating, by freeing and sweeping, by revising the payload of an object, by stamping its header and
by taking off marks; a property that each of these keeps is kept by every operation. -/
namespace ScriptHeap

/-- The ways to bring an object into being: with a payload made elsewhere, or of one kind. -/
inductive Creation where
  | raw (payload : Payload)
  | takenString (bytes : List UInt8)
  | copiedString (bytes : List UInt8)
  | text (text : String)
  | function (function : FunctionDef)
  | native (function : NativeFunction)
  | upvalue (slot : Nat)
  | closure (function : Handle)
  | classOf (hash : NameHash)
  | namedClass (name : String)
  | instanceOf (ofClass : Handle)
  | boundMethod (receiver : Value) (method : Handle)
  | array (values : Array Value)
  | map
  | stream (host : HostStream) (writable : Bool)
  | nameSpace (hash : NameHash)
  | namedNameSpace (name : String)

def Creation.perform (creation : Creation) (heap : Heap) : Step Handle :=
  match creation with
  | .raw payload => heap.allocate payload
  | .takenString bytes => heap.takeString bytes
  | .copiedString bytes => heap.copyString bytes
  | .text spelled => heap.copyText spelled
  | .function definition => heap.newFunction definition
  | .native code => heap.newNative code
  | .upvalue slot => heap.newUpvalue slot
  | .closure code => heap.newClosure code
  | .classOf hash => heap.newClass hash
  | .namedClass name => heap.newNamedClass name
  | .instanceOf ofClass => heap.newInstance ofClass
  | .boundMethod receiver method => heap.newBoundMethod receiver method
  | .array values => heap.newArray values
  | .map => heap.newMap
  | .stream host writable => heap.newStream host writable
  | .nameSpace hash => heap.newNameSpace hash
  | .namedNameSpace name => heap.newNamedNameSpace name

/-- The payloads that a creation allocates in a heap that lets it. A closure gets as many places as its
function declares there. -/
def Creation.Allocates (heap : Heap) (payload : Payload) : Creation → Prop
  | .raw given => payload = given
  | .takenString bytes => payload = .string (.take bytes)
  | .copiedString bytes => payload = .string (.copy bytes)
  | .text spelled => payload = .string (.copy (Text.utf8 spelled))
  | .function definition => payload = .function definition
  | .native code => payload = .native code
  | .upvalue slot => payload = .upvalue (.overSlot slot)
  | .closure code => ∃ definition, heap.expect .function code = .ok definition ∧
      payload = .closure (.ofCount code definition.upvalueCount)
  | .classOf hash => payload = .classDef (.ofHash hash)
  | .namedClass name => payload = .string (.copy (Text.utf8 name)) ∨
      ∃ text, payload = .classDef { ClassDef.ofHash (hashName name) with name := some text }
  | .instanceOf _ => payload = .classInstance .empty
  | .boundMethod receiver method => payload = .boundMethod ⟨receiver, method⟩
  | .array values => payload = .array values
  | .map => payload = .map .empty
  | .stream host writable => payload = .stream (.ofHost host writable)
  | .nameSpace hash => payload = .nameSpace (.ofHash hash)
  | .namedNameSpace name => payload = .string (.copy (Text.utf8 name)) ∨
      ∃ text, payload = .nameSpace { NameSpace.ofHash (hashName name) with name := some text }

/-- The class in the header of what a creation allocates: the one that an instance is made of, and for
all else the one that the heap has for the kind. -/
def Creation.dispatch (creation : Creation) (heap : Heap) (type : ObjectType) : Option Handle :=
  match creation with
  | .instanceOf ofClass => some ofClass
  | _ => heap.builtin? type

/-- The result of a step left aside. -/
def Step.ignore {α : Type} (step : Step α) : Step Unit :=
  ⟨step.outcome.map fun _ => (), step.heap, step.notices⟩

/-- What a host may do to a heap. The last five write to an object or to the link table directly. -/
inductive Operation where
  | create (creation : Creation)
  | free (target : Handle)
  | sweep
  | mark (target : Handle) (dark : Bool)
  | clearMarks
  | setBuiltin (type : ObjectType) (implementation : Handle)
  | capture (head : Option Handle) (slot : Nat)
  | closeUpvalues (head : Option Handle) (lowest : Nat) (stack : Stack)
  | resolveParent (child parent : Handle)
  | resolvePending (registry : ClassRegistry)
  | closeStream (target : Handle)
  | edit (type : ObjectType) (target : Handle) (change : Variant.Data type → Variant.Data type)
  | writeDispatch (target : Handle) (dispatch : Option Handle)
  | writeType (target : Handle) (type : ObjectType)
  | writeNext (target : Handle) (next : Option Handle)
  | relink (links : LinkTable)

namespace Operation

def perform (op : Operation) (heap : Heap) : Step Unit :=
  match op with
  | .create creation => (creation.perform heap).ignore
  | .free target => heap.free target
  | .sweep => heap.sweep.ignore
  | .mark target dark => Step.done ((heap.setDark? target dark).getD heap) ()
  | .clearMarks => Step.done heap.clearMarks ()
  | .setBuiltin type implementation => heap.setBuiltin type implementation
  | .capture head slot => (heap.capture head slot).ignore
  | .closeUpvalues head lowest stack => (heap.closeUpvalues head lowest stack).ignore
  | .resolveParent child parent => heap.resolveParent child parent
  | .resolvePending registry => (registry.resolvePending heap).ignore
  | .closeStream target => ((heap.closeStream? target).map Step.ignore).getD (Step.done heap ())
  | .edit type target change => Step.done (heap.update (.ofType type) target change) ()
  | .writeDispatch target dispatch =>
    Step.done (heap.modifyHeader target ({ · with dispatch })) ()
  | .writeType target type => Step.done (heap.modifyHeader target ({ · with type })) ()
  | .writeNext target next => Step.done (heap.modifyHeader target ({ · with next })) ()
  | .relink links => Step.done { heap with links } ()

/-! ## What an operation is made of -/

/-- The payloads that an operation allocates in a heap, and the classes that go into their headers. -/
inductive Allocates : Operation → Heap → Payload → Option Handle → Prop where
  | create {creation : Creation} {heap : Heap} {payload : Payload}
      (allocates : creation.Allocates heap payload) :
      Allocates (create creation) heap payload (creation.dispatch heap payload.type)
  | capture {head : Option Handle} {slot : Nat} {heap : Heap} :
      Allocates (capture head slot) heap (.upvalue (.overSlot slot)) (heap.builtin? .upvalue)

/-- The payloads that an operation revises besides allocating and freeing, and how. A capture relinks
upvalues, closing closes those over a slot with the value in it, and linking sets a class's parent;
every other revision goes through the handle that the operation names. -/
inductive Revises : Operation → Handle → (Payload → Payload) → Prop where
  | edit {type : ObjectType} {target : Handle} {change : Variant.Data type → Variant.Data type} :
      Revises (edit type target change) target ((Variant.ofType type).modify change)
  | closeStream {target : Handle} :
      Revises (closeStream target) target (Variant.stream.modify Stream.close)
  | capture {head : Option Handle} {slot : Nat} {handle : Handle} {next : Option Handle} :
      Revises (capture head slot) handle (Variant.upvalue.modify ({ · with next }))
  | closeUpvalues {head : Option Handle} {lowest slot : Nat} {stack : Stack} {handle : Handle}
      {value : Value} (reached : lowest ≤ slot) (held : stack[slot]? = some value) :
      Revises (closeUpvalues head lowest stack) handle
        (Variant.upvalue.modify fun upvalue =>
          if upvalue.slot? = some slot then ⟨.closed value, none⟩ else upvalue)
  | resolveParent {child parent : Handle} :
      Revises (resolveParent child parent) child
        (Variant.classDef.modify ({ · with parent := some parent }))
  | resolvePending {registry : ClassRegistry} {hash : NameHash} {child parent : Handle}
      (registered : registry.get? hash = some parent) :
      Revises (resolvePending registry) child
        (Variant.classDef.modify ({ · with parent := some parent }))

/-- No revision makes an object one of another kind. -/
theorem Revises.type_eq {op : Operation} {handle : Handle} {change : Payload → Payload}
    (revises : op.Revises handle change) (payload : Payload) :
    (change payload).type = payload.type := by
  cases revises <;> exact Variant.type_modify ..

/-- The headers that an operation stamps besides allocating, freeing and sweeping, and how. -/
inductive Stamps : Operation → Handle → (Header → Header) → Prop where
  | mark {target : Handle} {dark : Bool} : Stamps (mark target dark) target ({ · with dark })
  | dispatch {target : Handle} {dispatch : Option Handle} :
      Stamps (writeDispatch target dispatch) target ({ · with dispatch })
  | type {target : Handle} {type : ObjectType} :
      Stamps (writeType target type) target ({ · with type })
  | next {target : Handle} {next : Option Handle} :
      Stamps (writeNext target next) target ({ · with next })

/-- The tables that an operation puts in the place of the heap's own: the classes for new objects, and
the links. -/
inductive Settles : Operation → Heap → (ObjectType → Option Handle) → LinkTable → Prop where
  | setBuiltin {type : ObjectType} {implementation : Handle} {heap : Heap} :
      Settles (setBuiltin type implementation) heap
        (fun other => if other = type then some implementation else heap.builtins other) heap.links
  | relink {links : LinkTable} {heap : Heap} : Settles (relink links) heap heap.builtins links

/-- What an operation tells besides allocating, freeing and sweeping. -/
inductive Reports : Operation → Notice → Prop where
  | builtin {type : ObjectType} {implementation : Handle} :
      Reports (setBuiltin type implementation) (.logged (.builtinRegistered type implementation))
  | parent {child parent : Handle} {hash : NameHash} :
      Reports (resolveParent child parent) (.logged (.parentResolved child parent hash))
  | batch {registry : ClassRegistry} {event : Event} (concerns : event.subsystem = .classes) :
      Reports (resolvePending registry) (.logged event)
  | stream {target : Handle} {host : HostStream} :
      Reports (closeStream target) (.closeStream host)

end Operation

/-! ## Properties that steps keep -/

/-- A property of all that was told and of the heap, after a step. -/
def Step.Leaves {α : Type} (step : Step α) (P : List Notice → Heap → Prop) (told : List Notice) :
    Prop :=
  P (told ++ step.notices) step.heap

/-- The parts of an operation keep a property. -/
structure Operation.Preserves (op : Operation) (P : List Notice → Heap → Prop) : Prop where
  allocate : ∀ {told heap} payload dispatch, op.Allocates heap payload dispatch → P told heap →
    (heap.allocateWith payload dispatch).Leaves P told
  free : ∀ {told heap target}, op = .free target → P told heap → (heap.free target).Leaves P told
  sweep : ∀ {told heap}, op = .sweep → P told heap → heap.sweep.Leaves P told
  clearMarks : ∀ {told heap}, op = .clearMarks → P told heap → P told heap.clearMarks
  revise : ∀ {told heap handle change}, op.Revises handle change → P told heap →
    P told (heap.modify handle fun object => { object with payload := change object.payload })
  stamp : ∀ {told heap handle change}, op.Stamps handle change → P told heap →
    P told (heap.modifyHeader handle change)
  settle : ∀ {told heap} builtins links, op.Settles heap builtins links → P told heap →
    P told { heap with builtins, links }
  report : ∀ {told heap notice}, op.Reports notice → P told heap → P (told ++ [notice]) heap

section
variable {α β : Type} {P : List Notice → Heap → Prop} {told : List Notice} {heap : Heap}

theorem leaves_done (holds : P told heap) (result : α) : (Step.done heap result).Leaves P told := by
  rw [Step.Leaves, Step.done, List.append_nil]
  exact holds

theorem leaves_defect (holds : P told heap) (cause : Defect) :
    (Step.defect heap cause : Step α).Leaves P told := by
  rw [Step.Leaves, Step.defect, List.append_nil]
  exact holds

theorem leaves_fail (holds : P told heap) (cause : HeapError) :
    (Step.fail heap cause : Step α).Leaves P told := by
  rw [Step.Leaves, Step.fail, List.append_nil]
  exact holds

theorem leaves_andThen {step : Step α} {next : α → Heap → Step β} (first : step.Leaves P told)
    (second : ∀ result told', P told' step.heap → (next result step.heap).Leaves P told') :
    (step.andThen next).Leaves P told := by
  rw [Step.andThen]
  split
  · next result _ =>
    have both := second result (told ++ step.notices) first
    rw [Step.Leaves, List.append_assoc] at both
    exact both
  · exact first

/-- A look at the heap changes nothing and tells nothing. -/
theorem leaves_ofLook {look : Except HeapError α} {next : α → Heap → Step β} (holds : P told heap)
    (second : ∀ result, look = .ok result → (next result heap).Leaves P told) :
    ((Step.ofLook heap look).andThen next).Leaves P told := by
  cases look with
  | error cause => exact leaves_fail holds cause
  | ok result => exact second result rfl

end

/-! ## Every operation keeps what its parts keep -/

section
variable {P : List Notice → Heap → Prop} {told : List Notice} {heap : Heap}

/-- Every object comes into being by an allocation, or by two. -/
theorem Creation.leaves {creation : Creation}
    (allocate : ∀ {told heap} payload, creation.Allocates heap payload → P told heap →
      (heap.allocateWith payload (creation.dispatch heap payload.type)).Leaves P told)
    (holds : P told heap) : (creation.perform heap).Leaves P told := by
  cases creation with
  | closure code =>
    exact leaves_ofLook holds fun definition found => allocate _ ⟨definition, found, rfl⟩ holds
  | instanceOf ofClass => exact leaves_ofLook holds fun _ _ => allocate _ rfl holds
  | boundMethod receiver method =>
    refine leaves_ofLook holds fun object _ => ?_
    split
    · exact allocate _ rfl holds
    · exact allocate _ rfl holds
    · exact leaves_fail holds _
  | namedClass name =>
    exact leaves_andThen (allocate _ (.inl rfl) holds) fun text _ held =>
      allocate _ (.inr ⟨text, rfl⟩) held
  | namedNameSpace name =>
    exact leaves_andThen (allocate _ (.inl rfl) holds) fun text _ held =>
      allocate _ (.inr ⟨text, rfl⟩) held
  | _ => exact allocate _ rfl holds

namespace Operation.Preserves

theorem capture {head : Option Handle} {slot : Nat} (kept : (Operation.capture head slot).Preserves P)
    (holds : P told heap) : (heap.capture head slot).Leaves P told := by
  have insert (previous next : Option Handle) :
      (heap.insertUpvalue head previous next slot).Leaves P told := by
    refine leaves_andThen (kept.allocate _ _ .capture holds) fun created told' held => ?_
    have relinks (handle : Handle) (next : Option Handle) :
        (Operation.capture head slot).Revises handle (Variant.upvalue.modify ({ · with next })) :=
      .capture
    have placed := kept.revise (relinks created next) held
    cases previous with
    | none => exact leaves_done placed _
    | some before => exact leaves_done (kept.revise (relinks before (some created)) placed) _
  rw [Heap.capture]
  split
  · exact insert _ _
  · refine leaves_ofLook holds fun upvalue _ => ?_
    split
    · exact leaves_done holds _
    · split
      · exact leaves_defect holds _
      · exact insert _ _

/-- An upvalue that is closed takes the value of its slot along. -/
private theorem closed_of_reached {upvalue closed : Upvalue} {lowest : Nat} {stack : Stack} {was : Bool}
    (reached : upvalue.slot?.any (lowest ≤ ·) = true) (closes : upvalue.close stack = .ok (was, closed)) :
    ∃ slot value, lowest ≤ slot ∧ stack[slot]? = some value ∧ upvalue.slot? = some slot ∧
      { closed with next := none } = (⟨.closed value, none⟩ : Upvalue) := by
  obtain ⟨state, next⟩ := upvalue
  cases state with
  | closed value => simp [Upvalue.slot?] at reached
  | opened slot =>
    simp only [Upvalue.close] at closes
    cases held : stack[slot]? with
    | none => simp [held] at closes
    | some value =>
      simp only [held, Except.ok.injEq, Prod.mk.injEq] at closes
      obtain ⟨-, rfl⟩ := closes
      exact ⟨slot, value, by simpa [Upvalue.slot?] using reached, held, rfl, rfl⟩

/-- Only what a change does to the data that is there matters. -/
private theorem update_congr {α : Type} {variant : Variant α} {handle : Handle} {data : α}
    {change other : α → α} (seen : heap.view? variant handle = some data)
    (same : change data = other data) :
    heap.update variant handle change = heap.update variant handle other := by
  obtain ⟨object, found, projected⟩ := Option.bind_eq_some_iff.1 seen
  have alike : heap.store.modify handle.toSlotKey (fun object =>
        { object with payload := variant.modify change object.payload }) =
      heap.store.modify handle.toSlotKey fun object =>
        { object with payload := variant.modify other object.payload } := by
    refine Slots.modify_congr fun occupant held => ?_
    obtain rfl := Option.some.inj (found.symm.trans held)
    simp only [Variant.modify, projected, same]
  exact congrArg (fun store => { heap with store }) alike

theorem closeUpvalues {head : Option Handle} {lowest : Nat} {stack : Stack}
    (kept : (Operation.closeUpvalues head lowest stack).Preserves P) (holds : P told heap) :
    (heap.closeUpvalues head lowest stack).Leaves P told := by
  have closing (count : Nat) (heap : Heap) (start : Option Handle) (holds : P told heap) :
      (Heap.closeWithin lowest stack count heap start).Leaves P told := by
    induction count generalizing heap start with
    | zero => exact leaves_done holds _
    | succ count ih =>
      cases start with
      | none => exact leaves_done holds _
      | some handle =>
        rw [Heap.closeWithin]
        split
        · exact leaves_done holds _
        · next upvalue seen =>
          split
          · next reached =>
            split
            · exact leaves_defect holds _
            · next closed closes =>
              obtain ⟨slot, value, above, held, its, shape⟩ := closed_of_reached reached closes
              have own : heap.update .upvalue handle (fun _ => { closed with next := none }) =
                  heap.update .upvalue handle fun upvalue =>
                    if upvalue.slot? = some slot then ⟨.closed value, none⟩ else upvalue :=
                update_congr seen (by rw [if_pos its, shape])
              rw [own]
              exact ih _ _ (kept.revise (.closeUpvalues above held) holds)
          · exact leaves_done holds _
  exact closing heap.openCount heap head holds

theorem resolveParent {child parent : Handle}
    (kept : (Operation.resolveParent child parent).Preserves P) (holds : P told heap) :
    (heap.resolveParent child parent).Leaves P told := by
  rw [Heap.resolveParent]
  split
  · exact leaves_fail holds _
  · exact kept.report .parent (kept.revise .resolveParent holds)

theorem resolvePending {registry : ClassRegistry}
    (kept : (Operation.resolvePending registry).Preserves P) (holds : P told heap) :
    (registry.resolvePending heap).Leaves P told := by
  have one (batch : ClassRegistry.Batch) (child : Handle) (holds : P (told ++ batch.notices) batch.heap) :
      P (told ++ (registry.attempt batch child).notices) (registry.attempt batch child).heap := by
    rw [ClassRegistry.attempt]
    split
    · exact holds
    · next parent sought =>
      obtain ⟨hash, _, registered⟩ := Option.bind_eq_some_iff.1 sought
      split
      · next granted =>
        have revises : (Operation.resolvePending registry).Revises child
            (Variant.classDef.modify ({ · with parent := some parent })) :=
          .resolvePending registered
        have reports : (Operation.resolvePending registry).Reports (.logged (.parentResolved child
            parent ((batch.heap.parentHash? child).getD 0))) :=
          .batch rfl
        have linked := kept.report reports (kept.revise revises holds)
        simp only [Heap.resolveParent, granted]
        rwa [← List.append_assoc]
      · next cause _ =>
        have reports : (Operation.resolvePending registry).Reports
            (.logged (.resolutionFailed child parent cause)) := .batch rfl
        have refused := kept.report reports holds
        rwa [List.append_assoc] at refused
  have all (pending : List Handle) (batch : ClassRegistry.Batch)
      (holds : P (told ++ batch.notices) batch.heap) :
      P (told ++ (pending.foldl registry.attempt batch).notices)
        (pending.foldl registry.attempt batch).heap := by
    induction pending generalizing batch with
    | nil => exact holds
    | cons child rest ih => exact ih _ (one batch child holds)
  have done := all (registry.pending heap) ⟨heap, ⟨0, []⟩, []⟩ (by rwa [List.append_nil])
  rw [ClassRegistry.resolvePending, Step.Leaves]
  simp only
  split
  · rw [← List.append_assoc]
    exact kept.report (.batch rfl) done
  · rwa [List.append_nil]

theorem closeStream {target : Handle} (kept : (Operation.closeStream target).Preserves P)
    (holds : P told heap) : ((Operation.closeStream target).perform heap).Leaves P told := by
  have closed : P told (heap.update .stream target Stream.close) := kept.revise .closeStream holds
  rw [perform, Heap.closeStream?]
  cases heap.view? .stream target with
  | none => exact leaves_done holds _
  | some stream =>
    rw [Step.Leaves]
    cases held : stream.host? with
    | none => simpa [held, Step.ignore] using closed
    | some host =>
      have reports : (Operation.closeStream target).Reports (.closeStream host) := .stream
      simpa [held, Step.ignore] using kept.report reports closed

/-- What the parts of an operation keep, the operation keeps. -/
theorem perform {op : Operation} (kept : op.Preserves P) (holds : P told heap) :
    (op.perform heap).Leaves P told := by
  cases op with
  | create creation =>
    exact Creation.leaves (fun payload allocates held =>
      kept.allocate payload _ (.create allocates) held) holds
  | free target => exact kept.free rfl holds
  | sweep => exact kept.sweep rfl holds
  | mark target dark =>
    rw [Operation.perform, Heap.setDark?]
    split
    · exact leaves_done (kept.stamp .mark holds) _
    · exact leaves_done holds _
  | clearMarks => exact leaves_done (kept.clearMarks rfl holds) _
  | setBuiltin type implementation =>
    exact leaves_ofLook holds fun _ _ => kept.report .builtin (kept.settle _ _ .setBuiltin holds)
  | capture head slot => exact kept.capture holds
  | closeUpvalues head lowest stack => exact kept.closeUpvalues holds
  | resolveParent child parent => exact kept.resolveParent holds
  | resolvePending registry => exact kept.resolvePending holds
  | closeStream target => exact kept.closeStream holds
  | edit type target change => exact leaves_done (kept.revise .edit holds) _
  | writeDispatch target dispatch => exact leaves_done (kept.stamp .dispatch holds) _
  | writeType target type => exact leaves_done (kept.stamp .type holds) _
  | writeNext target next => exact leaves_done (kept.stamp .next holds) _
  | relink links => exact leaves_done (kept.settle _ _ .relink holds) _

/-- From where nothing has been told yet. -/
theorem performs {op : Operation} (kept : op.Preserves P) (holds : P [] heap) :
    P (op.perform heap).notices (op.perform heap).heap :=
  kept.perform holds

end Operation.Preserves
end
end ScriptHeap
