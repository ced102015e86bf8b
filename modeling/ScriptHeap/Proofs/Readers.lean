import ScriptHeap.Display
import ScriptHeap.Proofs.NearestDefinition

/-! What the readers of a heap depend on. Looking up a member and printing a value read an object, the
objects it refers to, and so on from there. Two heaps that hold the same under all of these handles give
the same members and the same texts, whatever else they hold and however many objects they count. -/
namespace ScriptHeap

/-- The objects that looking up and printing go on to from a payload. -/
def Payload.references : Payload → List Handle
  | .boundMethod bound => [bound.method]
  | .classDef self => self.name.toList ++ self.parent.toList
  | .closure held => [held.function]
  | .function code => code.name.toList
  | .array values => values.toList.filterMap Value.asObject
  | .map held => held.entries.filterMap fun entry => entry.2.asObject
  | .nameSpace space => space.name.toList
  | .classInstance _ | .native _ | .string _ | .upvalue _ | .stream _ => []

namespace Object

/-- An object apart from the collector's mark and from its link in the chain. -/
def body (object : Object) : Object :=
  { object with header := { object.header with dark := false, next := none } }

/-- The objects that an object refers to: its class, and what its payload refers to. -/
def references (object : Object) : List Handle :=
  object.header.dispatch.toList ++ object.payload.references

theorem payload_eq_of_body {one other : Object} (same : one.body = other.body) :
    one.payload = other.payload :=
  congrArg (·.payload) same

theorem dispatch_eq_of_body {one other : Object} (same : one.body = other.body) :
    one.header.dispatch = other.header.dispatch :=
  congrArg (·.header.dispatch) same

end Object

/-- A value is no object, or one of these. -/
def Value.Within (kept : Handle → Prop) (value : Value) : Prop :=
  ∀ one, value.asObject = some one → kept one

/-- Two ways of printing what is contained give the same texts for these objects, or both cut it off. -/
def PrintAlike (kept : Handle → Prop) :
    Option (Bool → Value → String) → Option (Bool → Value → String) → Prop :=
  Option.Rel fun outer inner =>
    ∀ nested value, Value.Within kept value → outer nested value = inner nested value

namespace Heap

/-- Two heaps hold the same under some handles, and what is held there refers to no others. -/
structure AgreeOn (kept : Handle → Prop) (heap other : Heap) : Prop where
  bodies : ∀ handle, kept handle →
    (other.get? handle).map Object.body = (heap.get? handle).map Object.body
  closed : ∀ handle object, kept handle → heap.get? handle = some object →
    ∀ one ∈ object.references, kept one
  links : other.links = heap.links

namespace AgreeOn
variable {kept : Handle → Prop} {heap other : Heap} {handle start : Handle} {object : Object}

theorem get?_cases (agree : heap.AgreeOn kept other) (held : kept handle) :
    heap.get? handle = none ∧ other.get? handle = none ∨
      ∃ object again, heap.get? handle = some object ∧ other.get? handle = some again ∧
        again.payload = object.payload ∧ again.header.dispatch = object.header.dispatch ∧
        ∀ one ∈ object.references, kept one := by
  have same := agree.bodies handle held
  cases found : heap.get? handle with
  | none =>
    rw [found, Option.map_none, Option.map_eq_none_iff] at same
    exact .inl ⟨rfl, same⟩
  | some object =>
    rw [found, Option.map_some, Option.map_eq_some_iff] at same
    obtain ⟨again, there, bodies⟩ := same
    exact .inr ⟨object, again, rfl, there, Object.payload_eq_of_body bodies,
      Object.dispatch_eq_of_body bodies, agree.closed handle object held found⟩

theorem view?_eq {α : Type} (agree : heap.AgreeOn kept other) (variant : Variant α)
    (held : kept handle) : other.view? variant handle = heap.view? variant handle := by
  refine view?_congr ?_
  obtain ⟨gone, lost⟩ | ⟨object, again, found, there, payload, -, -⟩ := agree.get?_cases held
  · rw [payloadAt, payloadAt, gone, lost]
  · rw [payloadAt_of_get? found, payloadAt_of_get? there, payload]

theorem of_view? {α : Type} {variant : Variant α} {data : α} (agree : heap.AgreeOn kept other)
    (held : kept handle) (seen : heap.view? variant handle = some data) :
    ∀ one ∈ (variant.inject data).references, kept one := by
  obtain ⟨object, found, projected⟩ := Option.bind_eq_some_iff.1 seen
  intro one refers
  rw [variant.inject_of_project _ _ projected] at refers
  exact agree.closed handle object held found one (List.mem_append_right _ refers)

/-! ## Members -/

/-- The same classes are in line. -/
theorem inherits_eq (agree : heap.AgreeOn kept other) (gives : ClassDef → Option Value)
    (held : kept start) : other.Inherits gives start = heap.Inherits gives start := by
  have line (steps : Nat) := walk_congr kept (fun _ held => agree.view?_eq .classDef held)
    (fun handle self after held seen leads => agree.of_view? held seen after
      (List.mem_append_right _ (Option.mem_toList.2 leads)))
    (fun handle starts => Option.some.inj starts ▸ held) steps
  exact firstAlong_congr line gives

/-- A search along the line finds the same, however many steps it may take. -/
theorem findSome?_ancestors_eq (agree : heap.AgreeOn kept other) (gives : ClassDef → Option Value)
    (held : kept start) :
    (other.ancestors start).findSome? (fun ancestor => gives ancestor.2) =
      (heap.ancestors start).findSome? (fun ancestor => gives ancestor.2) := by
  rw [findSome?_ancestors_eq_iff, agree.inherits_eq gives held, ← findSome?_ancestors_eq_iff]

theorem findMethod_eq (agree : heap.AgreeOn kept other) (held : kept start) (name : NameHash) :
    other.findMethod start name = heap.findMethod start name :=
  agree.findSome?_ancestors_eq (·.methods.get? name) held

theorem findFieldDefault_eq (agree : heap.AgreeOn kept other) (held : kept start)
    (name : NameHash) : other.findFieldDefault start name = heap.findFieldDefault start name :=
  agree.findSome?_ancestors_eq (·.fields.get? name) held

theorem findInitializer_eq (agree : heap.AgreeOn kept other) (held : kept start) :
    other.findInitializer start = heap.findInitializer start := by
  rw [findInitializer_eq_findSome?, findInitializer_eq_findSome?]
  exact agree.findSome?_ancestors_eq ClassDef.initializer? held

theorem methodProperty_eq (agree : heap.AgreeOn kept other) (held : kept start) (name : NameHash) :
    other.methodProperty start name = heap.methodProperty start name := by
  rw [methodProperty, methodProperty, agree.findMethod_eq held]

theorem dispatchProperty_eq {again : Object} (agree : heap.AgreeOn kept other)
    (dispatch : again.header.dispatch = object.header.dispatch)
    (refers : ∀ one ∈ object.references, kept one) (name : NameHash) :
    other.dispatchProperty again name = heap.dispatchProperty object name := by
  rw [dispatchProperty, dispatchProperty, dispatch]
  cases ofClass : object.header.dispatch with
  | none => rfl
  | some start => exact agree.methodProperty_eq (refers start (by simp [Object.references, ofClass])) name

theorem instanceProperty_eq {again : Object} (agree : heap.AgreeOn kept other)
    (dispatch : again.header.dispatch = object.header.dispatch)
    (refers : ∀ one ∈ object.references, kept one) (self : ClassInstance) (name : NameHash) :
    other.instanceProperty again self name = heap.instanceProperty object self name := by
  have defaults : again.header.dispatch.bind (other.findFieldDefault · name) =
      object.header.dispatch.bind (heap.findFieldDefault · name) := by
    rw [dispatch]
    cases ofClass : object.header.dispatch with
    | none => rfl
    | some start =>
      exact agree.findFieldDefault_eq (refers start (by simp [Object.references, ofClass])) name
  rw [instanceProperty, instanceProperty, defaults, agree.dispatchProperty_eq dispatch refers name]

theorem lookup_eq (agree : heap.AgreeOn kept other) (held : kept handle) (name : NameHash) :
    other.lookup (.object handle) name = heap.lookup (.object handle) name := by
  obtain ⟨gone, lost⟩ | ⟨object, again, found, there, payload, dispatch, refers⟩ :=
    agree.get?_cases held
  · simp only [lookup, gone, lost]
  · simp only [lookup, found, there, payload]
    cases object.payload with
    | classInstance self => exact agree.instanceProperty_eq dispatch refers self name
    | nameSpace space => rfl
    | classDef self => exact agree.methodProperty_eq held name
    | _ => exact agree.dispatchProperty_eq dispatch refers name

/-! ## Texts -/

theorem nameText?_eq (agree : heap.AgreeOn kept other) {name : Option Handle}
    (held : ∀ one ∈ name.toList, kept one) : other.nameText? name = heap.nameText? name := by
  cases name with
  | none => rfl
  | some one => simp [nameText?, agree.view?_eq .string (held one (by simp))]

theorem nameOrHash_eq (agree : heap.AgreeOn kept other) {name : Option Handle}
    (held : ∀ one ∈ name.toList, kept one) (hash : NameHash) :
    other.nameOrHash name hash = heap.nameOrHash name hash := by
  rw [nameOrHash, nameOrHash, agree.nameText?_eq held]

theorem functionText_eq (agree : heap.AgreeOn kept other) {name : Option Handle}
    (held : ∀ one ∈ name.toList, kept one) : other.functionText name = heap.functionText name := by
  rw [functionText, functionText, agree.nameText?_eq held]

theorem instanceText_eq (agree : heap.AgreeOn kept other) {dispatch : Option Handle}
    (held : ∀ one ∈ dispatch.toList, kept one) :
    other.instanceText dispatch = heap.instanceText dispatch := by
  cases dispatch with
  | none => rfl
  | some start =>
    have ofClass : kept start := held start (by simp)
    simp only [instanceText, Option.bind_some, agree.view?_eq .classDef ofClass]
    cases seen : heap.view? .classDef start with
    | none => rfl
    | some self =>
      simp only [agree.nameOrHash_eq
        fun one listed => agree.of_view? ofClass seen one (List.mem_append_left _ listed)]

/-- What an object refers to is read alike, and what it contains is printed alike. -/
theorem objectText_eq (agree : heap.AgreeOn kept other) {again : Object}
    (payload : again.payload = object.payload)
    (dispatch : again.header.dispatch = object.header.dispatch)
    (refers : ∀ one ∈ object.references, kept one) {outer inner : Option (Bool → Value → String)}
    (contained : PrintAlike kept outer inner) (nested : Bool) :
    other.objectText outer nested again = heap.objectText inner nested object := by
  have own (one : Handle) (listed : one ∈ object.payload.references) : kept one :=
    refers one (List.mem_append_right _ listed)
  simp only [objectText, payload]
  cases shape : object.payload <;> rw [shape] at own
  case array values =>
    cases contained with
    | none => rfl
    | some same =>
      have elements := List.map_congr_left (l := values.toList) fun value listed =>
        same true value fun one leads => own one (List.mem_filterMap.2 ⟨value, listed, leads⟩)
      simp only [elements]
  case map entries =>
    cases contained with
    | none => rfl
    | some same =>
      have elements := List.map_congr_left (l := entries.entries) fun entry listed =>
        congrArg (Text.quote entry.1 ++ ": " ++ ·) (same true entry.2 fun one leads =>
          own one (List.mem_filterMap.2 ⟨entry, listed, leads⟩))
      simp only [elements]
  case boundMethod bound =>
    cases contained with
    | none => rfl
    | some same =>
      exact same nested _ fun one leads => own one (by cases leads; exact List.mem_singleton_self _)
  case function function => exact agree.functionText_eq own
  case closure closure =>
    have code : kept closure.function := own _ (List.mem_singleton_self _)
    simp only [agree.view?_eq .function code]
    refine agree.functionText_eq fun one listed => ?_
    obtain ⟨function, seen, named⟩ := Option.bind_eq_some_iff.1 (Option.mem_toList.1 listed)
    exact agree.of_view? code seen one (Option.mem_toList.2 named)
  case classDef self =>
    simp only [agree.nameOrHash_eq fun one listed => own one (List.mem_append_left _ listed)]
  case classInstance self =>
    rw [dispatch]
    exact agree.instanceText_eq fun one listed => refers one (List.mem_append_left _ listed)
  case nameSpace space => simp only [agree.nameOrHash_eq own]

theorem valueText_eq (agree : heap.AgreeOn kept other) (cells : HostCells)
    {outer inner : Option (Bool → Value → String)} (contained : PrintAlike kept outer inner)
    (nested : Bool) {value : Value} (held : value.Within kept) :
    other.valueText cells outer nested value = heap.valueText cells inner nested value := by
  cases value with
  | object handle =>
    obtain ⟨gone, lost⟩ | ⟨object, again, found, there, payload, dispatch, refers⟩ :=
      agree.get?_cases (held handle rfl)
    · simp only [valueText, gone, lost]
    · simp only [valueText, found, there]
      exact agree.objectText_eq payload dispatch refers contained nested
  | linkedInteger id | linkedDecimal id => simp only [valueText, agree.links]
  | _ => rfl

/-- Containers that contain themselves are printed alike too, since only so many levels are shown. -/
theorem displayWithin_eq (agree : heap.AgreeOn kept other) (cells : HostCells) (levels : Nat)
    (nested : Bool) {value : Value} (held : value.Within kept) :
    other.displayWithin cells levels nested value = heap.displayWithin cells levels nested value := by
  induction levels generalizing nested value with
  | zero => exact agree.valueText_eq cells .none nested held
  | succ levels ih =>
    exact agree.valueText_eq cells (.some fun nested _ held => ih nested held) nested held

end AgreeOn
end Heap
end ScriptHeap
