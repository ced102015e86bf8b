import ScriptHeap.Classes.Resolve
import ScriptHeap.Proofs.Views

/-! Members come from the nearest class that defines them. The classes in line are those of the walk
along linked parents that nobody cuts: it ends at a class without a parent or at a handle that is no
live class, or it runs in a ring for ever. The look-up, which takes no more steps than there are
objects, finds what this walk would find. -/
namespace ScriptHeap

/-- The initializer of a class that has one. -/
def ClassDef.initializer? (self : ClassDef) : Option Value :=
  if self.hasInitializer then some self.initializer else none

namespace Heap

/-- The class so many links up the line: the class itself, its parent, the parent of that. -/
def forebear? (heap : Heap) (start : Handle) (steps : Nat) : Option (Handle × ClassDef) :=
  walk (heap.view? .classDef) (·.parent) steps (some start)

/-- What the nearest class in line gives of those that give anything; nothing, if none of them does. -/
def Inherits (heap : Heap) (gives : ClassDef → Option Value) (start : Handle) :
    Option Value → Prop :=
  FirstAlong (heap.view? .classDef) (·.parent) gives (some start)

/-- What a receiver has under a name. -/
inductive Has (heap : Heap) (name : NameHash) : Value → Property → Prop where
  | ownField {handle object self value} (found : heap.get? handle = some object)
      (shape : object.payload = .classInstance self) (held : self.fields.get? name = some value) :
      Has heap name (.object handle) (.field value)
  | fieldDefault {handle object self start value} (found : heap.get? handle = some object)
      (shape : object.payload = .classInstance self) (missing : self.fields.get? name = none)
      (ofClass : object.header.dispatch = some start)
      (inherited : heap.Inherits (·.fields.get? name) start (some value)) :
      Has heap name (.object handle) (.field value)
  /-- A method of an instance shows only where no class in line gives the field a value. -/
  | instanceMethod {handle object self start value} (found : heap.get? handle = some object)
      (shape : object.payload = .classInstance self) (missing : self.fields.get? name = none)
      (ofClass : object.header.dispatch = some start)
      (fieldless : heap.Inherits (·.fields.get? name) start none)
      (inherited : heap.Inherits (·.methods.get? name) start (some value)) :
      Has heap name (.object handle) (.method value)
  | spaceField {handle object space value} (found : heap.get? handle = some object)
      (shape : object.payload = .nameSpace space) (held : space.fields.get? name = some value) :
      Has heap name (.object handle) (.field value)
  | classMethod {handle object self value} (found : heap.get? handle = some object)
      (shape : object.payload = .classDef self)
      (inherited : heap.Inherits (·.methods.get? name) handle (some value)) :
      Has heap name (.object handle) (.method value)
  | kindMethod {handle object start value} (found : heap.get? handle = some object)
      (plain : object.payload.type ∉ [.classInstance, .nameSpace, .classDef])
      (ofClass : object.header.dispatch = some start)
      (inherited : heap.Inherits (·.methods.get? name) start (some value)) :
      Has heap name (.object handle) (.method value)

variable {heap : Heap} {start handle : Handle} {name : NameHash} {found : Option Value}

/-! ## Searches along the line -/

theorem findSome?_ancestors_eq_iff (gives : ClassDef → Option Value) :
    (heap.ancestors start).findSome? (fun ancestor => gives ancestor.2) = found ↔
      heap.Inherits gives start found :=
  findSome?_trail_eq_iff (heap.atMost_view? .classDef) gives

theorem findMethod_eq_iff :
    heap.findMethod start name = found ↔ heap.Inherits (·.methods.get? name) start found :=
  findSome?_ancestors_eq_iff (·.methods.get? name)

theorem findFieldDefault_eq_iff :
    heap.findFieldDefault start name = found ↔ heap.Inherits (·.fields.get? name) start found :=
  findSome?_ancestors_eq_iff (·.fields.get? name)

theorem findInitializer_eq_findSome? (heap : Heap) (start : Handle) :
    heap.findInitializer start = (heap.ancestors start).findSome? (·.2.initializer?) := by
  rw [findInitializer]
  induction heap.ancestors start with
  | nil => rfl
  | cons first rest ih =>
    rw [List.find?_cons, List.findSome?_cons, ClassDef.initializer?]
    cases first.2.hasInitializer with
    | true => rfl
    | false => exact ih

theorem findInitializer_eq_iff :
    heap.findInitializer start = found ↔ heap.Inherits ClassDef.initializer? start found := by
  rw [findInitializer_eq_findSome?]
  exact findSome?_ancestors_eq_iff ClassDef.initializer?

/-- The ancestors of a class are the classes in line, each once or more. -/
theorem mem_ancestors_iff {ancestor : Handle × ClassDef} :
    ancestor ∈ heap.ancestors start ↔ ∃ steps, heap.forebear? start steps = some ancestor :=
  mem_trail_iff (heap.atMost_view? .classDef)

/-! ## Receivers -/

section
variable {object : Object} {property : Property}

theorem methodProperty_eq_iff (sought : property ≠ .notFound) :
    heap.methodProperty start name = property ↔
      ∃ value, property = .method value ∧ heap.Inherits (·.methods.get? name) start (some value) := by
  simp only [← findMethod_eq_iff, methodProperty]
  cases heap.findMethod start name with
  | none => simp [Ne.symm sought]
  | some value =>
    constructor
    · rintro rfl
      exact ⟨value, rfl, rfl⟩
    · rintro ⟨_, rfl, same⟩
      rw [Option.some.inj same]

theorem dispatchProperty_eq_iff (sought : property ≠ .notFound) :
    heap.dispatchProperty object name = property ↔
      ∃ start value, object.header.dispatch = some start ∧ property = .method value ∧
        heap.Inherits (·.methods.get? name) start (some value) := by
  rw [dispatchProperty]
  cases object.header.dispatch with
  | none => simp [Ne.symm sought]
  | some start => simp [methodProperty_eq_iff sought]

theorem lookup_instance {self : ClassInstance} (found : heap.get? handle = some object)
    (shape : object.payload = .classInstance self) :
    heap.lookup (.object handle) name = heap.instanceProperty object self name := by
  simp only [lookup, found, shape]

theorem lookup_space {space : NameSpace} (found : heap.get? handle = some object)
    (shape : object.payload = .nameSpace space) :
    heap.lookup (.object handle) name = ((space.fields.get? name).map .field).getD .notFound := by
  simp only [lookup, found, shape]
  cases space.fields.get? name <;> rfl

theorem lookup_class {self : ClassDef} (found : heap.get? handle = some object)
    (shape : object.payload = .classDef self) :
    heap.lookup (.object handle) name = heap.methodProperty handle name := by
  simp only [lookup, found, shape]

theorem lookup_plain (found : heap.get? handle = some object)
    (plain : object.payload.type ∉ [.classInstance, .nameSpace, .classDef]) :
    heap.lookup (.object handle) name = heap.dispatchProperty object name := by
  simp only [lookup, found]
  cases shape : object.payload with
  | classInstance | nameSpace | classDef => simp [shape, Payload.type] at plain
  | _ => rfl

theorem Has.lookup_eq {receiver : Value} (has : heap.Has name receiver property) :
    heap.lookup receiver name = property ∧ property ≠ .notFound := by
  refine ⟨?_, by cases has <;> simp⟩
  cases has with
  | ownField found shape held => simp [lookup_instance found shape, instanceProperty, held]
  | fieldDefault found shape missing ofClass inherited =>
    rw [← findFieldDefault_eq_iff] at inherited
    simp [lookup_instance found shape, instanceProperty, missing, ofClass, inherited]
  | @instanceMethod _ object _ _ value found shape missing ofClass fieldless inherited =>
    rw [← findFieldDefault_eq_iff] at fieldless
    have method : heap.dispatchProperty object name = .method value :=
      (dispatchProperty_eq_iff (by simp)).2 ⟨_, value, ofClass, rfl, inherited⟩
    simp [lookup_instance found shape, instanceProperty, missing, ofClass, fieldless, method]
  | spaceField found shape held => simp [lookup_space found shape, held]
  | classMethod found shape inherited =>
    rw [lookup_class found shape]
    exact (methodProperty_eq_iff (by simp)).2 ⟨_, rfl, inherited⟩
  | kindMethod found plain ofClass inherited =>
    rw [lookup_plain found plain]
    exact (dispatchProperty_eq_iff (by simp)).2 ⟨_, _, ofClass, rfl, inherited⟩

theorem has_of_instance {self : ClassInstance} (found : heap.get? handle = some object)
    (shape : object.payload = .classInstance self)
    (sought : heap.instanceProperty object self name ≠ .notFound) :
    heap.Has name (.object handle) (heap.instanceProperty object self name) := by
  cases held : self.fields.get? name with
  | some value =>
    simp only [instanceProperty, held]
    exact .ownField found shape held
  | none =>
    cases ofClass : object.header.dispatch with
    | none => simp [instanceProperty, held, ofClass, dispatchProperty] at sought
    | some start =>
      cases default : heap.findFieldDefault start name with
      | some value =>
        simp only [instanceProperty, held, ofClass, Option.bind_some, default]
        exact .fieldDefault found shape held ofClass (findFieldDefault_eq_iff.1 default)
      | none =>
        simp only [instanceProperty, held, ofClass, Option.bind_some, default] at sought ⊢
        obtain ⟨first, value, same, method, inherited⟩ := (dispatchProperty_eq_iff sought).1 rfl
        obtain rfl := Option.some.inj (ofClass.symm.trans same)
        rw [method]
        exact .instanceMethod found shape held ofClass (findFieldDefault_eq_iff.1 default) inherited

/-- The look-up gives what the receiver has. -/
theorem has_iff {receiver : Value} :
    heap.Has name receiver property ↔
      heap.lookup receiver name = property ∧ property ≠ .notFound := by
  refine ⟨Has.lookup_eq, ?_⟩
  rintro ⟨rfl, sought⟩
  cases receiver with
  | object handle =>
    cases found : heap.get? handle with
    | none => simp [lookup, found] at sought
    | some object =>
      cases shape : object.payload with
      | classInstance self =>
        rw [lookup_instance found shape] at sought ⊢
        exact has_of_instance found shape sought
      | nameSpace space =>
        rw [lookup_space found shape] at sought ⊢
        cases held : space.fields.get? name with
        | none => simp [held] at sought
        | some value => exact .spaceField found shape held
      | classDef self =>
        rw [lookup_class found shape] at sought ⊢
        obtain ⟨value, method, inherited⟩ := (methodProperty_eq_iff sought).1 rfl
        rw [method]
        exact .classMethod found shape inherited
      | _ =>
        have plain : object.payload.type ∉ [.classInstance, .nameSpace, .classDef] := by
          simp [shape, Payload.type]
        rw [lookup_plain found plain] at sought ⊢
        obtain ⟨start, value, ofClass, method, inherited⟩ := (dispatchProperty_eq_iff sought).1 rfl
        rw [method]
        exact .kindMethod found plain ofClass inherited
  | _ => exact absurd rfl sought

end

/-- **Nearest definitions.** On any heap, with parents that are not linked yet, gone, or linked into a
ring: the method, the field default and the initializer found from a class are those of the first class
that has one along the walk that nobody cuts, and none is found exactly where no class on that walk has
one. Where the walk meets no class twice, the ancestors are all of it. An instance has its own field,
else the nearest default on the whole walk, else the nearest method; a namespace has its own fields, a
class the methods on its walk, and any other object the methods on the walk of the class in its
header. -/
theorem members_nearest (heap : Heap) (name : NameHash) :
    (∀ start found, heap.findMethod start name = found ↔
      heap.Inherits (·.methods.get? name) start found) ∧
    (∀ start found, heap.findFieldDefault start name = found ↔
      heap.Inherits (·.fields.get? name) start found) ∧
    (∀ start found, heap.findInitializer start = found ↔
      heap.Inherits ClassDef.initializer? start found) ∧
    (∀ start,
      (∀ first second one again, heap.forebear? start first = some one →
        heap.forebear? start second = some again → one.1 = again.1 → first = second) →
      ∀ steps : Nat, (heap.ancestors start)[steps]? = heap.forebear? start steps) ∧
    ∀ receiver property, heap.Has name receiver property ↔
      heap.lookup receiver name = property ∧ property ≠ .notFound :=
  ⟨fun _ _ => findMethod_eq_iff, fun _ _ => findFieldDefault_eq_iff, fun _ _ => findInitializer_eq_iff,
    fun _ => getElem?_trail_of_distinct (heap.atMost_view? .classDef), fun _ _ => has_iff⟩

/-- Two classes that the host has made each other's parents, and an instance of the first; only the
second has a method. -/
def ringed : Heap :=
  let first : Handle := ⟨⟨0, 0⟩⟩
  let second : Handle := ⟨⟨1, 0⟩⟩
  let classes := (((ofConfig .default).newClass 1).heap.newClass 2).heap
  let linked := (classes.link first second).link second first
  let able := linked.update .classDef second fun self =>
    { self with methods := self.methods.insert 5 (.integer 7) }
  (able.newInstance first).heap

/-- The method is found across the ring, and a search for another one comes to an end. -/
theorem members_ringed :
    ringed.Has 5 (.object ⟨⟨2, 0⟩⟩) (.method (.integer 7)) ∧
      ringed.Inherits (·.methods.get? 6) ⟨⟨0, 0⟩⟩ none ∧
      ∀ property, ¬ ringed.Has 6 (.object ⟨⟨2, 0⟩⟩) property := by
  obtain ⟨-, -, -, -, able⟩ := members_nearest ringed 5
  obtain ⟨method, -, -, -, unable⟩ := members_nearest ringed 6
  refine ⟨(able _ _).2 (by decide), (method _ _).1 (by decide), fun property has => ?_⟩
  have nothing : ringed.lookup (.object ⟨⟨2, 0⟩⟩) 6 = .notFound := by decide
  obtain ⟨found, sought⟩ := (unable _ _).1 has
  exact sought (found.symm.trans nothing)

end Heap
end ScriptHeap
