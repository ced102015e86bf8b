import ScriptHeap.Proofs.RepeatedBatches

/-! Late linking only adds members. A class that gets its parent late passes it on to all that descend
from it, in rings and under parents that are gone too. Every line goes on as it went and may go further,
so what was found along it is found again; only a method of an instance may give way to a field default,
since defaults are looked for along the whole line before any method is. -/
namespace ScriptHeap

/-- A class as it was, or with a parent where it had none. -/
structure ClassDef.Gains (one again : ClassDef) : Prop where
  alike : again = { one with parent := again.parent }
  kept : one.parent = none ∨ again.parent = one.parent

namespace ClassDef.Gains
variable {one again third : ClassDef}

theorem refl (one : ClassDef) : one.Gains one := ⟨rfl, .inr rfl⟩

theorem trans (first : one.Gains again) (second : again.Gains third) : one.Gains third := by
  refine ⟨?_, ?_⟩
  · rw [second.alike, first.alike]
  · rcases first.kept with orphan | kept
    · exact .inl orphan
    · exact second.kept.imp (kept.symm.trans ·) (·.trans kept)

theorem methods (gains : one.Gains again) : again.methods = one.methods := by rw [gains.alike]

theorem fields (gains : one.Gains again) : again.fields = one.fields := by rw [gains.alike]

theorem initializer? (gains : one.Gains again) : again.initializer? = one.initializer? := by
  rw [gains.alike]
  rfl

theorem parent (gains : one.Gains again) {after : Handle} (linked : one.parent = some after) :
    again.parent = some after := by
  rcases gains.kept with orphan | kept
  · rw [orphan] at linked
    cases linked
  · exact kept.trans linked

end ClassDef.Gains

namespace Heap
variable {heap middle later : Heap} {child parent start : Handle} {name : NameHash} {value : Value}

/-- Classes may have got parents that had none, and all other objects are what they were. -/
structure Gains (heap later : Heap) : Prop where
  classes : ∀ handle self, heap.view? .classDef handle = some self →
    ∃ again, later.view? .classDef handle = some again ∧ self.Gains again
  others : ∀ handle object, heap.get? handle = some object → object.payload.type ≠ .classDef →
    later.get? handle = some object

/-! ## Links made late -/

theorem Gains.refl (heap : Heap) : heap.Gains heap :=
  ⟨fun _ self seen => ⟨self, seen, .refl self⟩, fun _ _ found _ => found⟩

theorem Gains.trans (first : heap.Gains middle) (second : middle.Gains later) : heap.Gains later := by
  constructor
  · intro handle self seen
    obtain ⟨again, seen', more⟩ := first.classes handle self seen
    obtain ⟨third, seen'', still⟩ := second.classes handle again seen'
    exact ⟨third, seen'', more.trans still⟩
  · intro handle object found apart
    exact second.others handle object (first.others handle object found apart) apart

/-- Linking a class that has no parent, or that very one. -/
theorem gains_link (free : heap.parentOf? child = none ∨ heap.parentOf? child = some parent) :
    heap.Gains (heap.link child parent) := by
  constructor
  · intro handle self seen
    rw [link, view?_update]
    split
    · next same =>
      subst same
      refine ⟨{ self with parent := some parent }, by rw [seen]; rfl, rfl, ?_⟩
      rw [parentOf?, seen] at free
      exact free.imp id Eq.symm
    · exact ⟨self, seen, .refl self⟩
  · intro handle object found apart
    rw [link, update, get?_modify]
    split
    · next same =>
      subst same
      have unseen : Variant.classDef.project object.payload = none := by
        by_contra seen
        obtain ⟨self, seen⟩ := Option.ne_none_iff_exists'.mp seen
        exact apart (Variant.type_of_project _ seen)
      rw [found, Option.map_some, Variant.modify, unseen]
    · exact found

theorem gains_resolveParent (orphan : heap.parentOf? child = none) :
    heap.Gains (heap.resolveParent child parent).heap := by
  rw [resolveParent]
  split
  · exact .refl heap
  · exact gains_link (.inl orphan)

end Heap

/-- A class that comes up in a batch has no parent, or comes up again and got this very one before. -/
theorem ClassRegistry.Course.gains {registry : ClassRegistry} {heap last : Heap} {waiting : List Handle}
    {linked : List (Handle × Handle)} {failed : List (Handle × HeapError)}
    (course : registry.Course heap waiting linked failed last) (ready : registry.Ready heap waiting) :
    heap.Gains last := by
  induction course with
  | done => exact .refl _
  | passed _ _ ih => exact ih ready.tail
  | refused _ _ _ ih => exact ih ready.tail
  | linked sought granted _ ih =>
    exact (Heap.gains_link (ready.free sought)).trans (ih (ready.link sought granted))

namespace Heap
variable {heap later : Heap} {start handle : Handle} {name : NameHash} {value : Value}

theorem gains_resolvePending (registry : ClassRegistry) (heap : Heap) :
    heap.Gains (registry.resolvePending heap).heap := by
  obtain ⟨linked, failed, course, -⟩ := registry.resolvePending_course heap
  exact course.gains (registry.ready_pending heap)

/-! ## Members found again -/

namespace Gains

/-- What the nearest class in line gave it gives again, however much longer the line has become. -/
theorem inherits (gains : heap.Gains later) {gives : ClassDef → Option Value}
    (same : ∀ one again : ClassDef, one.Gains again → gives again = gives one)
    (found : heap.Inherits gives start (some value)) : later.Inherits gives start (some value) :=
  firstAlong_of_kept gains.classes (fun _ _ _ more => more.parent) same found

theorem inheritsMethod (gains : heap.Gains later)
    (found : heap.Inherits (·.methods.get? name) start (some value)) :
    later.Inherits (·.methods.get? name) start (some value) :=
  gains.inherits (fun _ _ more => congrArg (·.get? name) more.methods) found

theorem inheritsField (gains : heap.Gains later)
    (found : heap.Inherits (·.fields.get? name) start (some value)) :
    later.Inherits (·.fields.get? name) start (some value) :=
  gains.inherits (fun _ _ more => congrArg (·.get? name) more.fields) found

theorem inheritsInitializer (gains : heap.Gains later)
    (found : heap.Inherits ClassDef.initializer? start (some value)) :
    later.Inherits ClassDef.initializer? start (some value) :=
  gains.inherits (fun _ _ more => more.initializer?) found

/-- A default that is found where there was none comes from a class that has newly come into line. -/
theorem newDefault (gains : heap.Gains later)
    (nothing : heap.Inherits (·.fields.get? name) start none)
    (found : later.Inherits (·.fields.get? name) start (some value)) :
    ∃ ancestor ∈ later.ancestors start, ancestor.2.fields.get? name = some value ∧
      ancestor.1 ∉ (heap.ancestors start).map Prod.fst := by
  obtain ⟨steps, ancestor, met, given, apart⟩ :=
    newly_met gains.classes (fun _ _ more => congrArg (·.get? name) more.fields) nothing found
  refine ⟨ancestor, mem_ancestors_iff.mpr ⟨steps, met⟩, given, fun listed => ?_⟩
  obtain ⟨one, before, same⟩ := List.mem_map.mp listed
  obtain ⟨fewer, passed⟩ := mem_ancestors_iff.mp before
  exact apart fewer one passed same

/-- A class is a class still. -/
theorem classAt (gains : heap.Gains later) {object : Object} {definition : ClassDef}
    (found : heap.get? handle = some object) (shape : object.payload = .classDef definition) :
    ∃ again definition', later.get? handle = some again ∧ again.payload = .classDef definition' := by
  have seen : heap.view? .classDef handle = some definition := by
    rw [view?, found, Option.bind_some, shape]
    rfl
  obtain ⟨definition', seen', -⟩ := gains.classes handle definition seen
  obtain ⟨again, found', projected⟩ := Option.bind_eq_some_iff.mp seen'
  exact ⟨again, definition', found', (Variant.inject_of_project _ _ _ projected).symm⟩

end Gains

/-- A method of an instance gives way to the default that a class newly in line has for the field. -/
inductive Overtaken (heap later : Heap) (name : NameHash) : Value → Prop where
  | byDefault {handle start : Handle} {object : Object} {self : ClassInstance} {default : Value}
      {ancestor : Handle × ClassDef} (found : heap.get? handle = some object)
      (shape : object.payload = .classInstance self) (ofClass : object.header.dispatch = some start)
      (inLine : ancestor ∈ later.ancestors start) (given : ancestor.2.fields.get? name = some default)
      (newly : ancestor.1 ∉ (heap.ancestors start).map Prod.fst)
      (shown : later.lookup (.object handle) name = .field default) :
      Overtaken heap later name (.object handle)

/-- What was found in a heap is found in a later one. -/
structure OnlyAdds (heap later : Heap) : Prop where
  method : ∀ start name value, heap.findMethod start name = some value →
    later.findMethod start name = some value
  fieldDefault : ∀ start name value, heap.findFieldDefault start name = some value →
    later.findFieldDefault start name = some value
  initializer : ∀ start value, heap.findInitializer start = some value →
    later.findInitializer start = some value
  field : ∀ receiver name value, heap.lookup receiver name = .field value →
    later.lookup receiver name = .field value
  found : ∀ receiver name, heap.lookup receiver name ≠ .notFound →
    later.lookup receiver name ≠ .notFound
  methodOf : ∀ receiver name value, heap.lookup receiver name = .method value →
    later.lookup receiver name = .method value ∨ heap.Overtaken later name receiver

namespace Gains
variable {receiver : Value}

theorem lookup_field (gains : heap.Gains later) (was : heap.lookup receiver name = .field value) :
    later.lookup receiver name = .field value := by
  cases has_iff.mpr ⟨was, by simp⟩ with
  | ownField found shape held =>
    have there := gains.others _ _ found (by simp [shape, Payload.type])
    exact (Has.ownField there shape held).lookup_eq.1
  | fieldDefault found shape missing ofClass inherited =>
    have there := gains.others _ _ found (by simp [shape, Payload.type])
    exact (Has.fieldDefault there shape missing ofClass (gains.inheritsField inherited)).lookup_eq.1
  | spaceField found shape held =>
    have there := gains.others _ _ found (by simp [shape, Payload.type])
    exact (Has.spaceField there shape held).lookup_eq.1

theorem lookup_method (gains : heap.Gains later) (was : heap.lookup receiver name = .method value) :
    later.lookup receiver name = .method value ∨ heap.Overtaken later name receiver := by
  cases has_iff.mpr ⟨was, by simp⟩ with
  | @instanceMethod handle object self start _ found shape missing ofClass fieldless inherited =>
    have there := gains.others _ _ found (by simp [shape, Payload.type])
    have inherited' := gains.inheritsMethod inherited
    cases default : later.findFieldDefault start name with
    | none =>
      rw [findFieldDefault_eq_iff] at default
      exact .inl (Has.instanceMethod there shape missing ofClass default inherited').lookup_eq.1
    | some value =>
      rw [findFieldDefault_eq_iff] at default
      obtain ⟨ancestor, inLine, given, newly⟩ := gains.newDefault fieldless default
      exact .inr (.byDefault found shape ofClass inLine given newly
        (Has.fieldDefault there shape missing ofClass default).lookup_eq.1)
  | classMethod found shape inherited =>
    obtain ⟨again, definition', there, shape'⟩ := gains.classAt found shape
    exact .inl (Has.classMethod there shape' (gains.inheritsMethod inherited)).lookup_eq.1
  | kindMethod found plain ofClass inherited =>
    have there := gains.others _ _ found fun same => plain (by simp [same])
    exact .inl (Has.kindMethod there plain ofClass (gains.inheritsMethod inherited)).lookup_eq.1

/-- Where classes have only got parents, members have only been added. -/
theorem onlyAdds (gains : heap.Gains later) : heap.OnlyAdds later where
  method start name value found := by
    rw [findMethod_eq_iff] at found ⊢
    exact gains.inheritsMethod found
  fieldDefault start name value found := by
    rw [findFieldDefault_eq_iff] at found ⊢
    exact gains.inheritsField found
  initializer start value found := by
    rw [findInitializer_eq_iff] at found ⊢
    exact gains.inheritsInitializer found
  field receiver name value := gains.lookup_field
  found receiver name found := by
    cases was : heap.lookup receiver name with
    | notFound => exact absurd was found
    | field value => simp [gains.lookup_field was]
    | method value =>
      rcases gains.lookup_method was with kept | overtaken
      · simp [kept]
      · cases overtaken with
        | byDefault _ _ _ _ _ _ shown => simp [shown]
  methodOf receiver name value := gains.lookup_method

end Gains
end Heap

/-- **Late linking.** On any heap, with parents that are gone or in a ring: when a class without a parent is
linked to one, and when a batch is linked, every method, field default and initializer that was found from
any class is found again, and the same. What a receiver has under a name stays if it is a field, and is
never lost; a method stays a method, unless the receiver is an instance and a class that has newly come into
its line has a default for a field of that name. -/
theorem lateLinking_onlyAdds :
    (∀ (heap : Heap) (child parent : Handle), heap.parentOf? child = none →
      heap.OnlyAdds (heap.resolveParent child parent).heap) ∧
    ∀ (heap : Heap) (registry : ClassRegistry), heap.OnlyAdds (registry.resolvePending heap).heap :=
  ⟨fun _ _ _ orphan => (Heap.gains_resolveParent orphan).onlyAdds,
    fun heap registry => (Heap.gains_resolvePending registry heap).onlyAdds⟩

/-- An instance of a class that has a method and declares a parent, and the parent, which has a field default
of that name and another method. -/
def expectant : Heap :=
  let child : Handle := ⟨⟨0, 0⟩⟩
  let parent : Handle := ⟨⟨1, 0⟩⟩
  (History.run .default
    [.create (.classOf 1), .create (.classOf 2), .create (.instanceOf child),
      .edit .classDef child fun (self : ClassDef) =>
        { self with parentHash := 2, methods := self.methods.insert 5 (.integer 7) },
      .edit .classDef parent fun (self : ClassDef) =>
        { self with
          fields := self.fields.insert 5 (.integer 9)
          methods := self.methods.insert 6 (.integer 8) }]).heap

/-- The method of the instance gives way to the default; the class keeps it, and gets the other one. -/
theorem lateLinking_expectant :
    let later := (expectant.resolveParent ⟨⟨0, 0⟩⟩ ⟨⟨1, 0⟩⟩).heap
    expectant.parentOf? ⟨⟨0, 0⟩⟩ = none ∧
      (expectant.resolveParent ⟨⟨0, 0⟩⟩ ⟨⟨1, 0⟩⟩).outcome = .ok () ∧
      expectant.lookup (.object ⟨⟨2, 0⟩⟩) 5 = .method (.integer 7) ∧
      expectant.Overtaken later 5 (.object ⟨⟨2, 0⟩⟩) ∧
      later.findMethod ⟨⟨0, 0⟩⟩ 5 = some (.integer 7) ∧
      later.lookup (.object ⟨⟨2, 0⟩⟩) 6 = .method (.integer 8) := by
  intro later
  have orphan : expectant.parentOf? ⟨⟨0, 0⟩⟩ = none := by decide
  have onlyAdds : expectant.OnlyAdds later := lateLinking_onlyAdds.1 expectant _ _ orphan
  have before : expectant.lookup (.object ⟨⟨2, 0⟩⟩) 5 = .method (.integer 7) := by decide
  have after : later.lookup (.object ⟨⟨2, 0⟩⟩) 5 = .field (.integer 9) := by decide
  refine ⟨orphan, by decide, before, ?_, onlyAdds.method _ _ _ (by decide), by decide⟩
  rcases onlyAdds.methodOf _ _ _ before with kept | overtaken
  · rw [after] at kept
    cases kept
  · exact overtaken

end ScriptHeap
