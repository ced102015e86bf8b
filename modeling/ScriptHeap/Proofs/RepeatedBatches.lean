import ScriptHeap.Proofs.BatchCourse

/-! A batch that is repeated. Whatever could be linked has been linked the first time, in whatever order
the classes came up, and what was refused is refused again for the same reason; so there is nothing left
to do, and the same to report. -/
namespace ScriptHeap

namespace Heap

/-- Whether a class waits depends on the hash that it declares and on its link. -/
theorem isPending_eq (heap : Heap) (child : Handle) :
    heap.isPending child =
      ((heap.parentHash? child).any (· != 0) && (heap.parentOf? child).isNone) := by
  rw [isPending, parentHash?, parentOf?]
  cases heap.view? .classDef child <;> rfl

end Heap

namespace ClassRegistry
variable {registry : ClassRegistry} {heap last : Heap} {child parent : Handle}
variable {waiting : List Handle} {linked : List (Handle × Handle)}
variable {failed : List (Handle × HeapError)} {verdict : Except HeapError Unit}

/-- The refusal of a class that asks for a parent, as things stand. -/
def refusal? (registry : ClassRegistry) (heap : Heap) (child : Handle) :
    Option (Handle × HeapError) :=
  (registry.sought? heap child).bind fun parent =>
    match heap.mayLink child parent with
    | .error cause => some (child, cause)
    | .ok _ => none

/-- The classes that are to come up have no parents, unless they came up before and got the ones they
declare. -/
def Ready (registry : ClassRegistry) (heap : Heap) (waiting : List Handle) : Prop :=
  ∀ child ∈ waiting, ∀ parent, registry.sought? heap child = some parent →
    heap.parentOf? child = none ∨ heap.Stands child parent (.ok ())

theorem ready_pending (registry : ClassRegistry) (heap : Heap) :
    registry.Ready heap (registry.pending heap) := fun _ waits _ _ =>
  .inl (orphan_of_pending waits).2

namespace Ready
variable (ready : registry.Ready heap (child :: waiting))
include ready

theorem tail : registry.Ready heap waiting := fun other listed =>
  ready other (List.mem_cons_of_mem child listed)

/-- A link goes to a class without one, or is made over. -/
theorem free (sought : registry.sought? heap child = some parent) :
    heap.parentOf? child = none ∨ heap.parentOf? child = some parent := by
  rcases ready child List.mem_cons_self parent sought with orphan | stands
  · exact .inl orphan
  · exact .inr stands.carried

/-- A verdict goes on standing when a class that comes up is linked. -/
theorem stands_link (sought : registry.sought? heap child = some parent)
    (granted : heap.mayLink child parent = .ok ()) {other above : Handle}
    (asks : registry.sought? heap other = some above) (stands : heap.Stands other above verdict) :
    (heap.link child parent).Stands other above verdict := by
  apply stands.link granted (ready.free sought)
  rintro rfl
  exact Option.some.inj (sought.symm.trans asks)

theorem link (sought : registry.sought? heap child = some parent)
    (granted : heap.mayLink child parent = .ok ()) :
    registry.Ready (heap.link child parent) waiting := by
  intro other listed above asks
  rw [sought?_link] at asks
  by_cases same : other = child
  · subst same
    obtain rfl := Option.some.inj (sought.symm.trans asks)
    exact .inr (Heap.stands_link granted)
  · rcases ready.tail other listed above asks with orphan | stands
    · exact .inl (by rw [Heap.parentOf?_link, if_neg same, orphan])
    · exact .inr (ready.stands_link sought granted asks stands)

end Ready

namespace Course

/-- A verdict stands to the end. -/
theorem stands (course : registry.Course heap waiting linked failed last)
    (ready : registry.Ready heap waiting) (asks : registry.sought? heap child = some parent)
    (stands : heap.Stands child parent verdict) : last.Stands child parent verdict := by
  induction course with
  | done => exact stands
  | passed _ _ ih => exact ih ready.tail asks stands
  | refused _ _ _ ih => exact ih ready.tail asks stands
  | linked sought granted _ ih =>
    apply ih (ready.link sought granted)
    · rw [sought?_link, asks]
    · exact ready.stands_link sought granted asks stands

/-- At the end every class that came up has what it was granted, and the failures are what would be refused
now. -/
theorem verdicts (course : registry.Course heap waiting linked failed last)
    (ready : registry.Ready heap waiting) :
    (∀ child ∈ waiting, ∀ parent, registry.sought? heap child = some parent →
      ∃ verdict, last.Stands child parent verdict) ∧
    failed = waiting.filterMap (registry.refusal? last) := by
  induction course with
  | done => exact ⟨by simp, rfl⟩
  | @passed heap last child _ _ _ unknown rest ih =>
    obtain ⟨others, noted⟩ := ih ready.tail
    have silent : registry.refusal? last child = none := by
      rw [refusal?, rest.sought?_eq, unknown]
      rfl
    refine ⟨List.forall_mem_cons.mpr ⟨?_, others⟩, ?_⟩
    · intro parent asks
      rw [unknown] at asks
      cases asks
    · rw [List.filterMap_cons_none silent, noted]
  | @linked heap last child parent _ _ _ sought granted rest ih =>
    have later := ready.link sought granted
    obtain ⟨others, noted⟩ := ih later
    rw [sought?_link] at others
    have asks : registry.sought? (heap.link child parent) child = some parent := by
      rw [sought?_link, sought]
    have stands := rest.stands later asks (Heap.stands_link granted)
    have silent : registry.refusal? last child = none := by
      rw [refusal?, rest.sought?_eq, asks, Option.bind_some, stands.given]
    refine ⟨List.forall_mem_cons.mpr ⟨?_, others⟩, ?_⟩
    · intro above same
      obtain rfl := Option.some.inj (sought.symm.trans same)
      exact ⟨_, stands⟩
    · rw [List.filterMap_cons_none silent, noted]
  | @refused heap last child parent cause _ _ _ sought refusal rest ih =>
    obtain ⟨others, noted⟩ := ih ready.tail
    -- it was not linked before, or it would not be refused now
    have orphan : heap.parentOf? child = none := by
      rcases ready child List.mem_cons_self parent sought with orphan | granted
      · exact orphan
      · rw [granted.given] at refusal
        cases refusal
    have stood : heap.Stands child parent (.error cause) := ⟨refusal, orphan⟩
    have stands := rest.stands ready.tail sought stood
    have told : registry.refusal? last child = some (child, cause) := by
      rw [refusal?, rest.sought?_eq, sought, Option.bind_some, stands.given]
    refine ⟨List.forall_mem_cons.mpr ⟨?_, others⟩, ?_⟩
    · intro above same
      obtain rfl := Option.some.inj (sought.symm.trans same)
      exact ⟨_, stands⟩
    · rw [List.filterMap_cons_some told, noted]

/-- Where all that ask are refused, nothing is done but noting it. -/
theorem all_refused (course : registry.Course heap waiting linked failed last)
    (refused : ∀ child ∈ waiting, ∀ parent, registry.sought? heap child = some parent →
      ∃ cause, heap.mayLink child parent = .error cause) :
    linked = [] ∧ failed = waiting.filterMap (registry.refusal? heap) ∧ last = heap := by
  induction course with
  | done => exact ⟨rfl, rfl, rfl⟩
  | passed unknown _ ih =>
    obtain ⟨rfl, rfl, rfl⟩ := ih fun other listed => refused other (List.mem_cons_of_mem _ listed)
    refine ⟨rfl, (List.filterMap_cons_none ?_).symm, rfl⟩
    rw [refusal?, unknown]
    rfl
  | linked sought granted _ _ =>
    obtain ⟨cause, refusal⟩ := refused _ List.mem_cons_self _ sought
    rw [granted] at refusal
    cases refusal
  | refused sought refusal _ ih =>
    obtain ⟨rfl, rfl, rfl⟩ := ih fun other listed => refused other (List.mem_cons_of_mem _ listed)
    refine ⟨rfl, (List.filterMap_cons_some ?_).symm, rfl⟩
    rw [refusal?, sought, Option.bind_some, refusal]

theorem pending_eq (course : registry.Course heap waiting linked failed last) :
    registry.pending last = (registry.pending heap).filter last.isPending := by
  rw [pending, pending, List.filter_filter]
  apply List.filter_congr
  intro child _
  rw [course.heap_eq, Heap.isPending_linkAll]
  cases heap.isPending child <;> simp

/-- What waits no more is not refused. -/
theorem refusal?_eq_none
    (course : registry.Course heap (registry.pending heap) linked failed last)
    (waits : child ∈ registry.pending heap) (settled : last.isPending child = false) :
    registry.refusal? last child = none := by
  cases asks : registry.sought? last child with
  | none =>
    rw [refusal?, asks]
    rfl
  | some parent =>
    have asked := asks
    rw [course.sought?_eq] at asked
    obtain ⟨verdict, given, carried⟩ :=
      (course.verdicts (registry.ready_pending heap)).1 child waits parent asked
    cases verdict with
    | ok => rw [refusal?, asks, Option.bind_some, given]
    | error cause =>
      have declared := (List.mem_filter.mp waits).2
      rw [Heap.isPending_eq, Bool.and_eq_true] at declared
      rw [Heap.isPending_eq, carried, course.heap_eq, Heap.parentHash?_linkAll, declared.1] at settled
      cases settled

end Course
end ClassRegistry

/-- **Batches are idempotent.** On any heap and with any registry, dead classes and parents, changed hashes,
cycles and classes under several hashes included, a batch right after a batch links nothing, fails for the
same classes and the same reasons in the same order, and leaves the heap as it is. -/
theorem resolvePending_again (heap : Heap) (registry : ClassRegistry) :
    ∃ report : ResolveReport, (registry.resolvePending heap).outcome = .ok report ∧
      (registry.resolvePending (registry.resolvePending heap).heap).outcome =
        .ok ⟨0, report.failed⟩ ∧
      (registry.resolvePending (registry.resolvePending heap).heap).heap =
        (registry.resolvePending heap).heap := by
  obtain ⟨linked, failed, course, outcome, -⟩ := registry.resolvePending_course heap
  obtain ⟨linked', failed', course', outcome', -⟩ :=
    registry.resolvePending_course (registry.resolvePending heap).heap
  generalize (registry.resolvePending heap).heap = last at *
  obtain ⟨stands, noted⟩ := course.verdicts (registry.ready_pending heap)
  have waited (child : Handle) (waits : child ∈ registry.pending last) :
      child ∈ registry.pending heap := by
    rw [course.heap_eq, registry.pending_linkAll] at waits
    exact List.mem_of_mem_filter waits
  have refused : ∀ child ∈ registry.pending last, ∀ parent,
      registry.sought? last child = some parent → ∃ cause, last.mayLink child parent = .error cause := by
    intro child waits parent asks
    rw [course.sought?_eq] at asks
    obtain ⟨verdict, given, carried⟩ := stands child (waited child waits) parent asks
    rw [(ClassRegistry.orphan_of_pending waits).2] at carried
    cases verdict with
    | ok => cases carried
    | error cause => exact ⟨cause, given⟩
  obtain ⟨rfl, noted', same⟩ := course'.all_refused refused
  refine ⟨_, outcome, ?_, same⟩
  rw [outcome', noted', noted, List.length_nil, course.pending_eq, List.filterMap_filter]
  congr 2
  apply List.filterMap_congr
  intro child waits
  split
  · rfl
  · next linked => exact (course.refusal?_eq_none waits (Bool.eq_false_of_not_eq_true linked)).symm

end ScriptHeap
