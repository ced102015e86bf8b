import ScriptHeap.Proofs.BatchLinking

/-! The course of a batch. The waiting classes come up one after the other, in a heap that the links made
before have changed: each is passed over, linked, or refused, as the heap of that moment has it. A verdict
once given stands to the end of the batch, since links only add ways from class to class, and a way that
would lead round is not added. -/
namespace ScriptHeap
open Relation

namespace Heap
variable {heap : Heap} {child parent one other : Handle} {cause : HeapError}

/-! ## Whether a class may be linked -/

/-- A class may be linked to a parent, as things stand: both are live classes, the parent has the declared
hash, and no links lead from the parent to the class. -/
def Admits (heap : Heap) (child parent : Handle) : Prop :=
  ∃ self above : ClassDef, heap.view? .classDef child = some self ∧
    heap.view? .classDef parent = some above ∧ self.parentHash = above.hash ∧
    ¬ ReflTransGen heap.ChildOf parent child

/-- Why a class may not be linked to a parent, as things stand. -/
inductive Bars (heap : Heap) (child parent : Handle) : HeapError → Prop where
  | gone (dead : heap.get? parent = none) : Bars heap child parent (.invalidHandle parent)
  | unfit {object : Object} (found : heap.get? parent = some object)
      (unseen : heap.view? .classDef parent = none) :
      Bars heap child parent (.wrongObjectType .classDef object.header.type)
  | renamed {self above : ClassDef} (seen : heap.view? .classDef child = some self)
      (met : heap.view? .classDef parent = some above) (differ : self.parentHash ≠ above.hash) :
      Bars heap child parent (.parentHashMismatch self.parentHash above.hash)
  | descends {self above : ClassDef} (seen : heap.view? .classDef child = some self)
      (met : heap.view? .classDef parent = some above) (agree : self.parentHash = above.hash)
      (way : ReflTransGen heap.ChildOf parent child) : Bars heap child parent .inheritanceCycle

/-- A live class may be linked, or there is a reason why not. -/
theorem mayLink_cases {self : ClassDef} (seen : heap.view? .classDef child = some self)
    (parent : Handle) :
    (heap.mayLink child parent = .ok () ∧ heap.Admits child parent) ∨
      ∃ cause, heap.mayLink child parent = .error cause ∧ heap.Bars child parent cause := by
  have first := expect_eq_ok_iff.mpr seen
  cases met : heap.view? .classDef parent with
  | some above =>
    by_cases agree : self.parentHash = above.hash
    · have known : (heap.view? .classDef parent).isSome = true := by rw [met]; rfl
      rw [mayLink_eq seen met agree.symm]
      by_cases descends : (heap.ancestors parent).any (·.1 == child) = true
      · exact .inr ⟨_, if_pos descends,
          .descends seen met agree ((any_ancestors_iff known).mp descends)⟩
      · exact .inl ⟨if_neg descends, self, above, seen, met, agree,
          fun way => descends ((any_ancestors_iff known).mpr way)⟩
    · refine .inr ⟨_, ?_, .renamed seen met agree⟩
      rw [mayLink, first, expect_eq_ok_iff.mpr met]
      exact if_pos agree
  | none =>
    cases found : heap.get? parent with
    | none =>
      refine .inr ⟨_, ?_, .gone found⟩
      rw [mayLink, first, expect, require, found]
    | some object =>
      refine .inr ⟨_, ?_, .unfit found met⟩
      have unseen : Variant.classDef.project object.payload = none := by
        rwa [view?, found] at met
      rw [mayLink, first, expect, require, found]
      simp only [unseen]
      rfl

theorem fits_of_mayLink (granted : heap.mayLink child parent = .ok ()) :
    heap.fits child parent = .ok () := by
  cases fit : heap.fits child parent with
  | ok => rfl
  | error cause =>
    rw [mayLink_of_misfit fit] at granted
    cases granted

/-! ## One link more -/

/-- Linking a class that has no parent, or that very one, takes no link away. -/
theorem ChildOf.link (linked : heap.ChildOf child parent)
    (free : heap.parentOf? one = none ∨ heap.parentOf? one = some other) :
    (heap.link one other).ChildOf child parent := by
  obtain ⟨leads, alive⟩ := linked
  refine ⟨?_, by rwa [isSome_view?_link]⟩
  rw [parentOf?_link]
  split
  · next same =>
    subst same
    rw [leads] at free
    obtain ⟨self, seen, -⟩ := Option.bind_eq_some_iff.mp leads
    rw [seen, Option.map_some]
    exact (free.resolve_left (Option.some_ne_none parent)).symm
  · exact leads

/-- What is refused stays refused: what is in the way of a link does not depend on links, and no way from
class to class is lost. -/
theorem refused_link (refused : heap.mayLink child parent = .error cause)
    (free : heap.parentOf? one = none ∨ heap.parentOf? one = some other) :
    (heap.link one other).mayLink child parent = .error cause := by
  cases fit : heap.fits child parent with
  | error misfit =>
    rw [mayLink_of_misfit fit] at refused
    rw [← refused]
    exact mayLink_of_misfit ((heap.fits_link one other).trans fit)
  | ok =>
    have fit' := (heap.fits_link one other).trans fit
    rcases mayLink_of_fits fit with ⟨way, cycle⟩ | ⟨-, granted⟩
    · have longer : ReflTransGen (heap.link one other).ChildOf parent child :=
        ReflTransGen.mono (fun _ _ linked => ChildOf.link linked free) _ _ way
      rcases mayLink_of_fits fit' with ⟨-, cycle'⟩ | ⟨apart, -⟩
      · rw [cycle', ← refused, cycle]
      · exact absurd longer apart
    · rw [granted] at refused
      cases refused

/-- A link that was allowed and has been made would be allowed again: a way back could only come of a link
that is not allowed itself. -/
theorem granted_link (granted : heap.mayLink child parent = .ok ())
    (made : heap.mayLink one other = .ok ())
    (linked : heap.ChildOf child parent ∨ child = one ∧ parent = other) :
    (heap.link one other).mayLink child parent = .ok () := by
  obtain ⟨-, -, apart⟩ := of_mayLink granted
  obtain ⟨-, -, apart'⟩ := of_mayLink made
  have fit := (heap.fits_link one other).trans (fits_of_mayLink granted)
  rcases mayLink_of_fits fit with ⟨way, -⟩ | ⟨-, again⟩
  · exfalso
    rcases reflTransGen_iff_eq_or_transGen.mp way with same | way
    · exact apart (same ▸ .refl)
    · rcases transGen_with_link (fun _ _ => childOf_of_link) way with old | ⟨first, second⟩
      · exact apart old.to_reflTransGen
      · rcases linked with link | ⟨-, rfl⟩
        · exact apart' ((second.tail link).trans first)
        · exact apart second
  · exact again

/-- A class that asks for a parent has its verdict, and it has been carried out: the class is linked, or has
no parent. -/
structure Stands (heap : Heap) (child parent : Handle) (verdict : Except HeapError Unit) : Prop where
  given : heap.mayLink child parent = verdict
  carried : heap.parentOf? child = verdict.toOption.map fun _ => parent

/-- A verdict that stands goes on standing when another link is made, or the same one again. -/
theorem Stands.link {verdict : Except HeapError Unit} (stands : heap.Stands child parent verdict)
    (made : heap.mayLink one other = .ok ())
    (free : heap.parentOf? one = none ∨ heap.parentOf? one = some other)
    (alike : one = child → other = parent) : (heap.link one other).Stands child parent verdict := by
  obtain ⟨given, carried⟩ := stands
  cases verdict with
  | error cause =>
    have different : child ≠ one := by
      rintro rfl
      rw [alike rfl, given] at made
      cases made
    exact ⟨refused_link given free, by rw [parentOf?_link, if_neg different, carried]⟩
  | ok =>
    obtain ⟨-, alive, -⟩ := of_mayLink given
    have linked : heap.ChildOf child parent := ⟨carried, alive⟩
    exact ⟨granted_link given made (.inl linked), (linked.link free).1⟩

/-- A class that has just been linked. -/
theorem stands_link (granted : heap.mayLink child parent = .ok ()) :
    (heap.link child parent).Stands child parent (.ok ()) := by
  obtain ⟨alive, -, -⟩ := of_mayLink granted
  obtain ⟨self, seen⟩ := Option.isSome_iff_exists.mp alive
  refine ⟨granted_link granted granted (.inr ⟨rfl, rfl⟩), ?_⟩
  rw [parentOf?_link, if_pos rfl, seen]
  rfl

/-! ## Waiting -/

/-- A class that is linked waits no more, and all others wait as they did. -/
theorem isPending_link (heap : Heap) (one other handle : Handle) :
    (heap.link one other).isPending handle = (heap.isPending handle && decide (handle ≠ one)) := by
  rw [isPending, isPending, link, view?_update]
  by_cases same : handle = one
  · subst same
    rw [if_pos rfl]
    cases heap.view? .classDef handle with
    | none => rfl
    | some self => simp [ClassDef.isPending]
  · simp [same]

theorem isPending_linkAll (heap : Heap) (joined : List (Handle × Handle)) (handle : Handle) :
    (heap.linkAll joined).isPending handle =
      (heap.isPending handle && decide (handle ∉ joined.map Prod.fst)) := by
  induction joined generalizing heap with
  | nil => simp [linkAll]
  | cons link joined ih =>
    rw [linkAll, List.foldl_cons, ← linkAll, ih, isPending_link]
    simp only [List.map_cons, List.mem_cons, not_or, Bool.decide_and, Bool.and_assoc]

end Heap

/-! ## The course of a batch -/

namespace ClassRegistry
variable {registry : ClassRegistry} {heap last : Heap} {child parent : Handle}
variable {waiting front later : List Handle} {linked : List (Handle × Handle)}
variable {failed : List (Handle × HeapError)}

/-- With these classes waiting, a batch leads from one heap to another, makes these links and notes these
refusals. -/
inductive Course (registry : ClassRegistry) :
    Heap → List Handle → List (Handle × Handle) → List (Handle × HeapError) → Heap → Prop where
  | done {heap : Heap} : Course registry heap [] [] [] heap
  | passed {heap last : Heap} {child : Handle} {waiting : List Handle}
      {linked : List (Handle × Handle)} {failed : List (Handle × HeapError)}
      (unknown : registry.sought? heap child = none)
      (rest : Course registry heap waiting linked failed last) :
      Course registry heap (child :: waiting) linked failed last
  | linked {heap last : Heap} {child parent : Handle} {waiting : List Handle}
      {linked : List (Handle × Handle)} {failed : List (Handle × HeapError)}
      (sought : registry.sought? heap child = some parent)
      (granted : heap.mayLink child parent = .ok ())
      (rest : Course registry (heap.link child parent) waiting linked failed last) :
      Course registry heap (child :: waiting) ((child, parent) :: linked) failed last
  | refused {heap last : Heap} {child parent : Handle} {cause : HeapError} {waiting : List Handle}
      {linked : List (Handle × Handle)} {failed : List (Handle × HeapError)}
      (sought : registry.sought? heap child = some parent)
      (refusal : heap.mayLink child parent = .error cause)
      (rest : Course registry heap waiting linked failed last) :
      Course registry heap (child :: waiting) linked ((child, cause) :: failed) last

/-- What a class declares and what is registered do not depend on links. -/
theorem sought?_link (registry : ClassRegistry) (heap : Heap) (one other : Handle) :
    registry.sought? (heap.link one other) = registry.sought? heap := by
  funext child
  rw [sought?, sought?, Heap.parentHash?_link]

theorem sought?_linkAll (registry : ClassRegistry) (heap : Heap) (joined : List (Handle × Handle)) :
    registry.sought? (heap.linkAll joined) = registry.sought? heap := by
  funext child
  rw [sought?, sought?, Heap.parentHash?_linkAll]

/-- What is pending is what was pending and has not been linked. -/
theorem pending_linkAll (registry : ClassRegistry) (heap : Heap) (joined : List (Handle × Handle)) :
    registry.pending (heap.linkAll joined) =
      (registry.pending heap).filter fun child => child ∉ joined.map Prod.fst := by
  rw [pending, pending, List.filter_filter]
  apply List.filter_congr
  intro child _
  rw [Heap.isPending_linkAll, Bool.and_comm]

end ClassRegistry

/-- The class for which an attempt to link it is told of. -/
def Notice.attempted? : Notice → Option Handle
  | .logged (.parentResolved child _ _) | .logged (.resolutionFailed child _ _) => some child
  | _ => none

/-- The classes for which attempts were told of. -/
def attempts (told : List Notice) : List Handle := told.filterMap Notice.attempted?

theorem attempts_append (earlier later : List Notice) :
    attempts (earlier ++ later) = attempts earlier ++ attempts later :=
  List.filterMap_append

namespace ClassRegistry
variable {registry : ClassRegistry} {heap last : Heap} {child parent : Handle}
variable {waiting front later : List Handle} {linked : List (Handle × Handle)}
variable {failed : List (Handle × HeapError)}

/-- The waiting classes that a batch attempts: those whose declared parents are registered. -/
def attempted (registry : ClassRegistry) (heap : Heap) (waiting : List Handle) : List Handle :=
  waiting.filter fun child => (registry.sought? heap child).isSome

/-- What is done for a class that comes up. -/
theorem attempt_cases (registry : ClassRegistry) (batch : Batch) (child : Handle) :
    (registry.sought? batch.heap child = none ∧ registry.attempt batch child = batch) ∨
    ∃ parent, registry.sought? batch.heap child = some parent ∧
      ((batch.heap.mayLink child parent = .ok () ∧ ∃ hash,
          registry.attempt batch child =
            ⟨batch.heap.link child parent, ⟨batch.report.linked + 1, batch.report.failed⟩,
              batch.notices ++ [.logged (.parentResolved child parent hash)]⟩) ∨
        ∃ cause, batch.heap.mayLink child parent = .error cause ∧
          registry.attempt batch child =
            ⟨batch.heap, ⟨batch.report.linked, batch.report.failed ++ [(child, cause)]⟩,
              batch.notices ++ [.logged (.resolutionFailed child parent cause)]⟩) := by
  rw [attempt, ← sought?]
  cases registry.sought? batch.heap child with
  | none => exact .inl ⟨rfl, rfl⟩
  | some parent =>
    refine .inr ⟨parent, rfl, ?_⟩
    cases verdict : batch.heap.mayLink child parent with
    | error cause =>
      refine .inr ⟨cause, rfl, ?_⟩
      simp only [verdict]
    | ok =>
      refine .inl ⟨rfl, ?_⟩
      simp only [verdict, Heap.resolveParent]
      exact ⟨_, rfl⟩

/-- Every batch has a course, and reports the links made and the refusals on it. -/
theorem exists_course (registry : ClassRegistry) (batch : Batch) (waiting : List Handle) :
    ∃ linked failed,
      registry.Course batch.heap waiting linked failed (waiting.foldl registry.attempt batch).heap ∧
      (waiting.foldl registry.attempt batch).report =
        ⟨batch.report.linked + linked.length, batch.report.failed ++ failed⟩ ∧
      attempts (waiting.foldl registry.attempt batch).notices =
        attempts batch.notices ++ registry.attempted batch.heap waiting := by
  induction waiting generalizing batch with
  | nil => exact ⟨[], [], .done, by simp, (List.append_nil _).symm⟩
  | cons child waiting ih =>
    rw [List.foldl_cons, attempted]
    rcases registry.attempt_cases batch child with ⟨unknown, same⟩ | ⟨parent, sought,
      ⟨granted, hash, made⟩ | ⟨cause, refusal, made⟩⟩
    · rw [same, List.filter_cons_of_neg (by simp [unknown])]
      obtain ⟨linked, failed, course, reported, told⟩ := ih batch
      exact ⟨linked, failed, .passed unknown course, reported, told⟩
    · rw [made, List.filter_cons_of_pos (by simp [sought])]
      obtain ⟨linked, failed, course, reported, told⟩ := ih
        ⟨batch.heap.link child parent, ⟨batch.report.linked + 1, batch.report.failed⟩,
          batch.notices ++ [.logged (.parentResolved child parent hash)]⟩
      refine ⟨_, failed, .linked sought granted course, reported.trans ?_, told.trans ?_⟩
      · simp only [List.length_cons, ResolveReport.mk.injEq, and_true]
        omega
      · simp [attempts, Notice.attempted?, attempted, sought?_link]
    · rw [made, List.filter_cons_of_pos (by simp [sought])]
      obtain ⟨linked, failed, course, reported, told⟩ := ih
        ⟨batch.heap, ⟨batch.report.linked, batch.report.failed ++ [(child, cause)]⟩,
          batch.notices ++ [.logged (.resolutionFailed child parent cause)]⟩
      refine ⟨linked, _, .refused sought refusal course, reported.trans ?_, told.trans ?_⟩
      · simp
      · simp [attempts, Notice.attempted?, attempted]

theorem resolvePending_course (registry : ClassRegistry) (heap : Heap) :
    ∃ linked failed,
      registry.Course heap (registry.pending heap) linked failed (registry.resolvePending heap).heap ∧
      (registry.resolvePending heap).outcome = .ok ⟨linked.length, failed⟩ ∧
      attempts (registry.resolvePending heap).notices =
        registry.attempted heap (registry.pending heap) := by
  obtain ⟨linked, failed, course, reported, told⟩ :=
    registry.exists_course ⟨heap, ⟨0, []⟩, []⟩ (registry.pending heap)
  refine ⟨linked, failed, course, ?_, ?_⟩
  · rw [resolvePending, reported]
    simp
  · rw [resolvePending, attempts_append, told]
    have summary (count : Nat) :
        attempts (if 0 < count then [.logged (.pendingResolved count)] else []) = [] := by
      split <;> rfl
    rw [summary, List.append_nil]
    exact List.nil_append _

namespace Course

/-- A batch comes to the links that it makes. -/
theorem heap_eq (course : registry.Course heap waiting linked failed last) :
    last = heap.linkAll linked := by
  induction course with
  | done => rfl
  | passed _ _ ih => exact ih
  | linked _ _ _ ih => exact ih
  | refused _ _ _ ih => exact ih

theorem sought?_eq (course : registry.Course heap waiting linked failed last) :
    registry.sought? last = registry.sought? heap := by
  rw [course.heap_eq, sought?_linkAll]

end Course
end ClassRegistry
end ScriptHeap
