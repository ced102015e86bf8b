import ScriptHeap.Proofs.BatchCourse
import ScriptHeap.Proofs.KindAgreement

/-! The report of a batch. It accounts for every waiting class whose declared parent is registered, once
and in order of registration, by what stood in the way of its link when its turn came; and the heap has
changed by the reported links only. -/
namespace ScriptHeap

/-! ## The heap after a batch -/

namespace Heap
variable {heap : Heap} {handle : Handle} {linked : List (Handle × Handle)}

theorem isSome_view?_linkAll (heap : Heap) (joined : List (Handle × Handle)) (handle : Handle) :
    ((heap.linkAll joined).view? .classDef handle).isSome =
      (heap.view? .classDef handle).isSome := by
  induction joined generalizing heap with
  | nil => rfl
  | cons link joined ih => exact (ih _).trans (heap.isSome_view?_link link.1 link.2 handle)

end Heap

namespace ClassRegistry
variable {registry : ClassRegistry} {heap last : Heap} {child parent : Handle}
variable {waiting front later : List Handle} {linked : List (Handle × Handle)}
variable {failed : List (Handle × HeapError)}

/-! ## What a course amounts to -/

theorem attempted_link (registry : ClassRegistry) (heap : Heap) (one other : Handle) :
    registry.attempted (heap.link one other) waiting = registry.attempted heap waiting := by
  simp only [attempted, sought?_link]

namespace Course

/-- Links and refusals together are what was attempted, both in the order in which the classes came up. -/
theorem accounts (course : registry.Course heap waiting linked failed last) :
    (linked.map Prod.fst).Sublist (registry.attempted heap waiting) ∧
      (failed.map Prod.fst).Sublist (registry.attempted heap waiting) ∧
      (linked.map Prod.fst ++ failed.map Prod.fst).Perm (registry.attempted heap waiting) := by
  induction course with
  | done => exact ⟨.slnil, .slnil, .refl []⟩
  | passed unknown _ ih =>
    rw [attempted, List.filter_cons_of_neg (by simp [unknown])]
    exact ih
  | @linked heap _ child parent _ _ _ sought _ _ ih =>
    rw [attempted, List.filter_cons_of_pos (by simp [sought])]
    rw [attempted_link] at ih
    obtain ⟨made, noted, all⟩ := ih
    exact ⟨made.cons_cons child, noted.cons child, all.cons child⟩
  | @refused heap _ child parent cause _ _ _ sought _ _ ih =>
    rw [attempted, List.filter_cons_of_pos (by simp [sought])]
    obtain ⟨made, noted, all⟩ := ih
    exact ⟨made.cons child, noted.cons_cons child, List.perm_middle.trans (all.cons child)⟩

/-- Classes are linked that were live from the beginning. -/
theorem classes (course : registry.Course heap waiting linked failed last) :
    ∀ link ∈ linked, (heap.view? .classDef link.1).isSome = true := by
  induction course with
  | done => simp
  | passed _ _ ih => exact ih
  | refused _ _ _ ih => exact ih
  | linked _ granted _ ih =>
    intro link listed
    rcases List.mem_cons.mp listed with rfl | listed
    · exact (Heap.of_mayLink granted).1
    · rw [← Heap.isSome_view?_link]
      exact ih link listed

/-- A course up to some class, and the one that goes on from there. -/
theorem split (course : registry.Course heap (front ++ later) linked failed last) :
    ∃ moment linked₁ linked₂ failed₁ failed₂, registry.Course heap front linked₁ failed₁ moment ∧
      registry.Course moment later linked₂ failed₂ last ∧
      linked = linked₁ ++ linked₂ ∧ failed = failed₁ ++ failed₂ := by
  induction front generalizing heap linked failed with
  | nil => exact ⟨heap, [], linked, [], failed, .done, course, rfl, rfl⟩
  | cons child front ih =>
    cases course with
    | passed unknown rest =>
      obtain ⟨moment, linked₁, linked₂, failed₁, failed₂, before, after, rfl, rfl⟩ := ih rest
      exact ⟨moment, _, linked₂, _, failed₂, .passed unknown before, after, rfl, rfl⟩
    | linked sought granted rest =>
      obtain ⟨moment, linked₁, linked₂, failed₁, failed₂, before, after, rfl, rfl⟩ := ih rest
      exact ⟨moment, _, linked₂, _, failed₂, .linked sought granted before, after, rfl, rfl⟩
    | refused sought refusal rest =>
      obtain ⟨moment, linked₁, linked₂, failed₁, failed₂, before, after, rfl, rfl⟩ := ih rest
      exact ⟨moment, _, linked₂, _, failed₂, .refused sought refusal before, after, rfl, rfl⟩

theorem linked_subset (course : registry.Course heap waiting linked failed last)
    {link : Handle × Handle} (listed : link ∈ linked) : link.1 ∈ waiting :=
  List.mem_of_mem_filter (course.accounts.1.subset (List.mem_map_of_mem listed))

end Course

/-- What a batch makes of a class that comes up at a moment, and how it reports it. -/
inductive Settles (registry : ClassRegistry) (moment : Heap) (linked : List (Handle × Handle))
    (failed : List (Handle × HeapError)) (child : Handle) : Prop where
  | passed (unknown : registry.sought? moment child = none) (unlinked : child ∉ linked.map Prod.fst)
      (unnoted : child ∉ failed.map Prod.fst)
  | linked {parent : Handle} (sought : registry.sought? moment child = some parent)
      (admitted : moment.Admits child parent) (made : (child, parent) ∈ linked)
      (unnoted : child ∉ failed.map Prod.fst)
  | refused {parent : Handle} {cause : HeapError}
      (sought : registry.sought? moment child = some parent) (barred : moment.Bars child parent cause)
      (noted : (child, cause) ∈ failed) (unlinked : child ∉ linked.map Prod.fst)

/-- Each class is settled by what stands at the moment when it comes up, with the links made for the
classes before it. -/
theorem Course.settles (course : registry.Course heap (front ++ child :: later) linked failed last)
    (distinct : (front ++ child :: later).Nodup)
    (alive : (heap.view? .classDef child).isSome = true) :
    registry.Settles (heap.linkAll (linked.filter fun link => link.1 ∈ front)) linked failed child := by
  have ⟨made, noted, all⟩ := course.accounts
  have once : (linked.map Prod.fst ++ failed.map Prod.fst).Nodup :=
    all.symm.nodup (distinct.filter _)
  have apart := (List.nodup_append'.mp once).2.2
  obtain ⟨moment, linked₁, linked₂, failed₁, failed₂, before, after, rfl, rfl⟩ := course.split
  obtain ⟨-, -, strange⟩ := List.nodup_append'.mp distinct
  have early : (linked₁ ++ linked₂).filter (fun link => link.1 ∈ front) = linked₁ := by
    rw [List.filter_append, List.filter_eq_self.mpr, List.filter_eq_nil_iff.mpr, List.append_nil]
    · intro link listed
      simpa using fun mem => strange mem (after.linked_subset listed)
    · intro link listed
      simpa using before.linked_subset listed
  rw [early, ← before.heap_eq]
  obtain ⟨self, seen⟩ : ∃ self, moment.view? .classDef child = some self := by
    rw [← Option.isSome_iff_exists, before.heap_eq, Heap.isSome_view?_linkAll]
    exact alive
  cases after with
  | passed unknown rest =>
    have idle : child ∉ registry.attempted heap (front ++ child :: later) := by
      rw [before.sought?_eq] at unknown
      simp [attempted, unknown]
    exact .passed unknown (fun mem => idle (made.subset mem)) fun mem => idle (noted.subset mem)
  | @linked _ _ _ parent _ _ _ sought granted rest =>
    obtain ⟨-, admitted⟩ | ⟨cause, refusal, -⟩ := Heap.mayLink_cases seen parent
    · refine .linked sought admitted (by simp) fun mem => ?_
      exact apart (by simp) mem
    · rw [granted] at refusal
      cases refusal
  | @refused _ _ _ parent cause _ _ _ sought refusal rest =>
    obtain ⟨granted, -⟩ | ⟨cause', refusal', barred⟩ := Heap.mayLink_cases seen parent
    · rw [granted] at refusal
      cases refusal
    · rw [refusal] at refusal'
      cases refusal'
      exact .refused sought barred (by simp) fun mem => apart mem (by simp)

/-! ## Registries of a run -/

/-- Every registered object was a class at some time of a run. -/
def Loaded (registry : ClassRegistry) (config : HeapConfig) (ops : List Operation) : Prop :=
  ∀ handle ∈ registry.classes.values, ∃ early, early <+: ops ∧
    ((History.run config early).heap.view? .classDef handle).isSome = true

/-- What was a class once is a class as long as it lives. -/
theorem Loaded.isSome_view? {config : HeapConfig} {ops : List Operation}
    (loaded : registry.Loaded config ops) {handle : Handle}
    (registered : handle ∈ registry.classes.values)
    (live : (History.run config ops).heap.contains handle = true) :
    ((History.run config ops).heap.view? .classDef handle).isSome = true := by
  obtain ⟨early, ⟨more, rfl⟩, seen⟩ := loaded handle registered
  rw [History.run_append] at live ⊢
  obtain ⟨object, found⟩ := Option.isSome_iff_exists.mp live
  obtain ⟨before, held, revised⟩ := ((History.run config early).later_after more).payload handle
    (Heap.issued_of_contains (Heap.contains_of_view? seen)) object.payload
    (Heap.payloadAt_of_get? found)
  have once : before.type = .classDef := by
    rw [Heap.view?_eq_payloadAt, held] at seen
    exact Variant.isSome_project_ofType.mp seen
  rw [Heap.view?, found]
  exact Variant.isSome_project_ofType.mpr ((History.type_eq_of_revised revised).trans once)

end ClassRegistry

end ScriptHeap
