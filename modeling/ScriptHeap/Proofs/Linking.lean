import Mathlib.Data.List.Nodup
import ScriptHeap.Proofs.Inheritance

/-! Links of classes, one and many. Whether a class fits under a parent, cycles aside, depends on nothing
that links change; so links can be judged before any of them is made. And links of different classes can
be made in any order. -/
namespace ScriptHeap
open Relation

namespace Heap
variable {heap rest : Heap} {child parent handle : Handle} {cause : HeapError}

/-! ## A link, cycles aside -/

/-- Whether a class could get a parent if links might go round: both are live classes, and the parent has
the declared hash. -/
def fits (heap : Heap) (child parent : Handle) : Except HeapError Unit :=
  match heap.expect .classDef child with
  | .error cause => .error cause
  | .ok childDef =>
    match heap.expect .classDef parent with
    | .error cause => .error cause
    | .ok parentDef =>
      if childDef.parentHash ≠ parentDef.hash then
        .error (.parentHashMismatch childDef.parentHash parentDef.hash)
      else .ok ()

theorem isSome_view?_of_fits (fit : heap.fits child parent = .ok ()) :
    (heap.view? .classDef parent).isSome = true := by
  rw [fits] at fit
  split at fit
  · cases fit
  · split at fit
    · cases fit
    · next parentDef seen =>
      rw [expect_eq_ok_iff.mp seen]
      rfl

/-- What is in the way of a link comes first, and then the cycle that it would close. -/
theorem mayLink_eq_fits (heap : Heap) (child parent : Handle) :
    heap.mayLink child parent =
      match heap.fits child parent with
      | .error cause => .error cause
      | .ok () =>
        if (heap.ancestors parent).any (·.1 == child) then .error .inheritanceCycle else .ok () := by
  rw [mayLink, fits]
  cases heap.expect .classDef child with
  | error cause => rfl
  | ok childDef =>
    cases heap.expect .classDef parent with
    | error cause => rfl
    | ok parentDef => by_cases different : childDef.parentHash ≠ parentDef.hash <;> simp [different]

theorem mayLink_of_misfit (misfit : heap.fits child parent = .error cause) :
    heap.mayLink child parent = .error cause := by
  rw [mayLink_eq_fits, misfit]

theorem mayLink_of_fits (fit : heap.fits child parent = .ok ()) :
    (ReflTransGen heap.ChildOf parent child ∧ heap.mayLink child parent = .error .inheritanceCycle) ∨
      (¬ ReflTransGen heap.ChildOf parent child ∧ heap.mayLink child parent = .ok ()) := by
  rw [← any_ancestors_iff (isSome_view?_of_fits fit), mayLink_eq_fits, fit]
  by_cases descends : (heap.ancestors parent).any (·.1 == child) = true
  · exact .inl ⟨descends, if_pos descends⟩
  · exact .inr ⟨descends, if_neg descends⟩

theorem fits_ne_cycle (heap : Heap) (child parent : Handle) :
    heap.fits child parent ≠ .error .inheritanceCycle := by
  have seen (handle : Handle) : heap.expect .classDef handle ≠ .error .inheritanceCycle := by
    rw [expect, require]
    cases heap.get? handle with
    | none => simp
    | some object => cases met : Variant.classDef.project object.payload <;> simp [met]
  intro cycle
  rw [fits] at cycle
  split at cycle
  · next childless =>
    cases cycle
    exact seen child childless
  · split at cycle
    · next parentless =>
      cases cycle
      exact seen parent parentless
    · split at cycle <;> cases cycle

/-! ## Links change nothing that they depend on -/

/-- Linking changes the parent of a class only, and neither hash. -/
theorem fits_link (heap : Heap) (one other : Handle) :
    (heap.link one other).fits child parent = heap.fits child parent := by
  have seen (handle : Handle) : (heap.link one other).expect .classDef handle =
      (heap.expect .classDef handle).map fun self =>
        if handle = one then { self with parent := some other } else self := by
    rw [link, expect_update]
    split
    · next same => rw [same]
    · cases heap.expect .classDef handle <;> rfl
  rw [fits, fits, seen, seen]
  cases heap.expect .classDef child with
  | error cause => rfl
  | ok childDef =>
    cases heap.expect .classDef parent with
    | error cause => rfl
    | ok parentDef =>
      have hashes (self : ClassDef) (linked : Prop) [Decidable linked] :
          (if linked then { self with parent := some other } else self).parentHash = self.parentHash ∧
            (if linked then { self with parent := some other } else self).hash = self.hash := by
        split <;> exact ⟨rfl, rfl⟩
      simp only [Except.map, hashes]

theorem parentHash?_link (heap : Heap) (one other : Handle) :
    (heap.link one other).parentHash? child = heap.parentHash? child := by
  rw [parentHash?, parentHash?, link, view?_update]
  split
  · next same =>
    rw [same, Option.map_map]
    rfl
  · rfl

/-- Several links, made one after the other. -/
def linkAll (heap : Heap) (joined : List (Handle × Handle)) : Heap :=
  joined.foldl (fun heap link => heap.link link.1 link.2) heap

theorem fits_linkAll (heap : Heap) (joined : List (Handle × Handle)) (child parent : Handle) :
    (heap.linkAll joined).fits child parent = heap.fits child parent := by
  induction joined generalizing heap with
  | nil => rfl
  | cons link joined ih => exact (ih _).trans (heap.fits_link link.1 link.2)

theorem parentHash?_linkAll (heap : Heap) (joined : List (Handle × Handle)) (child : Handle) :
    (heap.linkAll joined).parentHash? child = heap.parentHash? child := by
  induction joined generalizing heap with
  | nil => rfl
  | cons link joined ih => exact (ih _).trans (heap.parentHash?_link link.1 link.2)

/-- Live classes that were not linked and are linked now. -/
theorem childOf_linkAll {joined : List (Handle × Handle)} (distinct : (joined.map Prod.fst).Nodup)
    (orphans : ∀ link ∈ joined, (heap.view? .classDef link.1).isSome = true ∧
      heap.parentOf? link.1 = none)
    (classes : ∀ link ∈ joined, (heap.view? .classDef link.2).isSome = true) :
    (heap.linkAll joined).ChildOf child parent ↔
      heap.ChildOf child parent ∨ (child, parent) ∈ joined := by
  induction joined generalizing heap with
  | nil => simp [linkAll]
  | cons link joined ih =>
    obtain ⟨one, other⟩ := link
    obtain ⟨fresh, distinctRest⟩ := List.nodup_cons.mp distinct
    obtain ⟨live, orphan⟩ := orphans (one, other) List.mem_cons_self
    have apart : ∀ link ∈ joined, link.1 ≠ one := fun link listed same =>
      fresh (List.mem_map.mpr ⟨link, listed, same⟩)
    have first : (heap.link one other).ChildOf child parent ↔
        heap.ChildOf child parent ∨ (child = one ∧ parent = other) := by
      have seen := classes (one, other) List.mem_cons_self
      rw [ChildOf, ChildOf, isSome_view?_link, parentOf?_link]
      obtain ⟨self, live⟩ := Option.isSome_iff_exists.mp live
      by_cases same : child = one
      · subst same
        simp only [live, orphan, Option.map_some, ↓reduceIte, Option.some.injEq, reduceCtorEq,
          false_and, false_or, true_and]
        exact ⟨fun link => link.1.symm, fun link => ⟨link.symm, link ▸ seen⟩⟩
      · simp [same]
    have rest : ((heap.link one other).linkAll joined).ChildOf child parent ↔
        (heap.link one other).ChildOf child parent ∨ (child, parent) ∈ joined := by
      apply ih distinctRest
      · intro link listed
        rw [isSome_view?_link, parentOf?_link, if_neg (apart link listed)]
        exact orphans link (List.mem_cons_of_mem _ listed)
      · intro link listed
        rw [isSome_view?_link]
        exact classes link (List.mem_cons_of_mem _ listed)
    rw [linkAll, List.foldl_cons, ← linkAll, rest, first, List.mem_cons, Prod.mk.injEq, or_assoc]

/-- Links of different classes can be made in either order. -/
theorem link_comm (heap : Heap) {one one' : Handle} (different : one ≠ one') (other other' : Handle) :
    (heap.link one other).link one' other' = (heap.link one' other').link one other :=
  congrArg (fun store => { heap with store })
    (heap.store.modify_comm (fun same => different (toSlotKey_inj.mp same)) _ _)

theorem linkAll_perm {joined joined' : List (Handle × Handle)} (same : joined.Perm joined')
    (distinct : (joined.map Prod.fst).Nodup) : heap.linkAll joined = heap.linkAll joined' := by
  apply same.foldl_eq'
  intro link listed link' listed' heap
  by_cases alike : link.1 = link'.1
  · rw [List.inj_on_of_nodup_map distinct listed listed' alike]
  · exact heap.link_comm alike link.2 link'.2

end Heap

end ScriptHeap
