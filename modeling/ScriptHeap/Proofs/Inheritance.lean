import Mathlib.Logic.Relation
import ScriptHeap.Proofs.HandleSafety
import ScriptHeap.Proofs.NearestDefinition

/-! Inheritance has no cycles. Whether a class may be linked to a parent is decided by a walk that takes
no more steps than there are objects; it finds the class exactly if the class is an ancestor of its new
parent or that parent itself. So linking never closes a cycle, and nothing else that happens to a heap
does: a class comes into being without a parent, and the handle it gets is nobody's parent yet, even
where its slot was used before. -/
namespace ScriptHeap

/-! ## Adding one link -/

/-- With one link more, a way leads along the old links, or to where the new one begins and on from
where it ends. -/
theorem transGen_with_link {α : Type} {old new : α → α → Prop} {child parent one other : α}
    (links : ∀ a b, new a b → old a b ∨ a = child ∧ b = parent)
    (way : Relation.TransGen new one other) :
    Relation.TransGen old one other ∨
      Relation.ReflTransGen old one child ∧ Relation.ReflTransGen old parent other := by
  induction way with
  | single link =>
    rcases links _ _ link with link | ⟨rfl, rfl⟩
    · exact .inl (.single link)
    · exact .inr ⟨.refl, .refl⟩
  | tail _ link ih =>
    rcases links _ _ link with link | ⟨rfl, rfl⟩
    · exact ih.imp (·.tail link) fun ⟨first, second⟩ => ⟨first, second.tail link⟩
    · rcases ih with way | ⟨first, _⟩
      · exact .inr ⟨way.to_reflTransGen, .refl⟩
      · exact .inr ⟨first, .refl⟩

namespace Heap
variable {heap rest : Heap} {child parent handle start target : Handle}
variable {childDef parentDef : ClassDef}

/-! ## Who descends from whom -/

/-- The parent that a live class is linked to, be it alive or not. -/
def parentOf? (heap : Heap) (handle : Handle) : Option Handle :=
  (heap.view? .classDef handle).bind (·.parent)

/-- A live class is linked to another live class. -/
def ChildOf (heap : Heap) (child parent : Handle) : Prop :=
  heap.parentOf? child = some parent ∧ (heap.view? .classDef parent).isSome = true

/-- The classes in line are those that links from live class to live class lead to. -/
theorem exists_forebear?_iff (seen : (heap.view? .classDef start).isSome = true) :
    (∃ steps ancestor, heap.forebear? start steps = some ancestor ∧ ancestor.1 = target) ↔
      Relation.ReflTransGen heap.ChildOf start target := by
  constructor
  · rintro ⟨steps, ancestor, met, rfl⟩
    induction steps generalizing ancestor with
    | zero =>
      rw [forebear?, walk, itemAt_eq_some_iff] at met
      rw [Option.some.inj met.1]
    | succ steps ih =>
      obtain ⟨before, reached⟩ := exists_walk_of_le (Nat.le_succ steps) met
      have last := (walk_succ reached).symm.trans met
      obtain ⟨leads, alive⟩ := itemAt_eq_some_iff.1 last
      have here : heap.parentOf? before.1 = some ancestor.1 := by
        rw [parentOf?, look_of_walk reached]
        exact leads
      exact (ih before reached).tail ⟨here, by rw [alive]; rfl⟩
  · intro way
    induction way with
    | refl =>
      obtain ⟨definition, seen⟩ := Option.isSome_iff_exists.1 seen
      refine ⟨0, (start, definition), ?_, rfl⟩
      rw [forebear?, walk, itemAt_eq_some_iff]
      exact ⟨rfl, seen⟩
    | @tail middle last _ link ih =>
      obtain ⟨steps, before, reached, rfl⟩ := ih
      obtain ⟨leads, alive⟩ := link
      obtain ⟨definition, alive⟩ := Option.isSome_iff_exists.1 alive
      rw [parentOf?, look_of_walk reached] at leads
      refine ⟨steps + 1, (last, definition), ?_, rfl⟩
      rw [forebear?, walk_succ reached]
      exact itemAt_eq_some_iff.2 ⟨leads, alive⟩

/-- The search among the ancestors of a class is exact. -/
theorem any_ancestors_iff (seen : (heap.view? .classDef start).isSome = true) :
    (heap.ancestors start).any (·.1 == target) = true ↔
      Relation.ReflTransGen heap.ChildOf start target := by
  rw [← exists_forebear?_iff seen, List.any_eq_true]
  constructor
  · rintro ⟨ancestor, listed, same⟩
    obtain ⟨steps, met⟩ := mem_ancestors_iff.1 listed
    exact ⟨steps, ancestor, met, beq_iff_eq.1 same⟩
  · rintro ⟨steps, ancestor, met, same⟩
    exact ⟨ancestor, mem_ancestors_iff.2 ⟨steps, met⟩, beq_iff_eq.2 same⟩

/-! ## Linking one class -/

/-- Between live classes whose hashes agree, only descent forbids a link. -/
theorem mayLink_eq (childSeen : heap.view? .classDef child = some childDef)
    (parentSeen : heap.view? .classDef parent = some parentDef)
    (declared : parentDef.hash = childDef.parentHash) :
    heap.mayLink child parent =
      if (heap.ancestors parent).any (·.1 == child) then .error .inheritanceCycle else .ok () := by
  rw [mayLink, expect_eq_ok_iff.2 childSeen, expect_eq_ok_iff.2 parentSeen]
  simp only [declared, ne_eq, not_true_eq_false, ↓reduceIte]

/-- A class is linked to a parent, and nothing else of the heap is changed. -/
structure Links (heap : Heap) (child parent : Handle) (childDef : ClassDef) (linked : Heap) : Prop where
  objects : ∀ handle, linked.get? handle =
    if handle = child then
      (heap.get? child).map fun object =>
        { object with payload := .classDef { childDef with parent := some parent } }
    else heap.get? handle
  frame : linked = { heap with store := linked.store }
  vacant : linked.store.vacant = heap.store.vacant
  generations : linked.store.slots.map (·.generation) = heap.store.slots.map (·.generation)

theorem links_link (childSeen : heap.view? .classDef child = some childDef) (parent : Handle) :
    heap.Links child parent childDef (heap.link child parent) where
  objects := get?_update childSeen _
  frame := (heap.modify_frame child _).1
  vacant := (heap.modify_frame child _).2.1
  generations := (heap.modify_frame child _).2.2

/-- A class that the parent descends from is refused, and no other. -/
theorem resolveParent_cases (childSeen : heap.view? .classDef child = some childDef)
    (parentSeen : heap.view? .classDef parent = some parentDef)
    (declared : parentDef.hash = childDef.parentHash) :
    (Relation.ReflTransGen heap.ChildOf parent child ∧
      (heap.resolveParent child parent).outcome = .error (.error .inheritanceCycle) ∧
      (heap.resolveParent child parent).heap = heap) ∨
    (¬ Relation.ReflTransGen heap.ChildOf parent child ∧
      (heap.resolveParent child parent).outcome = .ok () ∧
      heap.Links child parent childDef (heap.resolveParent child parent).heap) := by
  have seen : (heap.view? .classDef parent).isSome = true := by rw [parentSeen]; rfl
  rw [← any_ancestors_iff seen, resolveParent, mayLink_eq childSeen parentSeen declared]
  by_cases descends : (heap.ancestors parent).any (·.1 == child) = true
  · rw [if_pos descends]
    exact .inl ⟨descends, rfl, rfl⟩
  · rw [if_neg descends]
    exact .inr ⟨descends, rfl, links_link childSeen parent⟩

/-- A link that is allowed is one between live classes and closes no cycle. -/
theorem of_mayLink (allowed : heap.mayLink child parent = .ok ()) :
    (heap.view? .classDef child).isSome = true ∧ (heap.view? .classDef parent).isSome = true ∧
      ¬ Relation.ReflTransGen heap.ChildOf parent child := by
  rw [mayLink] at allowed
  split at allowed
  · cases allowed
  · next childDef childSeen =>
    split at allowed
    · cases allowed
    · next parentDef parentSeen =>
      rw [expect_eq_ok_iff] at childSeen parentSeen
      have seen : (heap.view? .classDef parent).isSome = true := by rw [parentSeen]; rfl
      refine ⟨by rw [childSeen]; rfl, seen, fun way => ?_⟩
      rw [(any_ancestors_iff seen).2 way] at allowed
      split at allowed <;> cases allowed

theorem parentOf?_link (heap : Heap) (child parent : Handle) (handle : Handle) :
    (heap.link child parent).parentOf? handle =
      if handle = child then (heap.view? .classDef child).map fun _ => parent
      else heap.parentOf? handle := by
  rw [parentOf?, link, view?_update]
  split
  · cases heap.view? .classDef child <;> rfl
  · rfl

theorem isSome_view?_link (heap : Heap) (child parent : Handle) (handle : Handle) :
    ((heap.link child parent).view? .classDef handle).isSome =
      (heap.view? .classDef handle).isSome := by
  rw [link, view?_update]
  split
  · next same => rw [same, Option.isSome_map]
  · rfl

/-- A link makes one way from class to class at most. -/
theorem childOf_of_link {one other : Handle} (linked : (heap.link child parent).ChildOf one other) :
    heap.ChildOf one other ∨ one = child ∧ other = parent := by
  obtain ⟨leads, alive⟩ := linked
  rw [isSome_view?_link] at alive
  rw [parentOf?_link] at leads
  split at leads
  · next same =>
    obtain ⟨_, _, rfl⟩ := Option.map_eq_some_iff.1 leads
    exact .inr ⟨same, rfl⟩
  · exact .inl ⟨leads, alive⟩

/-! ## Descent -/

/-- No class descends from itself, and whatever a class is linked to has been issued at some time. -/
structure Descent (heap : Heap) : Prop where
  acyclic : ∀ handle, ¬ Relation.TransGen heap.ChildOf handle handle
  issued : ∀ child parent, heap.parentOf? child = some parent → heap.Issued parent

theorem descent_ofConfig (config : HeapConfig) : (ofConfig config).Descent := by
  have orphaned (handle : Handle) : (ofConfig config).parentOf? handle = none := by
    simp [parentOf?, view?, get?, ofConfig]
  constructor
  · intro handle way
    obtain ⟨_, link, _⟩ := Relation.TransGen.head'_iff.1 way
    rw [ChildOf, orphaned] at link
    cases link.1
  · intro child parent linked
    rw [orphaned] at linked
    cases linked

namespace Descent

/-- Links may go and classes may go; what comes must not be linked, nor be what others are linked to. -/
theorem of_links (descent : heap.Descent)
    (links : ∀ child parent, rest.parentOf? child = some parent → heap.parentOf? child = some parent)
    (classes : ∀ handle, heap.Issued handle → (rest.view? .classDef handle).isSome = true →
      (heap.view? .classDef handle).isSome = true)
    (issued : ∀ handle, heap.Issued handle → rest.Issued handle) : rest.Descent := by
  have fewer (child parent : Handle) (link : rest.ChildOf child parent) :
      heap.ChildOf child parent := by
    have old := links child parent link.1
    exact ⟨old, classes parent (descent.issued child parent old) link.2⟩
  constructor
  · intro handle way
    exact descent.acyclic handle (Relation.TransGen.mono fewer _ _ way)
  · intro child parent linked
    exact issued parent (descent.issued child parent (links child parent linked))

/-- Nothing that matters to classes has changed. -/
theorem congr (descent : heap.Descent)
    (views : ∀ handle, rest.view? .classDef handle = heap.view? .classDef handle)
    (issued : ∀ handle, heap.Issued handle → rest.Issued handle) : rest.Descent := by
  refine descent.of_links ?_ ?_ issued
  · intro child parent linked
    rwa [parentOf?, views] at linked
  · intro handle _ seen
    rwa [views] at seen

/-- A new object has no parent if it is a class, and nobody is linked to it. -/
theorem grown (descent : heap.Descent) {payload : Payload} (dispatch : Option Handle)
    (orphaned : (Variant.classDef.project payload).bind (·.parent) = none) :
    (heap.grown payload dispatch).Descent := by
  refine descent.of_links ?_ ?_ fun _ issued => issued_grown.2 (.inr issued)
  · intro child parent linked
    rw [parentOf?, view?_grown] at linked
    split at linked
    · rw [orphaned] at linked
      cases linked
    · exact linked
  · intro handle issued seen
    rwa [view?_grown, if_neg (ne_nextHandle issued)] at seen

theorem loses {gone : List Handle} (descent : heap.Descent) (loses : heap.Loses gone rest) :
    rest.Descent := by
  have views := view?_of_loses loses .classDef
  refine descent.of_links ?_ ?_ fun handle issued => (loses.issued handle).2 issued
  · intro child parent linked
    rw [parentOf?, views] at linked
    split at linked
    · cases linked
    · exact linked
  · intro handle _ seen
    rw [views] at seen
    split at seen
    · cases seen
    · exact seen

/-- Linking keeps descent in order, since it asks first. -/
theorem resolveParent (descent : heap.Descent) (child parent : Handle) :
    (heap.resolveParent child parent).heap.Descent := by
  rw [Heap.resolveParent]
  split
  · exact descent
  · next allowed =>
    obtain ⟨_, parentSeen, apart⟩ := of_mayLink allowed
    constructor
    · intro handle way
      rcases transGen_with_link (fun _ _ => childOf_of_link) way with old | ⟨first, second⟩
      · exact descent.acyclic handle old
      · exact apart (second.trans first)
    · intro one other linked
      rw [parentOf?_link] at linked
      refine (heap.issued_modify child _ other).2 ?_
      split at linked
      · obtain ⟨_, _, rfl⟩ := Option.map_eq_some_iff.1 linked
        exact issued_of_contains (contains_of_view? parentSeen)
      · exact descent.issued one other linked

theorem attempt (registry : ClassRegistry) {batch : ClassRegistry.Batch}
    (descent : batch.heap.Descent) (child : Handle) :
    (registry.attempt batch child).heap.Descent := by
  rw [ClassRegistry.attempt]
  split
  · exact descent
  · split
    · exact descent.resolveParent _ _
    · exact descent

theorem resolvePending (registry : ClassRegistry) (descent : heap.Descent) :
    (registry.resolvePending heap).heap.Descent := by
  have all (pending : List Handle) (batch : ClassRegistry.Batch) (descent : batch.heap.Descent) :
      (pending.foldl registry.attempt batch).heap.Descent := by
    induction pending generalizing batch with
    | nil => exact descent
    | cons child pending ih => exact ih _ (descent.attempt registry child)
  exact all (registry.pending heap) ⟨heap, ⟨0, []⟩, []⟩ descent

end Descent
end Heap

/-! ## Whole runs -/

/-- Whether the host itself gives a class a parent, when it makes the class or afterwards. -/
def Operation.SetsParent : Operation → Prop
  | .create (.raw (.classDef self)) => self.parent ≠ none
  | .edit .classDef _ change =>
    ∃ self : ClassDef, (change self).parent ≠ none ∧ (change self).parent ≠ self.parent
  | _ => False

/-- Classes come into being without a parent. -/
theorem Operation.Allocates.orphaned {op : Operation} {heap : Heap} {payload : Payload}
    {dispatch : Option Handle} (allocates : op.Allocates heap payload dispatch)
    (apart : ¬ op.SetsParent) :
    (Variant.classDef.project payload).bind (·.parent) = none := by
  cases allocates with
  | capture => rfl
  | @create creation _ _ allocates =>
    cases creation with
    | raw given =>
      cases allocates
      cases payload with
      | classDef self => exact Decidable.not_not.1 apart
      | _ => rfl
    | closure code =>
      obtain ⟨definition, -, rfl⟩ := allocates
      rfl
    | namedClass name =>
      obtain rfl | ⟨text, rfl⟩ := allocates <;> rfl
    | namedNameSpace name =>
      obtain rfl | ⟨text, rfl⟩ := allocates <;> rfl
    | _ =>
      cases allocates
      rfl

namespace Heap
variable {heap : Heap}

/-- An edit by the host that gives no class a parent. -/
theorem Descent.edit (descent : heap.Descent) (type : ObjectType) (target : Handle)
    (change : Variant.Data type → Variant.Data type)
    (apart : ¬ (Operation.edit type target change).SetsParent) :
    (heap.update (.ofType type) target change).Descent := by
  have issued (handle : Handle) (held : heap.Issued handle) :
      (heap.update (.ofType type) target change).Issued handle :=
    (heap.issued_modify target _ handle).2 held
  cases type with
  | classDef =>
    refine descent.of_links ?_ ?_ issued
    · intro child parent linked
      rw [parentOf?, show Variant.ofType .classDef = Variant.classDef from rfl, view?_update] at linked
      split at linked
      · next same =>
        obtain ⟨edited, seen, leads⟩ := Option.bind_eq_some_iff.1 linked
        obtain ⟨self, before, rfl⟩ := Option.map_eq_some_iff.1 seen
        -- a parent that was not set is the old one
        have kept : self.parent = some parent := by
          by_contra other
          refine apart ⟨self, ?_, ?_⟩
          · rw [leads]
            simp
          · rw [leads]
            exact Ne.symm other
        rw [parentOf?, same, before]
        exact kept
      · exact linked
    · intro handle _ seen
      rw [show Variant.ofType .classDef = Variant.classDef from rfl, view?_update] at seen
      split at seen
      · next same => rwa [Option.isSome_map, ← same] at seen
      · exact seen
  | _ => exact descent.congr (view?_update_of_ne (by decide) heap target change) issued

/-- Every operation but linking, which asks first. -/
private theorem Descent.perform_unlinked {op : Operation} (descent : heap.Descent)
    (apart : ¬ op.SetsParent) (single : ∀ child parent, op ≠ .resolveParent child parent)
    (batch : ∀ registry, op ≠ .resolvePending registry) : (op.perform heap).heap.Descent := by
  have kept : op.Preserves fun _ heap => heap.Descent := by
    constructor
    case allocate =>
      intro _ heap payload dispatch allocates held
      obtain ⟨failure, told, -, refused⟩ | granted := heap.allocateWith_cases payload dispatch
      · rw [Step.Leaves, refused]
        exact held
      · rw [Step.Leaves, granted]
        exact held.grown dispatch (allocates.orphaned apart)
    case free =>
      intro _ heap target _ held
      exact held.loses (heap.loses_free target).1
    case sweep =>
      intro _ heap _ held
      exact held.loses heap.loses_sweep.1
    case clearMarks =>
      intro _ heap _ held
      exact held.congr (fun handle => view?_congr (heap.payloadAt_clearMarks handle)) fun handle =>
        (heap.issued_clearMarks handle).2
    case revise =>
      intro _ heap handle change revises held
      have aside {α : Type} (edited : Variant α) (different : Variant.classDef.type ≠ edited.type)
          (change : α → α) : (heap.update edited handle change).Descent :=
        held.congr (view?_update_of_ne different heap handle change)
          fun other => (heap.issued_modify handle _ other).2
      cases revises with
      | edit => exact held.edit _ handle _ apart
      | closeStream => exact aside .stream (by decide) _
      | capture => exact aside .upvalue (by decide) _
      | closeUpvalues => exact aside .upvalue (by decide) _
      | resolveParent => exact absurd rfl (single _ _)
      | resolvePending => exact absurd rfl (batch _)
    case stamp =>
      intro _ heap handle change _ held
      exact held.loses (heap.loses_modifyHeader handle change)
    case settle =>
      intro _ heap builtins links _ held
      exact held.congr (fun _ => rfl) fun _ issued => issued
    case report =>
      intro _ heap notice _ held
      exact held
  exact kept.performs descent

theorem Descent.perform {op : Operation} (descent : heap.Descent) (apart : ¬ op.SetsParent) :
    (op.perform heap).heap.Descent := by
  cases op with
  | resolveParent child parent => exact descent.resolveParent child parent
  | resolvePending registry => exact descent.resolvePending registry
  | _ => exact descent.perform_unlinked apart (by simp) (by simp)

end Heap

theorem History.descent_run (config : HeapConfig) {ops : List Operation}
    (apart : ∀ op ∈ ops, ¬ op.SetsParent) : (run config ops).heap.Descent :=
  after_keeps (·.heap.Descent) (Heap.descent_ofConfig config) fun _ op listed held =>
    held.perform (apart op listed)

/-- **Inheritance.** On any heap, whatever its links: linking a live class to a live class of the hash it
declares is refused as a cycle exactly if the parent is the class itself or links from live class to live
class lead from the parent to it; otherwise the class is linked, and nothing else changes. So after any
run in which the host itself gives no class a parent, no class descends from itself. -/
theorem inheritance_acyclic :
    (∀ (heap : Heap) (child parent : Handle) (childDef parentDef : ClassDef),
      heap.view? .classDef child = some childDef → heap.view? .classDef parent = some parentDef →
      parentDef.hash = childDef.parentHash →
      ((heap.resolveParent child parent).outcome = .error (.error .inheritanceCycle) ↔
        Relation.ReflTransGen heap.ChildOf parent child) ∧
      (Relation.ReflTransGen heap.ChildOf parent child →
        (heap.resolveParent child parent).heap = heap) ∧
      (¬ Relation.ReflTransGen heap.ChildOf parent child →
        (heap.resolveParent child parent).outcome = .ok () ∧
          heap.Links child parent childDef (heap.resolveParent child parent).heap)) ∧
    ∀ (config : HeapConfig) (ops : List Operation), (∀ op ∈ ops, ¬ op.SetsParent) →
      ∀ handle, ¬ Relation.TransGen (History.run config ops).heap.ChildOf handle handle := by
  constructor
  · intro heap child parent childDef parentDef childSeen parentSeen declared
    obtain ⟨descends, refused, unchanged⟩ | ⟨apart, granted, linked⟩ :=
      Heap.resolveParent_cases childSeen parentSeen declared
    · exact ⟨iff_of_true refused descends, fun _ => unchanged, fun apart => absurd descends apart⟩
    · refine ⟨iff_of_false ?_ apart, fun descends => absurd descends apart,
        fun _ => ⟨granted, linked⟩⟩
      rw [granted]
      simp
  · intro config ops apart
    exact (History.descent_run config apart).acyclic

/-- Two classes that declare each other as parents, the first of which is linked, and a third one in a
slot used before, which declares the second. -/
def kin : List Operation :=
  [.create .map, .create (.classOf 1), .create (.classOf 2),
    .edit .classDef ⟨⟨1, 0⟩⟩ fun (self : ClassDef) => { self with parentHash := 2 },
    .edit .classDef ⟨⟨2, 0⟩⟩ fun (self : ClassDef) => { self with parentHash := 1 },
    .resolveParent ⟨⟨1, 0⟩⟩ ⟨⟨2, 0⟩⟩, .free ⟨⟨0, 0⟩⟩, .create (.classOf 3),
    .edit .classDef ⟨⟨0, 1⟩⟩ fun (self : ClassDef) => { self with parentHash := 2 }]

/-- Linking the second would close a cycle, and linking the third does not. -/
theorem inheritance_kin :
    let heap := (History.run .default kin).heap
    (heap.resolveParent ⟨⟨2, 0⟩⟩ ⟨⟨1, 0⟩⟩).outcome = .error (.error .inheritanceCycle) ∧
      (heap.resolveParent ⟨⟨0, 1⟩⟩ ⟨⟨2, 0⟩⟩).outcome = .ok () ∧
      ¬ Relation.TransGen heap.ChildOf ⟨⟨1, 0⟩⟩ ⟨⟨1, 0⟩⟩ := by
  intro heap
  obtain ⟨linking, acyclic⟩ := inheritance_acyclic
  have link : heap.ChildOf ⟨⟨1, 0⟩⟩ ⟨⟨2, 0⟩⟩ := ⟨by decide, by decide⟩
  have apart : ¬ Relation.ReflTransGen heap.ChildOf ⟨⟨2, 0⟩⟩ ⟨⟨0, 1⟩⟩ := fun way =>
    absurd ((Heap.any_ancestors_iff (by decide)).2 way) (by decide)
  have cycle := linking heap ⟨⟨2, 0⟩⟩ ⟨⟨1, 0⟩⟩ _ _ rfl rfl (by decide)
  have granted := linking heap ⟨⟨0, 1⟩⟩ ⟨⟨2, 0⟩⟩ _ _ rfl rfl (by decide)
  exact ⟨cycle.1.2 (.single link), (granted.2.2 apart).1,
    acyclic .default kin (by simp [kin, Operation.SetsParent]) _⟩

end ScriptHeap
