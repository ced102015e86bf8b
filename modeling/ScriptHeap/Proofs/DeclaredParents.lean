import ScriptHeap.Proofs.BatchCourse

/-! Parents as they are declared. A class is linked only to a class that has the hash it declares, and where
hashes stay as they are and declarations are not changed behind a link, that remains so, as long as no
handle is issued a second time, as it is in words once a slot was vacated 2^32 times. Hash zero declares
no parent, but it is the hash of a class like any other: linking in batches leaves classes alone that declare
none, while linking a single class compares the two hashes and nothing else. -/
namespace ScriptHeap

/-- Where the host edits a class, its hash stays, and what it declares stays once it has a parent. -/
def Operation.KeepsDeclarations (heap : Heap) : Operation → Prop
  | .edit .classDef target change => ∀ self : ClassDef, heap.view? .classDef target = some self →
    (change self).hash = self.hash ∧ (self.parent ≠ none → (change self).parentHash = self.parentHash)
  | _ => True

/-- Where the host links a single class, this is one that declares a parent. -/
def Operation.AsksFirst (heap : Heap) : Operation → Prop
  | .resolveParent child _ => heap.parentHash? child ≠ some 0
  | _ => True

namespace Heap
variable {heap middle rest : Heap} {child parent handle one other : Handle} {self : ClassDef}

/-- Whatever a class is linked to was issued at some time, and if it is a class now, it is one that has the
declared hash. -/
structure LinksDeclared (heap : Heap) : Prop where
  issued : ∀ child parent, heap.parentOf? child = some parent → heap.Issued parent
  hashes : ∀ child childDef parent parentDef, heap.view? .classDef child = some childDef →
    childDef.parent = some parent → heap.view? .classDef parent = some parentDef →
    childDef.parentHash = parentDef.hash

/-- Classes that declare no parent have none. -/
def LinksIfDeclared (heap : Heap) : Prop :=
  ∀ child self, heap.view? .classDef child = some self → self.parent ≠ none → self.parentHash ≠ 0

/-- No link has come, the links that are left have been declared as they are now, and no class that there was
has another hash. -/
structure Upholds (heap rest : Heap) : Prop where
  links : ∀ child self parent, rest.view? .classDef child = some self → self.parent = some parent →
    ∃ before, heap.view? .classDef child = some before ∧ before.parent = some parent ∧
      before.parentHash = self.parentHash
  hashes : ∀ handle self, heap.Issued handle → rest.view? .classDef handle = some self →
    ∃ before, heap.view? .classDef handle = some before ∧ before.hash = self.hash
  issued : ∀ handle, heap.Issued handle → rest.Issued handle

namespace Upholds

theorem of_fewer
    (classes : ∀ handle self, rest.view? .classDef handle = some self →
      heap.view? .classDef handle = some self)
    (issued : ∀ handle, heap.Issued handle → rest.Issued handle) : heap.Upholds rest where
  links child self _ seen linked := ⟨self, classes child self seen, linked, rfl⟩
  hashes handle self _ seen := ⟨self, classes handle self seen, rfl⟩
  issued := issued

theorem refl (heap : Heap) : heap.Upholds heap := of_fewer (fun _ _ seen => seen) fun _ issued => issued

theorem trans (first : heap.Upholds middle) (second : middle.Upholds rest) : heap.Upholds rest where
  links child self parent seen linked := by
    obtain ⟨between, seen, linked, declared⟩ := second.links child self parent seen linked
    obtain ⟨before, seen, linked, declared'⟩ := first.links child between parent seen linked
    exact ⟨before, seen, linked, declared'.trans declared⟩
  hashes handle self issued seen := by
    obtain ⟨between, seen, same⟩ := second.hashes handle self (first.issued handle issued) seen
    obtain ⟨before, seen, same'⟩ := first.hashes handle between issued seen
    exact ⟨before, seen, same'.trans same⟩
  issued handle held := second.issued handle (first.issued handle held)

theorem loses {gone : List Handle} (loses : heap.Loses gone rest) : heap.Upholds rest := by
  refine of_fewer (fun handle self seen => ?_) fun handle => (loses.issued handle).2
  rw [view?_of_loses loses] at seen
  split at seen
  · cases seen
  · exact seen

/-- A new class has no parent, and the handle that it gets is nobody's parent. -/
theorem grown {payload : Payload} (dispatch : Option Handle)
    (orphaned : (Variant.classDef.project payload).bind (·.parent) = none) :
    heap.Upholds (heap.grown payload dispatch) where
  links child self parent seen linked := by
    rw [view?_grown] at seen
    split at seen
    · rw [seen, Option.bind_some, linked] at orphaned
      cases orphaned
    · exact ⟨self, seen, linked, rfl⟩
  hashes handle self issued seen := by
    rw [view?_grown, if_neg (ne_nextHandle issued)] at seen
    exact ⟨self, seen, rfl⟩
  issued handle held := issued_grown.2 (.inr held)

/-- An edit by the host that gives no class a parent and keeps what classes declare. -/
theorem edit (type : ObjectType) (target : Handle)
    (change : Variant.Data type → Variant.Data type)
    (apart : ¬ (Operation.edit type target change).SetsParent)
    (keeps : (Operation.edit type target change).KeepsDeclarations heap) :
    heap.Upholds (heap.update (.ofType type) target change) := by
  have issued (handle : Handle) (held : heap.Issued handle) :
      (heap.update (.ofType type) target change).Issued handle :=
    (heap.issued_modify target _ handle).2 held
  cases type with
  | classDef =>
    have views (handle : Handle) := heap.view?_update .classDef target change handle
    have same (before : ClassDef) (linked : (change before).parent ≠ none) :
        (change before).parent = before.parent := by
      by_contra other
      exact apart ⟨before, linked, other⟩
    constructor
    case links =>
      intro child self parent seen linked
      rw [show Variant.ofType .classDef = Variant.classDef from rfl, views] at seen
      split at seen
      · next here =>
        obtain ⟨before, there, rfl⟩ := Option.map_eq_some_iff.1 seen
        have kept := same before (by rw [linked]; simp)
        rw [linked] at kept
        refine ⟨before, by rw [here, there], kept.symm, ((keeps before there).2 ?_).symm⟩
        rw [← kept]
        simp
      · exact ⟨self, seen, linked, rfl⟩
    case hashes =>
      intro handle self _ seen
      rw [show Variant.ofType .classDef = Variant.classDef from rfl, views] at seen
      split at seen
      · next here =>
        obtain ⟨before, there, rfl⟩ := Option.map_eq_some_iff.1 seen
        exact ⟨before, by rw [here, there], (keeps before there).1.symm⟩
      · exact ⟨self, seen, rfl⟩
    case issued => exact issued
  | _ =>
    refine of_fewer (fun handle self seen => ?_) issued
    rwa [view?_update_of_ne (by decide) heap target change] at seen

/-- What is done to an object that is not a class. -/
theorem update_aside {α : Type} (edited : Variant α) (different : Variant.classDef.type ≠ edited.type)
    (target : Handle) (change : α → α) : heap.Upholds (heap.update edited target change) := by
  refine of_fewer (fun handle self seen => ?_) fun handle => (heap.issued_modify target _ handle).2
  rwa [view?_update_of_ne different heap target change] at seen

/-- Every operation but linking and editing. -/
private theorem perform_unlinked {op : Operation} (apart : ¬ op.SetsParent)
    (single : ∀ child parent, op ≠ .resolveParent child parent)
    (batch : ∀ registry, op ≠ .resolvePending registry)
    (direct : ∀ type target change, op ≠ .edit type target change) :
    heap.Upholds (op.perform heap).heap := by
  have kept : op.Preserves fun _ rest => heap.Upholds rest := by
    constructor
    case allocate =>
      intro _ rest payload dispatch allocates held
      obtain ⟨failure, told, -, refused⟩ | granted := rest.allocateWith_cases payload dispatch
      · rw [Step.Leaves, refused]
        exact held
      · rw [Step.Leaves, granted]
        exact held.trans (.grown dispatch (allocates.orphaned apart))
    case free =>
      intro _ rest target _ held
      exact held.trans (.loses (rest.loses_free target).1)
    case sweep =>
      intro _ rest _ held
      exact held.trans (.loses rest.loses_sweep.1)
    case clearMarks =>
      intro _ rest _ held
      refine held.trans (of_fewer (fun handle self seen => ?_) fun handle => (rest.issued_clearMarks handle).2)
      rwa [view?_congr (rest.payloadAt_clearMarks handle)] at seen
    case revise =>
      intro _ rest handle change revises held
      refine held.trans ?_
      cases revises with
      | edit => exact absurd rfl (direct _ _ _)
      | closeStream => exact update_aside .stream (by decide) handle _
      | capture => exact update_aside .upvalue (by decide) handle _
      | closeUpvalues => exact update_aside .upvalue (by decide) handle _
      | resolveParent => exact absurd rfl (single _ _)
      | resolvePending => exact absurd rfl (batch _)
    case stamp =>
      intro _ rest handle change _ held
      exact held.trans (.loses (rest.loses_modifyHeader handle change))
    case settle =>
      intro _ rest builtins links _ held
      exact held.trans (of_fewer (fun _ _ seen => seen) fun _ issued => issued)
    case report =>
      intro _ rest notice _ held
      exact held
  exact kept.performs (.refl heap)

/-- Every operation but linking. -/
theorem perform {op : Operation} (apart : ¬ op.SetsParent) (keeps : op.KeepsDeclarations heap)
    (single : ∀ child parent, op ≠ .resolveParent child parent)
    (batch : ∀ registry, op ≠ .resolvePending registry) : heap.Upholds (op.perform heap).heap := by
  cases op with
  | edit type target change => exact .edit type target change apart keeps
  | _ => exact perform_unlinked apart single batch (by simp)

end Upholds

/-! ## What is upheld -/

theorem LinksDeclared.upheld (declared : heap.LinksDeclared) (upholds : heap.Upholds rest) :
    rest.LinksDeclared where
  issued child parent linked := by
    obtain ⟨self, seen, linked⟩ := Option.bind_eq_some_iff.1 linked
    obtain ⟨before, there, link, -⟩ := upholds.links child self parent seen linked
    refine upholds.issued parent (declared.issued child parent ?_)
    rw [parentOf?, there]
    exact link
  hashes child childDef parent parentDef seen linked met := by
    obtain ⟨before, there, link, same⟩ := upholds.links child childDef parent seen linked
    have issued := declared.issued child parent (by rw [parentOf?, there]; exact link)
    obtain ⟨was, stood, hash⟩ := upholds.hashes parent parentDef issued met
    rw [← same, ← hash, declared.hashes child before parent was there link stood]

theorem LinksIfDeclared.upheld (linksIf : heap.LinksIfDeclared) (upholds : heap.Upholds rest) :
    rest.LinksIfDeclared := by
  intro child self seen linked
  obtain ⟨parent, linked⟩ := Option.ne_none_iff_exists'.mp linked
  obtain ⟨before, there, link, same⟩ := upholds.links child self parent seen linked
  rw [← same]
  exact linksIf child before there (by rw [link]; simp)

/-! ## Links -/

/-- A link that is allowed is one to a class of the declared hash. -/
theorem declared_of_mayLink (granted : heap.mayLink child parent = .ok ()) :
    ∃ childDef parentDef, heap.view? .classDef child = some childDef ∧
      heap.view? .classDef parent = some parentDef ∧ childDef.parentHash = parentDef.hash := by
  have fit := fits_of_mayLink granted
  rw [fits] at fit
  split at fit
  · cases fit
  · next childDef childSeen =>
    split at fit
    · cases fit
    · next parentDef parentSeen =>
      refine ⟨childDef, parentDef, expect_eq_ok_iff.1 childSeen, expect_eq_ok_iff.1 parentSeen, ?_⟩
      by_contra different
      rw [if_pos different] at fit
      cases fit

/-- A link changes the parent of one class and no hash. -/
theorem view?_link_cases (seen : (heap.link child parent).view? .classDef handle = some self) :
    ∃ before, heap.view? .classDef handle = some before ∧ before.hash = self.hash ∧
      before.parentHash = self.parentHash ∧
      (self.parent = before.parent ∨ handle = child ∧ self.parent = some parent) := by
  rw [link, view?_update] at seen
  split at seen
  · next same =>
    obtain ⟨before, there, rfl⟩ := Option.map_eq_some_iff.1 seen
    exact ⟨before, by rw [same, there], rfl, rfl, .inr ⟨same, rfl⟩⟩
  · exact ⟨self, seen, rfl, rfl, .inl rfl⟩

theorem LinksDeclared.link (declared : heap.LinksDeclared)
    (granted : heap.mayLink child parent = .ok ()) : (heap.link child parent).LinksDeclared := by
  obtain ⟨childDef, parentDef, childSeen, parentSeen, agree⟩ := declared_of_mayLink granted
  constructor
  · intro one other linked
    refine (heap.issued_modify child _ other).2 ?_
    rw [parentOf?_link] at linked
    split at linked
    · obtain ⟨_, _, rfl⟩ := Option.map_eq_some_iff.1 linked
      exact issued_of_contains (contains_of_view? (by rw [parentSeen]; rfl))
    · exact declared.issued one other linked
  · intro one oneDef other otherDef seen linked met
    obtain ⟨before, there, -, same, way⟩ := view?_link_cases seen
    obtain ⟨was, stood, hash, -, -⟩ := view?_link_cases met
    rw [← same, ← hash]
    rcases way with kept | ⟨rfl, new⟩
    · exact declared.hashes one before other was there (kept.symm.trans linked) stood
    · obtain rfl : parent = other := Option.some.inj (new.symm.trans linked)
      rw [childSeen] at there
      rw [parentSeen] at stood
      cases there
      cases stood
      exact agree

theorem LinksIfDeclared.link (linksIf : heap.LinksIfDeclared) (declares : heap.parentHash? child ≠ some 0)
    (parent : Handle) : (heap.link child parent).LinksIfDeclared := by
  intro one self seen linked
  obtain ⟨before, there, -, same, way⟩ := view?_link_cases seen
  rw [← same]
  rcases way with kept | ⟨rfl, -⟩
  · exact linksIf one before there (kept ▸ linked)
  · rw [parentHash?, there] at declares
    exact fun none => declares (congrArg some none)

end Heap

/-- A batch links classes that wait, and these declare a parent. -/
theorem ClassRegistry.Course.upholds {registry : ClassRegistry} {heap last : Heap} {waiting : List Handle}
    {linked : List (Handle × Handle)} {failed : List (Handle × HeapError)}
    (course : registry.Course heap waiting linked failed last)
    (declares : ∀ child ∈ waiting, heap.parentHash? child ≠ some 0) :
    (heap.LinksDeclared → last.LinksDeclared) ∧ (heap.LinksIfDeclared → last.LinksIfDeclared) := by
  induction course with
  | done => exact ⟨id, id⟩
  | passed _ _ ih => exact ih fun child listed => declares child (List.mem_cons_of_mem _ listed)
  | refused _ _ _ ih => exact ih fun child listed => declares child (List.mem_cons_of_mem _ listed)
  | linked _ granted _ ih =>
    obtain ⟨first, second⟩ := ih fun child listed => by
      rw [Heap.parentHash?_link]
      exact declares child (List.mem_cons_of_mem _ listed)
    exact ⟨fun held => first (held.link granted),
      fun held => second (held.link (declares _ List.mem_cons_self) _)⟩

namespace Heap
variable {heap : Heap}

theorem declares_of_pending {registry : ClassRegistry} {child : Handle}
    (waits : child ∈ registry.pending heap) : heap.parentHash? child ≠ some 0 := by
  have pending : heap.isPending child = true := (List.mem_filter.1 waits).2
  rw [isPending] at pending
  rw [parentHash?]
  cases seen : heap.view? .classDef child with
  | none => simp
  | some self =>
    rw [seen] at pending
    intro none
    simp_all [ClassDef.isPending]

theorem LinksDeclared.perform {op : Operation} (declared : heap.LinksDeclared) (apart : ¬ op.SetsParent)
    (keeps : op.KeepsDeclarations heap) : (op.perform heap).heap.LinksDeclared := by
  cases op with
  | resolveParent child parent =>
    rw [Operation.perform, resolveParent]
    split
    · exact declared
    · next granted => exact declared.link granted
  | resolvePending registry =>
    obtain ⟨linked, failed, course, -⟩ := registry.resolvePending_course heap
    exact (course.upholds fun _ => declares_of_pending).1 declared
  | _ => exact declared.upheld (.perform apart keeps (by simp) (by simp))

/-- A single class has to be asked whether it declares a parent, before it is linked. -/
theorem LinksIfDeclared.perform {op : Operation} (linksIf : heap.LinksIfDeclared) (apart : ¬ op.SetsParent)
    (keeps : op.KeepsDeclarations heap) (asks : op.AsksFirst heap) :
    (op.perform heap).heap.LinksIfDeclared := by
  cases op with
  | resolveParent child parent =>
    rw [Operation.perform, resolveParent]
    split
    · exact linksIf
    · exact linksIf.link asks parent
  | resolvePending registry =>
    obtain ⟨linked, failed, course, -⟩ := registry.resolvePending_course heap
    exact (course.upholds fun _ => declares_of_pending).2 linksIf
  | _ => exact linksIf.upheld (.perform apart keeps (by simp) (by simp))

/-- A class without a parent has no other ancestor than itself. -/
theorem ancestors_of_orphan {child : Handle} {self : ClassDef}
    (seen : heap.view? .classDef child = some self) (orphan : self.parent = none) :
    heap.ancestors child = [(child, self)] := by
  have counted : [child].length ≤ heap.objectCount :=
    heap.atMost_view? .classDef [child] (List.nodup_singleton child) (by simp [seen])
  obtain ⟨limit, count⟩ := Nat.exists_eq_succ_of_ne_zero (Nat.ne_of_gt counted)
  rw [ancestors, count, trail, seen]
  cases limit <;> simp [trail, orphan]

end Heap

/-! ## Whole runs -/

namespace History

theorem view?_start (config : HeapConfig) (handle : Handle) :
    (start config).heap.view? .classDef handle = none := by
  simp [start, Heap.create, Heap.view?, Heap.get?, Heap.ofConfig]

section
variable (config : HeapConfig) {ops : List Operation} (apart : ∀ op ∈ ops, ¬ op.SetsParent)
  (keeps : (start config).Throughout (fun heap op => op.KeepsDeclarations heap) ops)
include apart keeps

theorem linksDeclared_run : (run config ops).heap.LinksDeclared := by
  refine keeps.keeps ⟨?_, ?_⟩ fun _ op listed kept held => held.perform (apart op listed) kept
  · intro child parent linked
    rw [Heap.parentOf?, view?_start] at linked
    cases linked
  · intro child childDef parent parentDef seen
    rw [view?_start] at seen
    cases seen

theorem linksIfDeclared_run
    (asks : (start config).Throughout (fun heap op => op.AsksFirst heap) ops) :
    (run config ops).heap.LinksIfDeclared := by
  refine (keeps.and asks).keeps ?_ fun _ op listed kept held =>
    held.perform (apart op listed) kept.1 kept.2
  intro child self seen
  rw [view?_start] at seen
  cases seen

end

/-- **Declared parents.** In a run the host gives no class a parent itself, leaves hashes alone, and changes
what a class declares only while that has no parent. As long as every handle issued fits into words, any
class that is found by the words of another's parent has the hash that the other declares, whatever was
freed and whatever slots were used again. If moreover classes that declare none are not linked singly, every
class that is linked declares a parent, and one that declares none has no ancestor but itself; for batches
leave such classes alone. -/
theorem declaredParents_run (config : HeapConfig) {ops : List Operation}
    (apart : ∀ op ∈ ops, ¬ op.SetsParent)
    (keeps : (start config).Throughout (fun heap op => op.KeepsDeclarations heap) ops) :
    let past := run config ops
    (past.Unwrapped → ∀ child childDef parent found foundDef,
        past.heap.view? .classDef child = some childDef → childDef.parent = some parent →
        past.heap.view? .classDef found = some foundDef → found.words = parent.words →
        childDef.parentHash = foundDef.hash) ∧
      ((start config).Throughout (fun heap op => op.AsksFirst heap) ops →
        ∀ child self, past.heap.view? .classDef child = some self →
          (self.parent ≠ none → self.parentHash ≠ 0) ∧
            (self.parentHash = 0 → past.heap.ancestors child = [(child, self)])) := by
  intro past
  constructor
  · intro unwrapped child childDef parent found foundDef seen linked met same
    have declared : past.heap.LinksDeclared := linksDeclared_run config apart keeps
    have issued := declared.issued child parent (by rw [Heap.parentOf?, seen]; exact linked)
    have live : past.heap.contains found = true := Heap.contains_of_view? (by rw [met]; rfl)
    -- Both have been issued, so they are one handle and not two with the same words.
    have account := (sound_run config ops).issued
    obtain rfl : found = parent := (unwrapped.words_inj
      ((account found).2 (Heap.issued_of_contains live)) ((account parent).2 issued)).1 same
    exact declared.hashes child childDef found foundDef seen linked met
  · intro asks child self seen
    have linksIf : past.heap.LinksIfDeclared := linksIfDeclared_run config apart keeps asks
    refine ⟨linksIf child self seen, fun none => Heap.ancestors_of_orphan seen ?_⟩
    by_contra linked
    exact linksIf child self seen linked none

/-- A class that declares another as its parent is linked to it in a batch, and one that declares none is
passed by, though a class of hash zero is registered. -/
def heirs : List Operation :=
  [.create (.classOf 1), .create (.classOf 0),
    .edit .classDef ⟨⟨1, 0⟩⟩ fun (self : ClassDef) => { self with parentHash := 1 },
    .resolvePending ⟨⟨[(1, ⟨⟨0, 0⟩⟩), (0, ⟨⟨1, 0⟩⟩)], by decide⟩⟩]

theorem declaredParents_heirs :
    let past := run .default heirs
    past.Unwrapped ∧
      (past.heap.view? .classDef ⟨⟨1, 0⟩⟩).map (·.parentHash) =
        (past.heap.view? .classDef ⟨⟨0, 0⟩⟩).map (·.hash) ∧
      (past.heap.ancestors ⟨⟨0, 0⟩⟩).map Prod.fst = [⟨⟨0, 0⟩⟩] := by
  intro past
  have unwrapped : past.Unwrapped := by decide
  have orphan (self : ClassDef) (seen : (run .default (heirs.take 2)).heap.view? .classDef ⟨⟨1, 0⟩⟩ =
      some self) : self.parent = none := by
    cases seen
    rfl
  have keeps : (start .default).Throughout (fun heap op => op.KeepsDeclarations heap) heirs :=
    ⟨trivial, trivial, fun self seen => ⟨rfl, fun linked => absurd (orphan self seen) linked⟩, trivial,
      trivial⟩
  obtain ⟨agree, alone⟩ := declaredParents_run .default (by simp [heirs, Operation.SetsParent]) keeps
  have first : past.heap.view? .classDef ⟨⟨0, 0⟩⟩ = some (.ofHash 1) := rfl
  have second : past.heap.view? .classDef ⟨⟨1, 0⟩⟩ =
      some { ClassDef.ofHash 0 with parentHash := 1, parent := some ⟨⟨0, 0⟩⟩ } := rfl
  refine ⟨unwrapped, ?_, ?_⟩
  · rw [first, second, Option.map_some, Option.map_some, agree unwrapped _ _ _ _ _ second rfl first rfl]
  · rw [(alone ⟨trivial, trivial, trivial, trivial, trivial⟩ _ _ first).2 rfl]
    rfl

/-- Two classes of hash zero that declare no parent, the first of which is linked to the second. -/
def zeroes : List Operation :=
  [.create (.classOf 0), .create (.classOf 0), .resolveParent ⟨⟨0, 0⟩⟩ ⟨⟨1, 0⟩⟩]

/-- A class that declares no parent gets one, and has an ancestor besides itself. -/
theorem undeclared_zeroes :
    let heap := (run .default zeroes).heap
    (∀ op ∈ zeroes, ¬ op.SetsParent) ∧
      (start .default).Throughout (fun heap op => op.KeepsDeclarations heap) zeroes ∧
      heap.parentHash? ⟨⟨0, 0⟩⟩ = some 0 ∧ heap.parentOf? ⟨⟨0, 0⟩⟩ = some ⟨⟨1, 0⟩⟩ ∧
      heap.contains ⟨⟨1, 0⟩⟩ = true ∧
      (heap.ancestors ⟨⟨0, 0⟩⟩).map Prod.fst = [⟨⟨0, 0⟩⟩, ⟨⟨1, 0⟩⟩] :=
  ⟨by simp [zeroes, Operation.SetsParent], ⟨trivial, trivial, trivial, trivial⟩, by decide, by decide,
    by decide, by decide⟩

end History
end ScriptHeap
