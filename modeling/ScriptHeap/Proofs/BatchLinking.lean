import ScriptHeap.Proofs.ClosingLinks
import ScriptHeap.Proofs.Linking
import ScriptHeap.Table.Lemmas

/-! Linking in a batch. What becomes of each waiting class can be told from the heap before the batch: it
goes on waiting, or is refused for what it or its parent is, or it asks for a link and gets it unless it
is the last of a cycle to do so. So of two registries that hold the same classes in different orders one
links as many as the other, and refuses the same ones but for those that close cycles. -/
namespace ScriptHeap
open Relation

namespace ClassRegistry
variable {registry other : ClassRegistry} {heap : Heap} {child parent : Handle}

/-! ## What becomes of a waiting class -/

/-- The registered class that a class declares as its parent. -/
def sought? (registry : ClassRegistry) (heap : Heap) (child : Handle) : Option Handle :=
  (heap.parentHash? child).bind registry.get?

/-- A waiting class asks to be linked to a registered one that could be its parent, cycles aside. -/
def Attempts (registry : ClassRegistry) (heap : Heap) (child parent : Handle) : Prop :=
  child ∈ registry.pending heap ∧ registry.sought? heap child = some parent ∧
    heap.fits child parent = .ok ()

def Asks (registry : ClassRegistry) (heap : Heap) (child : Handle) : Prop :=
  ∃ parent, registry.Attempts heap child parent

/-- The links that there are, with all that are asked for. -/
def Graph (registry : ClassRegistry) (heap : Heap) (child parent : Handle) : Prop :=
  heap.ChildOf child parent ∨ registry.Attempts heap child parent

/-- A class is the last on its cycle to ask. -/
def ClosesCycle (registry : ClassRegistry) (heap : Heap) (child : Handle) : Prop :=
  Closes (registry.Graph heap) (registry.Asks heap) (registry.pending heap) child

theorem orphan_of_pending (waits : child ∈ registry.pending heap) :
    (heap.view? .classDef child).isSome = true ∧ heap.parentOf? child = none := by
  have pending := (List.mem_filter.mp waits).2
  obtain ⟨self, seen, waiting⟩ := (Option.any_eq_true ..).mp pending
  have orphaned := (Bool.and_eq_true_iff.mp waiting).2
  rw [Option.isNone_iff_eq_none] at orphaned
  exact ⟨by rw [seen]; rfl, by rw [Heap.parentOf?, seen]; exact orphaned⟩

theorem listed_of_asks (child : Handle) (asks : registry.Asks heap child) :
    child ∈ registry.pending heap := by
  obtain ⟨parent, waits, -⟩ := asks
  exact waits

/-- A class has one parent, or asks for one. -/
theorem rightUnique_graph (registry : ClassRegistry) (heap : Heap) :
    Relator.RightUnique (registry.Graph heap) := by
  rintro child parent parent' (link | asked) (link' | asked')
  · exact Option.some.inj (link.1.symm.trans link'.1)
  · rw [Heap.ChildOf, (orphan_of_pending asked'.1).2] at link
    cases link.1
  · rw [Heap.ChildOf, (orphan_of_pending asked.1).2] at link'
    cases link'.1
  · exact Option.some.inj (asked.2.1.symm.trans asked'.2.1)

open scoped Classical in
/-- What becomes of a class, if it is anything: a parent, or the reason why it is refused one. -/
noncomputable def verdict? (registry : ClassRegistry) (heap : Heap) (child : Handle) :
    Option (Except HeapError Handle) :=
  (registry.sought? heap child).map fun parent =>
    match heap.fits child parent with
    | .error cause => .error cause
    | .ok () => if registry.ClosesCycle heap child then .error .inheritanceCycle else .ok parent

theorem verdict?_cases (registry : ClassRegistry) (heap : Heap) (child : Handle) :
    (registry.sought? heap child = none ∧ registry.verdict? heap child = none) ∨
    ∃ parent, registry.sought? heap child = some parent ∧
      ((∃ cause, heap.fits child parent = .error cause ∧
          registry.verdict? heap child = some (.error cause)) ∨
        (heap.fits child parent = .ok () ∧ registry.ClosesCycle heap child ∧
          registry.verdict? heap child = some (.error .inheritanceCycle)) ∨
        (heap.fits child parent = .ok () ∧ ¬ registry.ClosesCycle heap child ∧
          registry.verdict? heap child = some (.ok parent))) := by
  rw [verdict?]
  cases registry.sought? heap child with
  | none => exact .inl ⟨rfl, rfl⟩
  | some parent =>
    refine .inr ⟨parent, rfl, ?_⟩
    rw [Option.map_some]
    cases heap.fits child parent with
    | error cause => exact .inl ⟨cause, rfl, rfl⟩
    | ok =>
      by_cases closes : registry.ClosesCycle heap child
      · exact .inr (.inl ⟨rfl, closes, congrArg some (if_pos closes)⟩)
      · exact .inr (.inr ⟨rfl, closes, congrArg some (if_neg closes)⟩)

/-- The link that a class gets. -/
noncomputable def joined? (registry : ClassRegistry) (heap : Heap) (child : Handle) :
    Option (Handle × Handle) :=
  match registry.verdict? heap child with
  | some (.ok parent) => some (child, parent)
  | _ => none

/-- The refusal that is noted of a class. -/
noncomputable def refused? (registry : ClassRegistry) (heap : Heap) (child : Handle) :
    Option (Handle × HeapError) :=
  match registry.verdict? heap child with
  | some (.error cause) => some (child, cause)
  | _ => none

theorem joined?_fst {link : Handle × Handle} (joined : registry.joined? heap child = some link) :
    link.1 = child := by
  rw [joined?] at joined
  split at joined <;> cases joined
  rfl

theorem refused?_fst {refusal : Handle × HeapError}
    (refused : registry.refused? heap child = some refusal) : refusal.1 = child := by
  rw [refused?] at refused
  split at refused <;> cases refused
  rfl

theorem joined?_eq_some_iff (waits : child ∈ registry.pending heap) {link : Handle × Handle} :
    registry.joined? heap child = some link ↔
      link.1 = child ∧ registry.Attempts heap child link.2 ∧ ¬ registry.ClosesCycle heap child := by
  obtain ⟨one, parent'⟩ := link
  rw [joined?, Attempts]
  rcases registry.verdict?_cases heap child with ⟨unknown, settled⟩ | ⟨parent, sought,
    ⟨cause, misfit, settled⟩ | ⟨fit, closes, settled⟩ | ⟨fit, opens, settled⟩⟩
  · simp [settled, unknown]
  · simp only [settled, sought, reduceCtorEq, Option.some.injEq, false_iff]
    rintro ⟨-, ⟨-, rfl, fit⟩, -⟩
    rw [misfit] at fit
    cases fit
  · simp [settled, closes]
  · simp only [settled, sought, opens, waits, Option.some.injEq, Prod.mk.injEq, true_and,
      not_false_eq_true, and_true]
    constructor
    · rintro ⟨rfl, rfl⟩
      exact ⟨rfl, rfl, fit⟩
    · rintro ⟨rfl, rfl, -⟩
      exact ⟨rfl, rfl⟩

theorem mem_joined {front : List Handle} (waiting : ∀ child ∈ front, child ∈ registry.pending heap) :
    (child, parent) ∈ front.filterMap (registry.joined? heap) ↔
      child ∈ front ∧ registry.Attempts heap child parent ∧ ¬ registry.ClosesCycle heap child := by
  rw [List.mem_filterMap]
  constructor
  · rintro ⟨one, listed, joined⟩
    obtain ⟨rfl, asks, opens⟩ := (joined?_eq_some_iff (waiting one listed)).mp joined
    exact ⟨listed, asks, opens⟩
  · rintro ⟨listed, asks, opens⟩
    exact ⟨child, listed, (joined?_eq_some_iff (waiting child listed)).mpr ⟨rfl, asks, opens⟩⟩

private theorem firsts_sublist {β : Type} {part : Handle → Option (Handle × β)}
    (own : ∀ child made, part child = some made → made.1 = child) (front : List Handle) :
    ((front.filterMap part).map Prod.fst).Sublist front := by
  induction front with
  | nil => exact .slnil
  | cons child front ih =>
    cases made : part child with
    | none =>
      rw [List.filterMap_cons_none made]
      exact ih.cons child
    | some pair =>
      rw [List.filterMap_cons_some made, List.map_cons, own child pair made]
      exact ih.cons_cons child

/-! ## A batch under way -/

/-- After the attempts for some classes the batch has come to what their verdicts say. -/
structure Reached (registry : ClassRegistry) (heap : Heap) (front : List Handle) (batch : Batch) :
    Prop where
  made : batch.heap = heap.linkAll (front.filterMap (registry.joined? heap))
  linked : batch.report.linked = (front.filterMap (registry.joined? heap)).length
  failed : batch.report.failed = front.filterMap (registry.refused? heap)

section
variable {front later : List Handle} {batch : Batch}

/-- The links that there are at that point. -/
private theorem Reached.childOf_iff (reached : registry.Reached heap front batch)
    (distinct : (registry.pending heap).Nodup) (early : front <+: registry.pending heap)
    (one two : Handle) : batch.heap.ChildOf one two ↔ registry.Graph heap one two ∧
      (registry.Asks heap one → one ∈ front ∧ ¬ registry.ClosesCycle heap one) := by
  have waiting : ∀ child ∈ front, child ∈ registry.pending heap := fun child listed =>
    early.subset listed
  rw [reached.made, Heap.childOf_linkAll, mem_joined waiting]
  · constructor
    · rintro (link | ⟨listed, asks, opens⟩)
      · refine ⟨.inl link, fun asks => ?_⟩
        rw [Heap.ChildOf, (orphan_of_pending (listed_of_asks one asks)).2] at link
        cases link.1
      · exact ⟨.inr asks, fun _ => ⟨listed, opens⟩⟩
    · rintro ⟨link | asks, made⟩
      · exact .inl link
      · obtain ⟨listed, opens⟩ := made ⟨two, asks⟩
        exact .inr ⟨listed, asks, opens⟩
  · apply List.Nodup.sublist _ (distinct.sublist early.sublist)
    exact firsts_sublist (fun _ _ => joined?_fst) front
  · rintro ⟨child, parent⟩ joined
    exact orphan_of_pending (waiting child ((mem_joined waiting).mp joined).1)
  · rintro ⟨child, parent⟩ joined
    exact Heap.isSome_view?_of_fits ((mem_joined waiting).mp joined).2.1.2.2

/-- One verdict more. -/
private theorem Reached.concat {next : Batch} (reached : registry.Reached heap front batch)
    (made : next.heap = batch.heap.linkAll (registry.joined? heap child).toList)
    (linked : next.report.linked =
      batch.report.linked + (registry.joined? heap child).toList.length)
    (failed : next.report.failed = batch.report.failed ++ (registry.refused? heap child).toList) :
    registry.Reached heap (front ++ [child]) next := by
  have appended {β : Type} (part : Handle → Option β) :
      (front ++ [child]).filterMap part = front.filterMap part ++ (part child).toList := by
    rw [List.filterMap_append]
    cases found : part child <;> simp [found]
  constructor
  · rw [made, reached.made, appended, Heap.linkAll, Heap.linkAll, Heap.linkAll, List.foldl_append]
  · rw [linked, reached.linked, appended, List.length_append]
  · rw [failed, reached.failed, appended]

/-- A class that asks in its turn is refused for a cycle exactly if it closes one. -/
private theorem Reached.mayLink (reached : registry.Reached heap front batch)
    (distinct : (registry.pending heap).Nodup) (split : registry.pending heap = front ++ child :: later)
    (asks : registry.Attempts heap child parent) :
    (registry.ClosesCycle heap child ∧
        batch.heap.mayLink child parent = .error .inheritanceCycle) ∨
      (¬ registry.ClosesCycle heap child ∧ batch.heap.mayLink child parent = .ok ()) := by
  have fit : batch.heap.fits child parent = .ok () := by
    rw [reached.made, Heap.fits_linkAll]
    exact asks.2.2
  have early : front <+: registry.pending heap := by
    rw [split]
    exact List.prefix_append ..
  have links := reached.childOf_iff distinct early
  rw [ClosesCycle, ← reached_iff_closes (rightUnique_graph registry heap) split distinct
    listed_of_asks links ⟨parent, asks⟩ (.inr asks)]
  exact Heap.mayLink_of_fits fit

/-- **One attempt.** A class that comes up in its turn gets what its verdict says. -/
theorem Reached.attempt (reached : registry.Reached heap front batch)
    (distinct : (registry.pending heap).Nodup) (split : registry.pending heap = front ++ child :: later) :
    registry.Reached heap (front ++ [child]) (registry.attempt batch child) := by
  have sought : (batch.heap.parentHash? child).bind registry.get? = registry.sought? heap child := by
    rw [reached.made, Heap.parentHash?_linkAll]
    rfl
  have waits : child ∈ registry.pending heap := by simp [split]
  rw [ClassRegistry.attempt, sought]
  rcases registry.verdict?_cases heap child with ⟨unknown, settled⟩ | ⟨parent, known,
    ⟨cause, misfit, settled⟩ | ⟨fit, closes, settled⟩ | ⟨fit, opens, settled⟩⟩
  · rw [unknown]
    apply reached.concat <;> simp [joined?, refused?, settled, Heap.linkAll]
  · have refused : batch.heap.mayLink child parent = .error cause := by
      apply Heap.mayLink_of_misfit
      rw [reached.made, Heap.fits_linkAll, misfit]
    simp only [known, refused]
    apply reached.concat <;> simp [joined?, refused?, settled, Heap.linkAll]
  · rcases reached.mayLink distinct split ⟨waits, known, fit⟩ with ⟨-, cycle⟩ | ⟨opens, -⟩
    · simp only [known, cycle]
      apply reached.concat <;> simp [joined?, refused?, settled, Heap.linkAll]
    · exact absurd closes opens
  · rcases reached.mayLink distinct split ⟨waits, known, fit⟩ with ⟨closes, -⟩ | ⟨-, free⟩
    · exact absurd closes opens
    · simp only [known, free, Heap.resolveParent]
      apply reached.concat <;> simp [joined?, refused?, settled, Heap.linkAll]

theorem Reached.foldl (reached : registry.Reached heap front batch)
    (distinct : (registry.pending heap).Nodup) (split : registry.pending heap = front ++ later) :
    registry.Reached heap (registry.pending heap) (later.foldl registry.attempt batch) := by
  induction later generalizing front batch with
  | nil =>
    rw [split, List.append_nil]
    exact reached
  | cons child later ih =>
    apply ih (reached.attempt distinct split)
    rw [split, List.append_assoc]
    rfl

end

/-! ## A whole batch -/

theorem nodup_pending (apart : registry.classes.values.Nodup) (heap : Heap) :
    (registry.pending heap).Nodup :=
  apart.filter _

/-- A batch comes to the verdicts of the waiting classes, in order of registration. -/
theorem resolvePending_eq (apart : registry.classes.values.Nodup) (heap : Heap) :
    (registry.resolvePending heap).outcome =
        .ok ⟨((registry.pending heap).filterMap (registry.joined? heap)).length,
          (registry.pending heap).filterMap (registry.refused? heap)⟩ ∧
      (registry.resolvePending heap).heap =
        heap.linkAll ((registry.pending heap).filterMap (registry.joined? heap)) := by
  have start : registry.Reached heap [] ⟨heap, ⟨0, []⟩, []⟩ := ⟨rfl, rfl, rfl⟩
  obtain ⟨made, linked, failed⟩ :=
    start.foldl (nodup_pending apart heap) (List.nil_append _).symm
  rw [← linked, ← failed]
  exact ⟨rfl, made⟩

/-- Every class whose declared parent is registered is linked or refused. -/
theorem length_settled (registry : ClassRegistry) (heap : Heap) (waiting : List Handle) :
    (waiting.filterMap (registry.joined? heap)).length +
        (waiting.filterMap (registry.refused? heap)).length =
      waiting.countP fun child => (registry.sought? heap child).isSome := by
  induction waiting with
  | nil => rfl
  | cons child waiting ih =>
    rw [List.countP_cons, ← ih]
    rcases registry.verdict?_cases heap child with ⟨unknown, settled⟩ | ⟨parent, known,
      ⟨cause, -, settled⟩ | ⟨-, -, settled⟩ | ⟨-, -, settled⟩⟩
    · simp [joined?, refused?, settled, unknown]
    · simp [joined?, refused?, settled, known]
      omega
    · simp [joined?, refused?, settled, known]
      omega
    · simp [joined?, refused?, settled, known]
      omega

/-- The refusal of a class that could not be linked, cycles aside. -/
def misfit? (registry : ClassRegistry) (heap : Heap) (child : Handle) : Option (Handle × HeapError) :=
  (registry.sought? heap child).bind fun parent =>
    match heap.fits child parent with
    | .error cause => some (child, cause)
    | .ok () => none

theorem filter_refused_misfits (registry : ClassRegistry) (heap : Heap) (waiting : List Handle) :
    (waiting.filterMap (registry.refused? heap)).filter (fun refusal => refusal.2 ≠ .inheritanceCycle) =
      waiting.filterMap (registry.misfit? heap) := by
  rw [List.filter_filterMap]
  apply List.filterMap_congr
  intro child _
  rw [refused?, misfit?]
  rcases registry.verdict?_cases heap child with ⟨unknown, settled⟩ | ⟨parent, known,
    ⟨cause, misfit, settled⟩ | ⟨fit, -, settled⟩ | ⟨fit, -, settled⟩⟩
  · simp [settled, unknown]
  · have other : cause ≠ .inheritanceCycle := by
      rintro rfl
      exact heap.fits_ne_cycle child parent misfit
    simp [settled, known, misfit, other, Option.filter]
  · simp [settled, known, fit, Option.filter]
  · simp [settled, known, fit]

theorem refused?_eq_cycle_iff : registry.refused? heap child = some (child, .inheritanceCycle) ↔
    registry.ClosesCycle heap child := by
  have asked (closes : registry.ClosesCycle heap child) : ∃ parent,
      registry.sought? heap child = some parent ∧ heap.fits child parent = .ok () := by
    obtain ⟨parent, -, asks⟩ := closes.asks
    exact ⟨parent, asks⟩
  rw [refused?]
  rcases registry.verdict?_cases heap child with ⟨unknown, settled⟩ | ⟨parent, known,
    ⟨cause, misfit, settled⟩ | ⟨fit, closes, settled⟩ | ⟨fit, opens, settled⟩⟩
  · simp only [settled, reduceCtorEq, false_iff]
    intro closes
    obtain ⟨parent, known, -⟩ := asked closes
    rw [unknown] at known
    cases known
  · simp only [settled, Option.some.injEq, Prod.mk.injEq, true_and]
    apply iff_of_false
    · rintro rfl
      exact heap.fits_ne_cycle child parent misfit
    · intro closes
      obtain ⟨parent', known', fit⟩ := asked closes
      cases known.symm.trans known'
      rw [misfit] at fit
      cases fit
  · simp [settled, closes]
  · simp [settled, opens]

open scoped Classical in
theorem filter_refused_cycles (registry : ClassRegistry) (heap : Heap) :
    ((registry.pending heap).filterMap (registry.refused? heap)).filter
        (fun refusal => refusal.2 = .inheritanceCycle) =
      ((registry.pending heap).filter fun child => registry.ClosesCycle heap child).map
        (·, .inheritanceCycle) := by
  rw [List.filter_filterMap, ← List.filterMap_eq_map, List.filterMap_filter]
  apply List.filterMap_congr
  intro child _
  by_cases closes : registry.ClosesCycle heap child
  · simp [refused?_eq_cycle_iff.mpr closes, closes, Option.filter]
  · simp only [closes, decide_false, Bool.false_eq_true, ↓reduceIte]
    cases refused : registry.refused? heap child with
    | none => rfl
    | some refusal =>
      have other : refusal.2 ≠ .inheritanceCycle := by
        intro same
        apply closes
        rw [← refused?_eq_cycle_iff, refused, ← refused?_fst refused, ← same]
      simp [Option.filter, other]

theorem mem_refused_cycle : (child, HeapError.inheritanceCycle) ∈
    (registry.pending heap).filterMap (registry.refused? heap) ↔ registry.ClosesCycle heap child := by
  rw [List.mem_filterMap, ← refused?_eq_cycle_iff]
  constructor
  · rintro ⟨one, -, refused⟩
    obtain rfl : child = one := refused?_fst refused
    exact refused
  · intro refused
    exact ⟨child, (refused?_eq_cycle_iff.mp refused).mem, refused⟩

open scoped Classical in
theorem length_refused (registry : ClassRegistry) (heap : Heap) :
    ((registry.pending heap).filterMap (registry.refused? heap)).length =
      ((registry.pending heap).filterMap (registry.misfit? heap)).length +
        ((registry.pending heap).filter fun child => registry.ClosesCycle heap child).length := by
  rw [← filter_refused_misfits, List.length_eq_length_filter_add fun refusal : Handle × HeapError =>
    decide (refusal.2 ≠ .inheritanceCycle)]
  simp only [decide_not, Bool.not_not]
  rw [filter_refused_cycles, List.length_map]

/-! ## Two orders -/

section
variable (same : registry.classes.entries.Perm other.classes.entries)
include same

theorem get?_perm : registry.get? = other.get? := by
  funext hash
  apply Option.ext
  intro handle
  rw [get?, get?, Table.get?_eq_some_iff, Table.get?_eq_some_iff, same.mem_iff]

theorem pending_perm (heap : Heap) : (registry.pending heap).Perm (other.pending heap) :=
  (same.map Prod.snd).filter heap.isPending

theorem sought?_perm (heap : Heap) : registry.sought? heap = other.sought? heap := by
  funext child
  rw [sought?, sought?, get?_perm same]

theorem attempts_perm (heap : Heap) : registry.Attempts heap = other.Attempts heap := by
  funext child parent
  rw [Attempts, Attempts, (pending_perm same heap).mem_iff, sought?_perm same]

theorem asks_perm (heap : Heap) : registry.Asks heap = other.Asks heap := by
  funext child
  rw [Asks, Asks, attempts_perm same]

theorem graph_perm (heap : Heap) : registry.Graph heap = other.Graph heap := by
  funext child parent
  rw [Graph, Graph, attempts_perm same]

theorem misfit?_perm (heap : Heap) : registry.misfit? heap = other.misfit? heap := by
  funext child
  rw [misfit?, misfit?, sought?_perm same]

open scoped Classical in
/-- No more links close cycles in one order than in the other. -/
theorem length_cycles_le (apart : registry.classes.values.Nodup)
    (apart' : other.classes.values.Nodup) (heap : Heap) :
    ((registry.pending heap).filter fun child => registry.ClosesCycle heap child).length ≤
      ((other.pending heap).filter fun child => other.ClosesCycle heap child).length := by
  have listed (child : Handle) (asks : registry.Asks heap child) : child ∈ other.pending heap := by
    rw [asks_perm same] at asks
    exact listed_of_asks child asks
  unfold ClosesCycle
  rw [← graph_perm same, ← asks_perm same]
  exact length_closing_le (rightUnique_graph registry heap) (nodup_pending apart heap)
    (nodup_pending apart' heap) listed_of_asks listed

/-- Where no link closes a cycle, the classes get the same parents. -/
theorem joined_perm (apart : registry.classes.values.Nodup) (apart' : other.classes.values.Nodup)
    (opens : ∀ child, ¬ registry.ClosesCycle heap child) :
    ((registry.pending heap).filterMap (registry.joined? heap)).Perm
      ((other.pending heap).filterMap (other.joined? heap)) := by
  classical
  have waiting := pending_perm same heap
  have opens' (child : Handle) : ¬ other.ClosesCycle heap child := by
    intro closes
    have bound := length_cycles_le same.symm apart' apart heap
    have none : ((registry.pending heap).filter fun child => registry.ClosesCycle heap child) = [] :=
      List.filter_eq_nil_iff.mpr fun child _ => by simpa using opens child
    rw [none] at bound
    have closing : child ∈ (other.pending heap).filter fun child => other.ClosesCycle heap child :=
      List.mem_filter.mpr ⟨closes.mem, decide_eq_true closes⟩
    exact absurd (List.length_pos_of_mem closing) (Nat.not_lt.mpr bound)
  have each : ∀ child ∈ registry.pending heap,
      registry.joined? heap child = other.joined? heap child := by
    intro child waits
    apply Option.ext
    intro link
    rw [joined?_eq_some_iff waits, joined?_eq_some_iff (waiting.mem_iff.mp waits),
      attempts_perm same]
    simp only [opens, opens']
  rw [List.filterMap_congr each]
  exact waiting.filterMap (other.joined? heap)

end

/-- Each class comes up once. -/
theorem nodup_firsts {β : Type} {part : Handle → Option (Handle × β)}
    (apart : registry.classes.values.Nodup) (heap : Heap)
    (own : ∀ child made, part child = some made → made.1 = child) :
    (((registry.pending heap).filterMap part).map Prod.fst).Nodup :=
  (firsts_sublist own (registry.pending heap)).nodup (nodup_pending apart heap)

end ClassRegistry

/-- **Batches do not depend on the order of registration.** On any heap, two registries that hold the same
classes under the same hashes, none of them twice, link equally many classes and refuse equally many, and
for other reasons than cycles the same ones for the same reasons. What is refused for a cycle is the class
that asks last among those on its cycle, in the graph of all links that there are and all that are asked
for; so it is one for each cycle with a class on it that asks. Where no cycle is met, both lead to the
same heap. -/
theorem resolvePending_order (heap : Heap) (registry other : ClassRegistry)
    (same : registry.classes.entries.Perm other.classes.entries)
    (apart : registry.classes.values.Nodup) :
    ∃ report report' : ResolveReport, (registry.resolvePending heap).outcome = .ok report ∧
      (other.resolvePending heap).outcome = .ok report' ∧
      report.linked = report'.linked ∧ report.failed.length = report'.failed.length ∧
      report.failed.Nodup ∧
      (report.failed.filter fun refusal => refusal.2 ≠ .inheritanceCycle).Perm
        (report'.failed.filter fun refusal => refusal.2 ≠ .inheritanceCycle) ∧
      (∀ child, (child, .inheritanceCycle) ∈ report.failed ↔ registry.ClosesCycle heap child) ∧
      (∀ member, TransGen (registry.Graph heap) member member →
        (∃ child, registry.Asks heap child ∧ TransGen (registry.Graph heap) member child) →
        ∃! child, (child, .inheritanceCycle) ∈ report.failed ∧
          TransGen (registry.Graph heap) member child) ∧
      ((∀ refusal ∈ report.failed, refusal.2 ≠ .inheritanceCycle) →
        (registry.resolvePending heap).heap = (other.resolvePending heap).heap) := by
  have apart' : other.classes.values.Nodup := (same.map Prod.snd).nodup_iff.mp apart
  obtain ⟨outcome, left⟩ := ClassRegistry.resolvePending_eq apart heap
  obtain ⟨outcome', left'⟩ := ClassRegistry.resolvePending_eq apart' heap
  have waiting := ClassRegistry.pending_perm same heap
  have cycles := Nat.le_antisymm (ClassRegistry.length_cycles_le same apart apart' heap)
    (ClassRegistry.length_cycles_le same.symm apart' apart heap)
  have misfits := waiting.filterMap (registry.misfit? heap)
  have refused : ((registry.pending heap).filterMap (registry.refused? heap)).length =
      ((other.pending heap).filterMap (other.refused? heap)).length := by
    rw [registry.length_refused, other.length_refused, cycles, misfits.length_eq,
      ClassRegistry.misfit?_perm same]
  refine ⟨_, _, outcome, outcome', ?_, refused,
    (ClassRegistry.nodup_firsts apart heap fun _ _ => ClassRegistry.refused?_fst).of_map Prod.fst, ?_,
    fun child => ClassRegistry.mem_refused_cycle, ?_, ?_⟩
  · have settled := registry.length_settled heap (registry.pending heap)
    have settled' := other.length_settled heap (other.pending heap)
    rw [waiting.countP_eq, ClassRegistry.sought?_perm same, ← settled', refused] at settled
    exact Nat.add_right_cancel settled
  · rw [ClassRegistry.filter_refused_misfits, ClassRegistry.filter_refused_misfits,
      ← ClassRegistry.misfit?_perm same]
    exact misfits
  · intro member round asks
    simp only [ClassRegistry.mem_refused_cycle]
    exact existsUnique_closes (registry.rightUnique_graph heap) ClassRegistry.listed_of_asks round asks
  · intro clean
    have opens (child : Handle) : ¬ registry.ClosesCycle heap child := by
      intro closes
      exact clean _ (ClassRegistry.mem_refused_cycle.mpr closes) rfl
    have joined := ClassRegistry.joined_perm same apart apart' opens
    rw [left, left']
    apply Heap.linkAll_perm joined
    exact ClassRegistry.nodup_firsts apart heap fun _ _ => ClassRegistry.joined?_fst

/-- Two classes that declare each other as parents, and one that declares the first of them. -/
def entwined : Heap :=
  (History.run .default
    [.create (.classOf 1), .create (.classOf 2), .create (.classOf 3),
      .edit .classDef ⟨⟨0, 0⟩⟩ fun (self : ClassDef) => { self with parentHash := 2 },
      .edit .classDef ⟨⟨1, 0⟩⟩ fun (self : ClassDef) => { self with parentHash := 1 },
      .edit .classDef ⟨⟨2, 0⟩⟩ fun (self : ClassDef) => { self with parentHash := 1 }]).heap

def ascending : ClassRegistry := ⟨⟨[(1, ⟨⟨0, 0⟩⟩), (2, ⟨⟨1, 0⟩⟩), (3, ⟨⟨2, 0⟩⟩)], by decide⟩⟩

def descending : ClassRegistry := ⟨⟨[(3, ⟨⟨2, 0⟩⟩), (2, ⟨⟨1, 0⟩⟩), (1, ⟨⟨0, 0⟩⟩)], by decide⟩⟩

/-- The one of the two that is registered later closes the cycle; the other and the third are linked. -/
theorem resolvePending_entwined :
    (ascending.resolvePending entwined).outcome = .ok ⟨2, [(⟨⟨1, 0⟩⟩, .inheritanceCycle)]⟩ ∧
      ascending.ClosesCycle entwined ⟨⟨1, 0⟩⟩ ∧
      (descending.resolvePending entwined).outcome = .ok ⟨2, [(⟨⟨0, 0⟩⟩, .inheritanceCycle)]⟩ ∧
      descending.ClosesCycle entwined ⟨⟨0, 0⟩⟩ := by
  have up : (ascending.resolvePending entwined).outcome =
      .ok ⟨2, [(⟨⟨1, 0⟩⟩, .inheritanceCycle)]⟩ := by decide
  have down : (descending.resolvePending entwined).outcome =
      .ok ⟨2, [(⟨⟨0, 0⟩⟩, .inheritanceCycle)]⟩ := by decide
  have same : ascending.classes.entries.Perm descending.classes.entries := by decide
  obtain ⟨report, -, first, -, -, -, -, -, closes, -⟩ :=
    resolvePending_order entwined ascending descending same (by decide)
  obtain ⟨report', -, second, -, -, -, -, -, closes', -⟩ :=
    resolvePending_order entwined descending ascending same.symm (by decide)
  cases up.symm.trans first
  cases down.symm.trans second
  exact ⟨up, (closes _).mp (by simp), down, (closes' _).mp (by simp)⟩

end ScriptHeap
