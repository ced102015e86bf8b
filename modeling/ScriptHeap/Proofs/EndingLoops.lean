import ScriptHeap.Classes.Registry
import ScriptHeap.Proofs.LoopRounds
import ScriptHeap.Proofs.Linking
import ScriptHeap.Proofs.NearestDefinition

/-! Loops along links end, wherever the links lead. The host can write the links of the chain, of the list
of open upvalues and of parents so that they run in rings, and nothing is asked of them here. The operations
that follow them are written with their loops unbounded; each comes to what it gives in the model, and the
rounds that it takes are counted by objects, marks and open upvalues, whatever the length of a chain. -/
namespace ScriptHeap

/-! ## Operations without bounds

The operations that follow links, with their loops as they are. -/

namespace Looped
open Unbounded

def sweep (heap : Heap) : Unbounded (Step SweepStats) :=
  andThen (loop Sweep.visit (.start heap)) fun walk => done (Sweep.conclude walk)

def closeUpvalues (heap : Heap) (head : Option Handle) (lowest : Nat) (stack : Stack) :
    Unbounded (Step (Option Handle)) :=
  loop (Heap.closing lowest stack) (heap, head)

def ancestors (heap : Heap) (start : Handle) : Unbounded (List (Handle × ClassDef)) :=
  loop heap.gather (heap.line start, [])

/-- What the first class in line gives of those that give anything. -/
def search {α : Type} (heap : Heap) (start : Handle) (gives : Handle × ClassDef → Option α) :
    Unbounded (Option α) :=
  loop (heap.seek gives) (heap.line start)

def findMethod (heap : Heap) (start : Handle) (name : NameHash) : Unbounded (Option Value) :=
  search heap start (·.2.methods.get? name)

def findFieldDefault (heap : Heap) (start : Handle) (name : NameHash) : Unbounded (Option Value) :=
  search heap start (·.2.fields.get? name)

def findInitializer (heap : Heap) (start : Handle) : Unbounded (Option Value) :=
  search heap start fun ancestor =>
    if ancestor.2.hasInitializer then some ancestor.2.initializer else none

def methodProperty (heap : Heap) (start : Handle) (name : NameHash) : Unbounded Property :=
  andThen (findMethod heap start name) fun found => done ((found.map .method).getD .notFound)

def dispatchProperty (heap : Heap) (object : Object) (name : NameHash) : Unbounded Property :=
  match object.header.dispatch with
  | some start => methodProperty heap start name
  | none => done .notFound

def instanceProperty (heap : Heap) (object : Object) (self : ClassInstance) (name : NameHash) :
    Unbounded Property :=
  match self.fields.get? name with
  | some value => done (.field value)
  | none =>
    match object.header.dispatch with
    | none => done .notFound
    | some start =>
      andThen (findFieldDefault heap start name) fun
        | some value => done (.field value)
        | none => methodProperty heap start name

def lookup (heap : Heap) (receiver : Value) (name : NameHash) : Unbounded Property :=
  match receiver with
  | .object handle =>
    match heap.get? handle with
    | none => done .notFound
    | some object =>
      match object.payload with
      | .classInstance self => instanceProperty heap object self name
      | .nameSpace space => done (((space.fields.get? name).map .field).getD .notFound)
      | .classDef _ => methodProperty heap handle name
      | _ => dispatchProperty heap object name
  | _ => done .notFound

/-- Links a class to its parent, after the ancestors of the parent have been searched for the class. -/
def resolveParent (heap : Heap) (child parent : Handle) : Unbounded (Step Unit) :=
  match heap.fits child parent with
  | .error cause => done (Step.fail heap cause)
  | .ok () =>
    andThen (search heap parent fun ancestor => if ancestor.1 == child then some () else none) fun met =>
      done <|
        if met.isSome then Step.fail heap .inheritanceCycle
        else
          { outcome := .ok ()
            heap := heap.link child parent
            notices := [.logged (.parentResolved child parent ((heap.parentHash? child).getD 0))] }

/-- Enters in a batch what came of one class. -/
def enter (batch : ClassRegistry.Batch) (child parent : Handle) (resolved : Step Unit) :
    ClassRegistry.Batch :=
  match resolved.outcome with
  | .ok () =>
    { heap := resolved.heap
      report := { batch.report with linked := batch.report.linked + 1 }
      notices := batch.notices ++ resolved.notices }
  | .error (.error cause) =>
    { heap := resolved.heap
      report := { batch.report with failed := batch.report.failed ++ [(child, cause)] }
      notices := batch.notices ++ resolved.notices ++ [.logged (.resolutionFailed child parent cause)] }
  | .error (.defect _) => batch

def attempt (registry : ClassRegistry) (batch : ClassRegistry.Batch) (child : Handle) :
    Unbounded ClassRegistry.Batch :=
  match (batch.heap.parentHash? child).bind registry.get? with
  | none => done batch
  | some parent =>
    andThen (resolveParent batch.heap child parent) fun resolved => done (enter batch child parent resolved)

def attempts (registry : ClassRegistry) : List Handle → ClassRegistry.Batch → Unbounded ClassRegistry.Batch
  | [], batch => done batch
  | child :: waiting, batch => andThen (attempt registry batch child) (attempts registry waiting)

def resolvePending (registry : ClassRegistry) (heap : Heap) : Unbounded (Step ResolveReport) :=
  andThen (attempts registry (registry.pending heap) ⟨heap, ⟨0, []⟩, []⟩) fun batch =>
    done
      { outcome := .ok batch.report
        heap := batch.heap
        notices := batch.notices ++
          if 0 < batch.report.linked then [.logged (.pendingResolved batch.report.linked)] else [] }

/-! ## They end -/

section
variable (heap : Heap) (start : Handle) (name : NameHash)

theorem sweep_endsIn : (sweep heap).EndsIn heap.sweep (heap.objectCount + heap.darkCount) := by
  rw [heap.sweep_eq_conclude]
  exact (Sweep.run_endsIn (.start heap)).map Sweep.conclude

theorem closeUpvalues_endsIn (head : Option Handle) (lowest : Nat) (stack : Stack) :
    (closeUpvalues heap head lowest stack).EndsIn (heap.closeUpvalues head lowest stack)
      heap.openCount :=
  Heap.closeWithin_endsIn lowest stack (heap, head)

theorem ancestors_endsIn : (ancestors heap start).EndsIn (heap.ancestors start) heap.objectCount :=
  heap.gather_endsIn (heap.line start, [])

theorem search_endsIn {α : Type} (gives : Handle × ClassDef → Option α) :
    (search heap start gives).EndsIn ((heap.ancestors start).findSome? gives) heap.objectCount :=
  heap.seek_endsIn gives (heap.line start)

theorem findMethod_endsIn :
    (findMethod heap start name).EndsIn (heap.findMethod start name) heap.objectCount :=
  search_endsIn heap start _

theorem findFieldDefault_endsIn :
    (findFieldDefault heap start name).EndsIn (heap.findFieldDefault start name) heap.objectCount :=
  search_endsIn heap start _

theorem findInitializer_endsIn :
    (findInitializer heap start).EndsIn (heap.findInitializer start) heap.objectCount := by
  rw [heap.findInitializer_eq_findSome? start]
  exact search_endsIn heap start _

theorem methodProperty_endsIn :
    (methodProperty heap start name).EndsIn (heap.methodProperty start name) heap.objectCount := by
  have same : heap.methodProperty start name =
      ((heap.findMethod start name).map .method).getD .notFound := by
    rw [Heap.methodProperty]
    cases heap.findMethod start name <;> rfl
  rw [same]
  exact (findMethod_endsIn heap start name).map _

theorem dispatchProperty_endsIn (object : Object) :
    (dispatchProperty heap object name).EndsIn (heap.dispatchProperty object name) heap.objectCount := by
  rw [dispatchProperty, Heap.dispatchProperty]
  cases object.header.dispatch with
  | none => exact .done _
  | some start => exact methodProperty_endsIn heap start name

/-- The line of an instance's class is searched for a field, and if need be once more for a method. -/
theorem instanceProperty_endsIn (object : Object) (self : ClassInstance) :
    (instanceProperty heap object self name).EndsIn (heap.instanceProperty object self name)
      (heap.objectCount + heap.objectCount) := by
  rw [instanceProperty, Heap.instanceProperty, Heap.dispatchProperty]
  cases self.fields.get? name with
  | some value => exact .done _
  | none =>
    cases object.header.dispatch with
    | none => exact .done _
    | some start =>
      simp only [Option.bind_some]
      refine (findFieldDefault_endsIn heap start name).andThen ?_
      cases heap.findFieldDefault start name with
      | some value => exact .done _
      | none => exact methodProperty_endsIn heap start name

theorem lookup_endsIn (receiver : Value) :
    (lookup heap receiver name).EndsIn (heap.lookup receiver name) (2 * heap.objectCount) := by
  rw [Nat.two_mul]
  have once {program : Unbounded Property} {result : Property}
      (ends : program.EndsIn result heap.objectCount) :
      program.EndsIn result (heap.objectCount + heap.objectCount) := ends.mono (Nat.le_add_right ..)
  cases receiver with
  | object handle =>
    rw [lookup, Heap.lookup]
    cases heap.get? handle with
    | none => exact .done _
    | some object =>
      obtain ⟨header, payload⟩ := object
      cases payload with
      | classInstance self => exact instanceProperty_endsIn heap name _ self
      | nameSpace space =>
        simp only
        cases space.fields.get? name <;> exact .done _
      | classDef self => exact once (methodProperty_endsIn heap handle name)
      | _ => exact once (dispatchProperty_endsIn heap name _)
  | _ => exact .done _

theorem resolveParent_endsIn (child parent : Handle) :
    (resolveParent heap child parent).EndsIn (heap.resolveParent child parent) heap.objectCount := by
  rw [resolveParent, Heap.resolveParent, heap.mayLink_eq_fits]
  cases heap.fits child parent with
  | error cause => exact .done _
  | ok =>
    simp only
    have met (line : List (Handle × ClassDef)) :
        (line.findSome? fun ancestor => if ancestor.1 == child then some () else none).isSome =
          line.any (·.1 == child) := by
      induction line with
      | nil => rfl
      | cons ancestor line ih =>
        rw [List.findSome?_cons, List.any_cons, ← ih]
        cases ancestor.1 == child <;> rfl
    have searched := (search_endsIn heap parent fun ancestor =>
      if ancestor.1 == child then some () else none).map fun met : Option Unit =>
        if met.isSome then Step.fail heap .inheritanceCycle
        else
          { outcome := .ok ()
            heap := heap.link child parent
            notices := [.logged (.parentResolved child parent ((heap.parentHash? child).getD 0))] }
    rw [met] at searched
    refine searched.congr ?_
    split <;> rfl

end

theorem attempt_endsIn (registry : ClassRegistry) (batch : ClassRegistry.Batch) (child : Handle) :
    (attempt registry batch child).EndsIn (registry.attempt batch child) batch.heap.objectCount := by
  rw [attempt, ClassRegistry.attempt]
  cases (batch.heap.parentHash? child).bind registry.get? with
  | none => exact .done _
  | some parent =>
    have entered := (resolveParent_endsIn batch.heap child parent).map (enter batch child parent)
    refine entered.congr ?_
    simp only [Heap.resolveParent]
    cases batch.heap.mayLink child parent with
    | ok => rfl
    | error cause => simp [enter, Step.fail]

theorem objectCount_attempt (registry : ClassRegistry) (batch : ClassRegistry.Batch) (child : Handle) :
    (registry.attempt batch child).heap.objectCount = batch.heap.objectCount := by
  rw [ClassRegistry.attempt]
  split
  · rfl
  · split
    · next granted =>
      rw [Heap.resolveParent, granted]
      exact Slots.size_modify ..
    · rfl

theorem attempts_endsIn (registry : ClassRegistry) (waiting : List Handle) (batch : ClassRegistry.Batch) :
    (attempts registry waiting batch).EndsIn (waiting.foldl registry.attempt batch)
      (waiting.length * batch.heap.objectCount) := by
  induction waiting generalizing batch with
  | nil => exact .done _
  | cons child waiting ih =>
    have rest := ih (registry.attempt batch child)
    rw [objectCount_attempt] at rest
    rw [List.length_cons, Nat.succ_mul, Nat.add_comm]
    exact (attempt_endsIn registry batch child).andThen rest

theorem resolvePending_endsIn (registry : ClassRegistry) (heap : Heap) :
    (resolvePending registry heap).EndsIn (registry.resolvePending heap)
      (registry.size * heap.objectCount) := by
  have waiting : (registry.pending heap).length ≤ registry.size := by
    refine Nat.le_trans (List.length_filter_le ..) (Nat.le_of_eq ?_)
    rw [Table.values, List.length_map]
    rfl
  have ends := attempts_endsIn registry (registry.pending heap) ⟨heap, ⟨0, []⟩, []⟩
  exact (ends.mono (Nat.mul_le_mul_right _ waiting)).map _

end Looped

namespace Heap

/-- **What follows links ends, on any links.** For every heap, whatever its links are:
a sweep comes to its end, and its visits of live objects, of which one at most is not let live and not
freed, are no more than there are objects and marks; closing comes to its end, and each round closes
an upvalue that was open; an iterator over ancestors gives no more of them than there are objects; and so
the searches for members, the linking of a class and that of a whole registry come to their ends. All of
them come to what they give in the model, and to nothing else. -/
theorem loops_end (heap : Heap) :
    ((Looped.sweep heap).EndsIn heap.sweep (heap.objectCount + heap.darkCount) ∧
      ∀ swept failed? visits, Unbounded.loop Sweep.visit (.start heap) (swept, failed?) visits →
        visits = swept.stats.survivors + swept.stats.freedObjects ∧
        swept.heap.objectCount + swept.stats.freedObjects = heap.objectCount ∧
        swept.heap.darkCount + swept.stats.survivors = heap.darkCount ∧
        visits + failed?.toList.length ≤ heap.objectCount + heap.darkCount) ∧
    (∀ head lowest stack,
      (Looped.closeUpvalues heap head lowest stack).EndsIn (heap.closeUpvalues head lowest stack)
        heap.openCount ∧
      ∀ step rounds, Looped.closeUpvalues heap head lowest stack step rounds →
        step.heap.openCount + rounds = heap.openCount) ∧
    (∀ start, (Looped.ancestors heap start).EndsIn (heap.ancestors start) heap.objectCount ∧
      (heap.ancestors start).length ≤ heap.objectCount) ∧
    (∀ start name, (Looped.findMethod heap start name).EndsIn (heap.findMethod start name)
      heap.objectCount) ∧
    (∀ start name, (Looped.findFieldDefault heap start name).EndsIn
      (heap.findFieldDefault start name) heap.objectCount) ∧
    (∀ start, (Looped.findInitializer heap start).EndsIn (heap.findInitializer start)
      heap.objectCount) ∧
    (∀ receiver name, (Looped.lookup heap receiver name).EndsIn (heap.lookup receiver name)
      (2 * heap.objectCount)) ∧
    (∀ child parent, (Looped.resolveParent heap child parent).EndsIn (heap.resolveParent child parent)
      heap.objectCount) ∧
    ∀ registry, (Looped.resolvePending registry heap).EndsIn (registry.resolvePending heap)
      (registry.size * heap.objectCount) := by
  refine ⟨⟨Looped.sweep_endsIn heap, fun swept failed? visits comes => ?_⟩,
    fun head lowest stack => ⟨Looped.closeUpvalues_endsIn heap head lowest stack,
      fun step rounds comes => openCount_loop comes⟩,
    fun start => ⟨Looped.ancestors_endsIn heap start, ?_⟩, Looped.findMethod_endsIn heap,
    Looped.findFieldDefault_endsIn heap, Looped.findInitializer_endsIn heap,
    fun receiver name => Looped.lookup_endsIn heap name receiver, Looped.resolveParent_endsIn heap,
    fun registry => Looped.resolvePending_endsIn registry heap⟩
  · obtain ⟨⟨objects, marks, visited⟩, failing⟩ := Sweep.counts_loop comes
    simp only [Sweep.start, Nat.add_zero, Nat.zero_add] at objects marks visited failing
    exact ⟨visited.symm, objects, marks, by omega⟩
  · exact Nat.le_of_not_lt fun long => Nat.lt_irrefl _ (walk_of_lt_length long).1

/-- A class that is its own parent and an upvalue that is its own successor, both marked and chained in a
ring. -/
def tangled : Heap :=
  (History.run .default
    [.create (.classOf 1), .capture none 0, .mark ⟨⟨0, 0⟩⟩ true, .mark ⟨⟨1, 0⟩⟩ true,
      .writeNext ⟨⟨0, 0⟩⟩ (some ⟨⟨1, 0⟩⟩),
      .edit .classDef ⟨⟨0, 0⟩⟩ fun (self : ClassDef) => { self with parent := some ⟨⟨0, 0⟩⟩ },
      .edit .upvalue ⟨⟨1, 0⟩⟩ fun (self : Upvalue) => { self with next := some ⟨⟨1, 0⟩⟩ }]).heap

/-- The sweep comes to each of the two objects twice: it lets both live, and then it frees both. -/
theorem loops_end_tangled :
    (tangled.objectCount, tangled.darkCount, tangled.openCount) = (2, 2, 1) ∧
    (∃ swept, Unbounded.loop Sweep.visit (.start tangled) (swept, none) 4 ∧
      swept.stats = ⟨2, 280, 2⟩ ∧ swept.heap.objectCount = 0) ∧
    (∃ rounds ≤ 1, Looped.closeUpvalues tangled (some ⟨⟨1, 0⟩⟩) 0 #[.null]
      (tangled.closeUpvalues (some ⟨⟨1, 0⟩⟩) 0 #[.null]) rounds) ∧
    (tangled.ancestors ⟨⟨0, 0⟩⟩).length = 2 := by
  obtain ⟨⟨ends, counts⟩, closing, line, -⟩ := loops_end tangled
  refine ⟨by decide, ?_, ?_, by decide⟩
  · obtain ⟨_, ⟨swept, failed?⟩, visits, _, visited, ⟨concluded, -⟩, -⟩ := ends.ends
    obtain ⟨both, objects, -⟩ := counts swept failed? visits visited
    have outcome : (Sweep.conclude (swept, failed?)).outcome = .ok ⟨2, 280, 2⟩ := by
      rw [← concluded]
      decide
    rw [Sweep.conclude] at outcome
    split at outcome
    · cases outcome
    · next succeeded =>
      split at outcome
      · cases outcome
      · have stats : swept.stats = ⟨2, 280, 2⟩ := Except.ok.inj outcome
        rw [stats] at both objects
        have gone : swept.heap.objectCount + 2 = 2 := objects
        subst both succeeded
        exact ⟨swept, visited, stats, by omega⟩
  · obtain ⟨rounds, comes⟩ := (closing (some ⟨⟨1, 0⟩⟩) 0 #[.null]).1.ends
    have few := ((closing (some ⟨⟨1, 0⟩⟩) 0 #[.null]).1.only _ rounds comes).2
    exact ⟨rounds, Nat.le_trans few (by decide), comes⟩

end Heap
end ScriptHeap
