import ScriptHeap.Heap.OpenUpvalues
import ScriptHeap.Proofs.Views

/-! The list of open upvalues in order: the links lead through live open upvalues, over falling slots, to
an end. On such a list a capture finds the upvalue of its slot or puts a new one in its place, and closing
takes off the upvalues from the front whose slots are not below the given one. -/
namespace ScriptHeap.Heap
variable {heap other : Heap} {head : Option Handle} {entries front back : List (Handle × Nat)}
variable {entry : Handle × Nat} {handle : Handle} {slot : Nat}

/-- The link of a live upvalue. -/
def following? (heap : Heap) (handle : Handle) : Option (Option Handle) :=
  (heap.view? .upvalue handle).map (·.next)

/-- The slot of a live upvalue that is open. -/
def slotOf? (heap : Heap) (handle : Handle) : Option Nat :=
  (heap.view? .upvalue handle).bind (·.slot?)

/-- From `head` the links lead through these open upvalues over these falling slots to an end. -/
structure OpenList (heap : Heap) (head : Option Handle) (entries : List (Handle × Nat)) : Prop where
  path : Path heap.following? head (entries.map Prod.fst) none
  opened : ∀ entry ∈ entries, heap.slotOf? entry.1 = some entry.2
  falling : entries.Pairwise fun higher lower => lower.2 < higher.2

theorem slotOf?_eq_some_iff :
    heap.slotOf? handle = some slot ↔
      ∃ next, heap.view? .upvalue handle = some ⟨.opened slot, next⟩ := by
  rw [slotOf?, Option.bind_eq_some_iff]
  constructor
  · rintro ⟨⟨state, next⟩, seen, stands⟩
    cases state with
    | closed value => cases stands
    | opened own =>
      cases stands
      exact ⟨next, seen⟩
  · rintro ⟨next, seen⟩
    exact ⟨_, seen, rfl⟩

theorem openList_nil (heap : Heap) : heap.OpenList none [] := ⟨.nil, by simp, .nil⟩

namespace OpenList

theorem nodup (list : heap.OpenList head entries) : (entries.map Prod.fst).Nodup := list.path.nodup

/-- A list depends on the upvalues on it alone. -/
theorem congr (list : heap.OpenList head entries)
    (same : ∀ entry ∈ entries, other.view? .upvalue entry.1 = heap.view? .upvalue entry.1) :
    other.OpenList head entries where
  path := by
    refine list.path.congr fun handle listed => ?_
    obtain ⟨entry, member, rfl⟩ := List.mem_map.1 listed
    rw [following?, following?, same entry member]
  opened := by
    intro entry listed
    rw [slotOf?, same entry listed]
    exact list.opened entry listed
  falling := list.falling

theorem exists_view? (list : heap.OpenList head entries) (listed : entry ∈ entries) :
    ∃ next, heap.view? .upvalue entry.1 = some ⟨.opened entry.2, next⟩ :=
  slotOf?_eq_some_iff.1 (list.opened entry listed)

theorem isSome_view? (list : heap.OpenList head entries) (listed : handle ∈ entries.map Prod.fst) :
    (heap.view? .upvalue handle).isSome = true := by
  obtain ⟨entry, member, rfl⟩ := List.mem_map.1 listed
  obtain ⟨next, seen⟩ := list.exists_view? member
  rw [seen]
  rfl

theorem length_le (list : heap.OpenList head entries) : entries.length ≤ heap.objectCount := by
  have bound := heap.atMost_view? .upvalue _ list.nodup fun _ => list.isSome_view?
  rwa [List.length_map] at bound

/-- So the bound on the upvalues that a close visits is never felt. -/
theorem length_le_openCount (list : heap.OpenList head entries) :
    entries.length ≤ heap.openCount := by
  rw [← List.length_map Prod.fst]
  refine length_le_countP _ list.nodup fun handle listed => ?_
  obtain ⟨entry, member, rfl⟩ := List.mem_map.1 listed
  obtain ⟨next, seen⟩ := list.exists_view? member
  obtain ⟨object, found, projected⟩ := Option.bind_eq_some_iff.1 seen
  rw [found, Option.any_some, projected]
  rfl

/-! ## Reading along the list -/

theorem map_fst_openUpvalues (list : heap.OpenList head entries) :
    (heap.openUpvalues head).map Prod.fst = entries.map Prod.fst :=
  (trail_eq_path list.path (by simp) (by rw [List.length_map]; exact list.length_le)).1

theorem map_openUpvalues (list : heap.OpenList head entries) :
    (heap.openUpvalues head).map (fun item => (item.1, item.2.slot?)) =
      entries.map fun entry => (entry.1, some entry.2) := by
  have each : (heap.openUpvalues head).map (fun item => (item.1, item.2.slot?)) =
      ((heap.openUpvalues head).map Prod.fst).map fun handle => (handle, heap.slotOf? handle) := by
    rw [List.map_map]
    refine List.map_congr_left fun item met => ?_
    simp [slotOf?, look_of_mem_trail met]
  rw [each, list.map_fst_openUpvalues, List.map_map]
  refine List.map_congr_left fun entry listed => ?_
  simp [list.opened entry listed]

theorem openSlots_eq (list : heap.OpenList head entries) :
    heap.openSlots head = entries.map Prod.snd := by
  have seen := congrArg (List.filterMap Prod.snd) list.map_openUpvalues
  rw [List.filterMap_map, List.filterMap_map] at seen
  rw [← List.filterMap_eq_map]
  exact seen

/-- The link from the last of a part leads to the first of what comes behind. -/
theorem following?_getLast? (list : heap.OpenList head (front ++ back))
    (last : front.getLast? = some entry) :
    heap.following? entry.1 = some (back.head?.map Prod.fst) := by
  obtain ⟨earlier, rfl⟩ := List.getLast?_eq_some_iff.1 last
  have path := list.path
  rw [List.append_assoc, List.map_append, List.singleton_append, List.map_cons] at path
  rw [path.next_eq, List.head?_map]

theorem head_eq (list : heap.OpenList head back) : head = back.head?.map Prod.fst := by
  rw [list.path.start_eq_head?, List.head?_map]

end OpenList

/-! ## Searching for a slot -/

/-- A list cut in two where the upvalue of a slot stands or would stand. -/
structure Cut (front back : List (Handle × Nat)) (slot : Nat) : Prop where
  higher : ∀ entry ∈ front, slot < entry.2
  lower : ∀ entry ∈ back.head?, entry.2 ≤ slot

theorem exists_cut (entries : List (Handle × Nat)) (slot : Nat) :
    ∃ front back, entries = front ++ back ∧ Cut front back slot := by
  induction entries with
  | nil => exact ⟨[], [], rfl, by simp, by simp⟩
  | cons entry rest ih =>
    by_cases higher : slot < entry.2
    · obtain ⟨front, back, rfl, cut⟩ := ih
      exact ⟨entry :: front, back, rfl, List.forall_mem_cons.2 ⟨higher, cut.higher⟩, cut.lower⟩
    · refine ⟨[], entry :: rest, rfl, by simp, fun first here => ?_⟩
      cases here
      exact Nat.le_of_not_lt higher

namespace OpenList

/-- The search stops behind the part with the higher slots. -/
theorem map_takeWhile (list : heap.OpenList head (front ++ back)) (cut : Cut front back slot) :
    ((heap.openUpvalues head).takeWhile (·.2.slot?.any (slot < ·))).map
        (fun item => (item.1, item.2.slot?)) =
      front.map fun entry => (entry.1, some entry.2) := by
  let above (place : Handle × Option Nat) : Bool := place.2.any (slot < ·)
  let seen (item : Handle × Upvalue) : Handle × Option Nat := (item.1, item.2.slot?)
  let place (entry : Handle × Nat) : Handle × Option Nat := (entry.1, some entry.2)
  have searched : (front ++ back).takeWhile (above ∘ place) = front := by
    have higher (entry : Handle × Nat) (listed : entry ∈ front) : (above ∘ place) entry = true := by
      simpa [above, place] using cut.higher entry listed
    rw [List.takeWhile_append_of_pos higher]
    cases back with
    | nil => simp
    | cons first back =>
      have stop : ¬ (above ∘ place) first = true := by
        simpa [above, place] using cut.lower first rfl
      rw [List.takeWhile_cons_of_neg stop, List.append_nil]
  have taken : ((heap.openUpvalues head).takeWhile (above ∘ seen)).map seen =
      ((heap.openUpvalues head).map seen).takeWhile above := List.takeWhile_map.symm
  calc ((heap.openUpvalues head).takeWhile (above ∘ seen)).map seen
      = ((front ++ back).map place).takeWhile above := by rw [taken, list.map_openUpvalues]
    _ = front.map place := by rw [List.takeWhile_map, searched]

/-- The search remembers the last of the higher ones and has come to the first of the others. -/
theorem searched (list : heap.OpenList head (front ++ back)) (cut : Cut front back slot) :
    let higher := (heap.openUpvalues head).takeWhile (·.2.slot?.any (slot < ·))
    higher.getLast?.map Prod.fst = front.getLast?.map Prod.fst ∧
      (match higher.getLast? with | some (_, last) => last.next | none => head) =
        back.head?.map Prod.fst := by
  intro higher
  have lasts : higher.getLast?.map (fun item => (item.1, item.2.slot?)) =
      front.getLast?.map fun entry => (entry.1, some entry.2) := by
    rw [← List.getLast?_map, list.map_takeWhile cut, List.getLast?_map]
  constructor
  · have firsts := congrArg (Option.map Prod.fst) lasts
    rwa [Option.map_map, Option.map_map] at firsts
  · cases last : higher.getLast? with
    | none =>
      rw [last, Option.map_none, eq_comm, Option.map_eq_none_iff, List.getLast?_eq_none_iff] at lasts
      subst lasts
      exact list.head_eq
    | some item =>
      rw [last, Option.map_some, eq_comm, Option.map_eq_some_iff] at lasts
      obtain ⟨entry, lasting, same⟩ := lasts
      have met : item ∈ heap.openUpvalues head :=
        (List.takeWhile_sublist _).subset (List.mem_of_getLast? last)
      have leads := list.following?_getLast? lasting
      rw [show entry.1 = item.1 from congrArg Prod.fst same, following?, look_of_mem_trail met] at leads
      exact Option.some.inj leads

/-- A capture comes to the first upvalue that is not over a higher slot, and shares it or puts a new one
before it. -/
theorem capture_of_cut (list : heap.OpenList head (front ++ back)) (cut : Cut front back slot) :
    heap.capture head slot =
      match back.head? with
      | none => heap.insertUpvalue head (front.getLast?.map Prod.fst) none slot
      | some entry =>
        if entry.2 = slot then Step.done heap ⟨entry.1, head⟩
        else heap.insertUpvalue head (front.getLast?.map Prod.fst) (some entry.1) slot := by
  obtain ⟨previous, current⟩ := list.searched cut
  rw [capture]
  simp only [previous]
  split
  · next ended =>
    have nothing : back.head?.map Prod.fst = none := current.symm.trans ended
    rw [ended, Option.map_eq_none_iff.1 nothing]
  · next handle here =>
    obtain ⟨entry, first, rfl⟩ := Option.map_eq_some_iff.1 (current.symm.trans here)
    have listed : entry ∈ front ++ back := List.mem_append_right _ (List.mem_of_head? first)
    obtain ⟨next, seen⟩ := list.exists_view? listed
    -- the list falls, so the search for ever never comes about
    have low : ¬ slot < entry.2 := Nat.not_lt.2 (cut.lower entry first)
    rw [expect_eq_ok_iff.2 seen, first, here]
    by_cases same : entry.2 = slot
    · simp [Step.ofLook, Step.done, Step.andThen, Step.after, Upvalue.slot?, same]
    · simp only [Step.ofLook, Step.done, Step.andThen, Step.after, Upvalue.slot?, Option.some.injEq,
        same, ↓reduceIte, Option.any_some, decide_eq_true_eq, low, List.nil_append]

/-- A slot that is on the list is captured by sharing its upvalue. -/
theorem capture_of_mem (list : heap.OpenList head entries) (listed : (handle, slot) ∈ entries) :
    heap.capture head slot = Step.done heap ⟨handle, head⟩ := by
  obtain ⟨front, back, rfl, cut⟩ := exists_cut entries slot
  have first : back.head? = some (handle, slot) := by
    have behind : (handle, slot) ∈ back := (List.mem_append.1 listed).resolve_left fun before =>
      Nat.lt_irrefl slot (cut.higher _ before)
    obtain ⟨first, rest, rfl⟩ := List.exists_cons_of_ne_nil (List.ne_nil_of_mem behind)
    have falling := (List.pairwise_cons.1 (List.pairwise_append.1 list.falling).2.1).1
    obtain rfl | later := List.mem_cons.1 behind
    · rfl
    · exact absurd (falling _ later) (Nat.not_lt.2 (cut.lower first rfl))
  rw [list.capture_of_cut cut, first]
  exact if_pos rfl

/-- A slot that is not on the list is captured by a new upvalue in its place. -/
theorem capture_of_not_mem (list : heap.OpenList head (front ++ back)) (cut : Cut front back slot)
    (unlisted : ∀ entry ∈ front ++ back, entry.2 ≠ slot) :
    heap.capture head slot =
      heap.insertUpvalue head (front.getLast?.map Prod.fst) (back.head?.map Prod.fst) slot := by
  rw [list.capture_of_cut cut]
  cases first : back.head? with
  | none => rfl
  | some entry => exact if_neg (unlisted entry (List.mem_append_right _ (List.mem_of_head? first)))

end OpenList

/-! ## Putting an upvalue on the list -/

/-- The heap with an upvalue more, which one upvalue leads to and which leads to another. -/
def withUpvalue (heap : Heap) (previous next : Option Handle) (slot : Nat) : Heap :=
  let grown := heap.grown (.upvalue (.overSlot slot)) (heap.builtin? .upvalue)
  let placed := grown.update .upvalue heap.nextHandle ({ · with next })
  match previous with
  | some before => placed.update .upvalue before ({ · with next := some heap.nextHandle })
  | none => placed

/-- The upvalue is refused as any other would be, or it is put in its place. -/
theorem insertUpvalue_cases (heap : Heap) (head previous next : Option Handle) (slot : Nat) :
    (∃ failure told, heap.newUpvalue slot = ⟨.error failure, heap, told⟩ ∧
      heap.insertUpvalue head previous next slot = ⟨.error failure, heap, told⟩) ∨
    ∃ told, (heap.newUpvalue slot).outcome = .ok heap.nextHandle ∧
      heap.insertUpvalue head previous next slot =
        ⟨.ok ⟨heap.nextHandle, if previous = none then some heap.nextHandle else head⟩,
          heap.withUpvalue previous next slot, told⟩ := by
  have allocates : heap.newUpvalue slot =
      heap.allocateWith (.upvalue (.overSlot slot)) (heap.builtin? .upvalue) := rfl
  rw [insertUpvalue, allocates]
  obtain ⟨failure, told, -, refused⟩ | granted :=
    heap.allocateWith_cases (.upvalue (.overSlot slot)) (heap.builtin? .upvalue)
  · rw [refused]
    exact .inl ⟨failure, told, rfl, rfl⟩
  · rw [granted]
    cases previous with
    | none => exact .inr ⟨_, rfl, rfl⟩
    | some before => exact .inr ⟨_, rfl, rfl⟩

theorem objectCount_withUpvalue (heap : Heap) (previous next : Option Handle) (slot : Nat) :
    (heap.withUpvalue previous next slot).objectCount = heap.objectCount + 1 := by
  cases previous <;> simp [withUpvalue, objectCount, update, modify, grown]

theorem get?_withUpvalue (heap : Heap) (next : Option Handle) (slot : Nat) {previous : Option Handle}
    (apart : previous ≠ some heap.nextHandle) (handle : Handle) :
    (heap.withUpvalue previous next slot).get? handle =
      if handle = heap.nextHandle then
        some { heap.newborn (.upvalue (.overSlot slot)) (heap.builtin? .upvalue) with
          payload := .upvalue ⟨.opened slot, next⟩ }
      else if previous = some handle then
        (heap.get? handle).map fun object =>
          { object with
            payload := Variant.upvalue.modify ({ · with next := some heap.nextHandle }) object.payload }
      else heap.get? handle := by
  have placed (handle : Handle) :
      ((heap.grown (.upvalue (.overSlot slot)) (heap.builtin? .upvalue)).update .upvalue
          heap.nextHandle ({ · with next })).get? handle =
        if handle = heap.nextHandle then
          some { heap.newborn (.upvalue (.overSlot slot)) (heap.builtin? .upvalue) with
            payload := .upvalue ⟨.opened slot, next⟩ }
        else heap.get? handle := by
    rw [update, get?_modify, get?_grown, if_pos rfl, get?_grown]
    split <;> rfl
  cases previous with
  | none =>
    rw [withUpvalue, placed]
    simp
  | some before =>
    have different : before ≠ heap.nextHandle := fun same => apart (congrArg some same)
    rw [withUpvalue, update, get?_modify, placed, placed, if_neg different]
    by_cases here : handle = before
    · subst here
      simp [different]
    · simp [here, Ne.symm here]

theorem view?_withUpvalue (heap : Heap) (next : Option Handle) (slot : Nat) {previous : Option Handle}
    (apart : previous ≠ some heap.nextHandle) (handle : Handle) :
    (heap.withUpvalue previous next slot).view? .upvalue handle =
      if handle = heap.nextHandle then some ⟨.opened slot, next⟩
      else if previous = some handle then
        (heap.view? .upvalue handle).map ({ · with next := some heap.nextHandle })
      else heap.view? .upvalue handle := by
  rw [view?, get?_withUpvalue heap next slot apart]
  split
  · rfl
  · split
    · rw [view?]
      cases heap.get? handle with
      | none => rfl
      | some object => exact Variant.upvalue.project_modify _ object.payload
    · rfl

namespace OpenList

theorem ne_nextHandle (list : heap.OpenList head entries) (listed : handle ∈ entries.map Prod.fst) :
    handle ≠ heap.nextHandle :=
  Heap.ne_nextHandle (issued_of_contains (contains_of_view? (list.isSome_view? listed)))

theorem getLast?_ne_nextHandle (list : heap.OpenList head (front ++ back)) :
    front.getLast?.map Prod.fst ≠ some heap.nextHandle := by
  intro last
  obtain ⟨entry, lasting, same⟩ := Option.map_eq_some_iff.1 last
  have listed : entry ∈ front ++ back := List.mem_append_left _ (List.mem_of_getLast? lasting)
  exact list.ne_nextHandle (List.mem_map_of_mem listed) same

theorem lower_of_cut (list : heap.OpenList head (front ++ back)) (cut : Cut front back slot)
    (unlisted : ∀ entry ∈ front ++ back, entry.2 ≠ slot) : ∀ entry ∈ back, entry.2 < slot := by
  intro entry listed
  obtain ⟨first, rest, rfl⟩ := List.exists_cons_of_ne_nil (List.ne_nil_of_mem listed)
  have below : first.2 < slot :=
    Nat.lt_of_le_of_ne (cut.lower first rfl) (unlisted first (by simp))
  obtain rfl | later := List.mem_cons.1 listed
  · exact below
  · have falling := (List.pairwise_cons.1 (List.pairwise_append.1 list.falling).2.1).1
    exact Nat.lt_trans (falling entry later) below

/-- A new upvalue in the place of its slot leaves the list in order. -/
theorem insert (list : heap.OpenList head (front ++ back)) (cut : Cut front back slot)
    (unlisted : ∀ entry ∈ front ++ back, entry.2 ≠ slot) :
    (heap.withUpvalue (front.getLast?.map Prod.fst) (back.head?.map Prod.fst) slot).OpenList
      (if front = [] then some heap.nextHandle else head)
      (front ++ (heap.nextHandle, slot) :: back) := by
  have lower := list.lower_of_cut cut unlisted
  have apart := list.getLast?_ne_nextHandle
  have views := heap.view?_withUpvalue (back.head?.map Prod.fst) slot apart
  have old (entry : Handle × Nat) (listed : entry ∈ front ++ back) : entry.1 ≠ heap.nextHandle :=
    list.ne_nextHandle (List.mem_map_of_mem listed)
  refine ⟨?_, ?_, ?_⟩
  · have link : (heap.withUpvalue (front.getLast?.map Prod.fst) (back.head?.map Prod.fst)
        slot).following? heap.nextHandle = some (back.map Prod.fst).head? := by
      rw [following?, views, if_pos rfl, List.head?_map]
      rfl
    have path := list.path
    rw [List.map_append] at path
    have longer := path.insert link fun one listed => by
      rw [← List.map_append] at listed
      obtain ⟨upvalue, seen⟩ := Option.isSome_iff_exists.1 (list.isSome_view? listed)
      rw [following?, following?, views, if_neg (list.ne_nextHandle listed), List.getLast?_map, seen]
      split <;> rfl
    simpa only [List.map_append, List.map_cons, List.map_eq_nil_iff] using longer
  · intro entry listed
    rw [slotOf?, views]
    split
    · next here =>
      have own : entry = (heap.nextHandle, slot) := by
        rcases List.mem_append.1 listed with before | behind
        · exact absurd here (old entry (List.mem_append_left _ before))
        · exact (List.mem_cons.1 behind).resolve_right fun later =>
            old entry (List.mem_append_right _ later) here
      rw [own]
      rfl
    · next elsewhere =>
      have member : entry ∈ front ++ back := by
        rcases List.mem_append.1 listed with before | behind
        · exact List.mem_append_left _ before
        · refine List.mem_append_right _ ((List.mem_cons.1 behind).resolve_left ?_)
          rintro rfl
          exact elsewhere rfl
      have stands := list.opened entry member
      rw [slotOf?] at stands
      split
      · rw [Option.bind_map]
        exact stands
      · exact stands
  · obtain ⟨before, behind, across⟩ := List.pairwise_append.1 list.falling
    refine List.pairwise_append.2 ⟨before, List.pairwise_cons.2 ⟨lower, behind⟩, ?_⟩
    intro higher listed entry below
    rcases List.mem_cons.1 below with rfl | below
    · exact cut.higher higher listed
    · exact across higher listed entry below

end OpenList

/-- What capturing a slot comes to: the upvalue that is on the list for it, or a new one, which is refused
where any upvalue would be, and otherwise is the only new object; the one before it is led to it, and
nothing else is touched. -/
inductive Captures (heap : Heap) (head : Option Handle) (entries : List (Handle × Nat)) (slot : Nat) :
    Step Capture → Prop where
  | shared {handle : Handle} (listed : (handle, slot) ∈ entries) :
      Captures heap head entries slot (Step.done heap ⟨handle, head⟩)
  | refused {failure : Failure} {told : List Notice} (unlisted : slot ∉ entries.map Prod.snd)
      (full : heap.newUpvalue slot = ⟨.error failure, heap, told⟩) :
      Captures heap head entries slot ⟨.error failure, heap, told⟩
  | inserted {created : Handle} {start : Option Handle} {rest : Heap} {told : List Notice}
      {front back : List (Handle × Nat)} (unlisted : slot ∉ entries.map Prod.snd)
      (granted : (heap.newUpvalue slot).outcome = .ok created) (fresh : ¬ heap.Issued created)
      (place : entries = front ++ back)
      (list : rest.OpenList start (front ++ (created, slot) :: back))
      (counted : rest.objectCount = heap.objectCount + 1)
      (led : ∀ entry ∈ front.getLast?, rest.get? entry.1 = (heap.get? entry.1).map fun object =>
        { object with
          payload := Variant.upvalue.modify ({ · with next := some created }) object.payload })
      (others : ∀ handle, handle ≠ created → front.getLast?.map Prod.fst ≠ some handle →
        rest.get? handle = heap.get? handle) :
      Captures heap head entries slot ⟨.ok ⟨created, start⟩, rest, told⟩

/-- Every capture on a list in order. -/
theorem OpenList.captures (list : heap.OpenList head entries) (slot : Nat) :
    heap.Captures head entries slot (heap.capture head slot) := by
  by_cases listed : slot ∈ entries.map Prod.snd
  · obtain ⟨⟨handle, _⟩, member, rfl⟩ := List.mem_map.1 listed
    rw [list.capture_of_mem member]
    exact .shared member
  · obtain ⟨front, back, place, cut⟩ := exists_cut entries slot
    subst place
    have unlisted (entry : Handle × Nat) (member : entry ∈ front ++ back) : entry.2 ≠ slot :=
      fun same => listed (List.mem_map.2 ⟨entry, member, same⟩)
    have apart := list.getLast?_ne_nextHandle
    rw [list.capture_of_not_mem cut unlisted]
    obtain ⟨failure, told, full, refused⟩ | ⟨told, granted, inserted⟩ :=
      heap.insertUpvalue_cases head (front.getLast?.map Prod.fst) (back.head?.map Prod.fst) slot
    · rw [refused]
      exact .refused listed full
    · have reads := heap.get?_withUpvalue (back.head?.map Prod.fst) slot apart
      rw [inserted]
      simp only [Option.map_eq_none_iff, List.getLast?_eq_none_iff]
      refine .inserted listed granted heap.not_issued_nextHandle rfl (list.insert cut unlisted)
        (heap.objectCount_withUpvalue ..) (fun entry last => ?_) fun handle different away => ?_
      · have own : front.getLast?.map Prod.fst = some entry.1 := by
          rw [Option.mem_def.1 last, Option.map_some]
        have old : entry.1 ≠ heap.nextHandle := fun same => apart (own.trans (congrArg some same))
        rw [reads, if_neg old, if_pos own]
      · rw [reads, if_neg different, if_neg away]

/-! ## Closing -/

/-- What closing down to a slot comes to: the upvalues whose slots are not below it hold the values of
their slots and lead nowhere, the list goes on with the others, and nothing else is touched. -/
structure Closes (heap : Heap) (entries : List (Handle × Nat)) (lowest : Nat) (stack : Stack)
    (step : Step (Option Handle)) : Prop where
  list : ∃ rest, step.outcome = .ok rest ∧ step.heap.OpenList rest (entries.filter (·.2 < lowest))
  closed : ∀ entry ∈ entries, lowest ≤ entry.2 → ∃ object value,
    heap.get? entry.1 = some object ∧ stack[entry.2]? = some value ∧
      step.heap.get? entry.1 = some { object with payload := .upvalue ⟨.closed value, none⟩ }
  others : ∀ handle, (∀ entry ∈ entries, lowest ≤ entry.2 → entry.1 ≠ handle) →
    step.heap.get? handle = heap.get? handle

namespace OpenList
variable {lowest count : Nat} {stack : Stack} {next : Option Handle}

theorem tail (list : heap.OpenList head (entry :: entries))
    (seen : heap.view? .upvalue entry.1 = some ⟨.opened entry.2, next⟩) :
    head = some entry.1 ∧ heap.OpenList next entries := by
  have path := list.path
  rw [List.map_cons] at path
  cases path with
  | cons link rest =>
    rw [following?, seen, Option.map_some, Option.some.injEq] at link
    subst link
    exact ⟨rfl, rest, fun one listed => list.opened one (List.mem_cons_of_mem _ listed),
      (List.pairwise_cons.1 list.falling).2⟩

theorem ne_first {one : Handle × Nat} (list : heap.OpenList head (entry :: entries))
    (listed : one ∈ entries) : one.1 ≠ entry.1 := by
  have distinct := list.nodup
  rw [List.map_cons, List.nodup_cons] at distinct
  intro same
  exact distinct.1 (same ▸ List.mem_map_of_mem listed)

/-- Below the first slot that is let be, the slots are lower still. -/
theorem closes_none (list : heap.OpenList head entries)
    (below : ∀ entry ∈ entries, entry.2 < lowest) :
    heap.Closes entries lowest stack (Step.done heap head) where
  list := by
    refine ⟨head, rfl, ?_⟩
    rw [List.filter_eq_self.2 fun entry listed => by simpa using below entry listed]
    exact list
  closed := fun entry listed reached => absurd (below entry listed) (Nat.not_lt.2 reached)
  others := fun _ _ => rfl

/-- The upvalue over the highest slot is closed, and then the others. -/
theorem closes_cons (list : heap.OpenList head (entry :: entries)) {value : Value}
    (seen : heap.view? .upvalue entry.1 = some ⟨.opened entry.2, next⟩) (reached : lowest ≤ entry.2)
    (held : stack[entry.2]? = some value) {step : Step (Option Handle)}
    (later : (heap.update .upvalue entry.1 fun _ => ⟨.closed value, none⟩).Closes entries lowest stack
      step) : heap.Closes (entry :: entries) lowest stack step := by
  have reads := get?_update seen fun _ => ⟨.closed value, none⟩
  have away (handle : Handle) (elsewhere : handle ≠ entry.1) :
      (heap.update .upvalue entry.1 fun _ => ⟨.closed value, none⟩).get? handle =
        heap.get? handle := by
    rw [reads, if_neg elsewhere]
  constructor
  · obtain ⟨rest, outcome, ordered⟩ := later.list
    refine ⟨rest, outcome, ?_⟩
    rwa [List.filter_cons_of_neg (by simpa using reached)]
  · intro one listed high
    rcases List.mem_cons.1 listed with rfl | listed
    · obtain ⟨object, found, -⟩ := Option.bind_eq_some_iff.1 seen
      refine ⟨object, value, found, held, ?_⟩
      -- nothing behind the first upvalue is the first upvalue again
      rw [later.others one.1 fun other member _ => list.ne_first member, reads, if_pos rfl, found]
      rfl
    · obtain ⟨object, its, found, value, left⟩ := later.closed one listed high
      exact ⟨object, its, (away one.1 (list.ne_first listed)).symm.trans found, value, left⟩
  · intro handle untouched
    have elsewhere : handle ≠ entry.1 := fun same =>
      untouched entry List.mem_cons_self reached same.symm
    rw [later.others handle fun one member high => untouched one (List.mem_cons_of_mem _ member) high,
      away handle elsewhere]

theorem closeWithin (list : heap.OpenList head entries) (room : entries.length ≤ count)
    (inside : ∀ entry ∈ entries, lowest ≤ entry.2 → entry.2 < stack.size) :
    heap.Closes entries lowest stack (closeWithin lowest stack count heap head) := by
  induction entries generalizing heap head count with
  | nil =>
    obtain rfl := list.head_eq
    have ended : Heap.closeWithin lowest stack count heap none = Step.done heap none := by
      cases count <;> rfl
    exact ended ▸ list.closes_none (by simp)
  | cons entry entries ih =>
    obtain ⟨count, rfl⟩ : ∃ fewer, count = fewer + 1 := ⟨count - 1, by simp at room; omega⟩
    obtain ⟨next, seen⟩ := list.exists_view? List.mem_cons_self
    obtain ⟨rfl, later⟩ := list.tail seen
    by_cases reached : lowest ≤ entry.2
    · have there := inside entry List.mem_cons_self reached
      have held : stack[entry.2]? = some stack[entry.2] := Array.getElem?_eq_getElem there
      rw [Heap.closeWithin, seen]
      simp only [Upvalue.slot?, Option.any_some, reached, decide_true, ↓reduceIte, Upvalue.close, held]
      -- closing the first upvalue leaves the rest of the list in order
      refine list.closes_cons seen reached held (ih (later.congr fun one listed => ?_) ?_ ?_)
      · rw [view?_update, if_neg (list.ne_first listed)]
      · exact Nat.le_of_succ_le_succ room
      · exact fun one listed => inside one (List.mem_cons_of_mem _ listed)
    · have below := Nat.lt_of_not_le reached
      have falling := (List.pairwise_cons.1 list.falling).1
      have stopped : Heap.closeWithin lowest stack (count + 1) heap (some entry.1) =
          Step.done heap (some entry.1) := by
        rw [Heap.closeWithin, seen]
        simp [Upvalue.slot?, reached]
      rw [stopped]
      refine list.closes_none fun one listed => ?_
      rcases List.mem_cons.1 listed with rfl | listed
      · exact below
      · exact Nat.lt_trans (falling one listed) below

/-- Closing on a list in order, where every slot that is closed is on the stack. -/
theorem closes (list : heap.OpenList head entries)
    (inside : ∀ entry ∈ entries, lowest ≤ entry.2 → entry.2 < stack.size) :
    heap.Closes entries lowest stack (heap.closeUpvalues head lowest stack) :=
  list.closeWithin list.length_le_openCount inside

end OpenList

end ScriptHeap.Heap
