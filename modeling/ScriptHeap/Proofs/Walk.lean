import Mathlib.Tactic.ByContra
import ScriptHeap.Trail

/-! Walks: what lies along links when nobody counts the steps. A walk in a ring goes on for ever, but it
meets nothing new once it has met something twice; so a trail that is cut after as many steps as there
are items has met everything that the walk ever meets, and in the same order. -/
namespace ScriptHeap

section
variable {α : Type} (look : Handle → Option α) (next : α → Option Handle)

/-- The handle with its item, if it has one. -/
def itemAt (start : Option Handle) : Option (Handle × α) :=
  start.bind fun handle => (look handle).map (handle, ·)

/-- What is met after so many links, if they lead that far. -/
def walk : Nat → Option Handle → Option (Handle × α)
  | 0, start => itemAt look start
  | steps + 1, start => (itemAt look start).bind fun item => walk steps (next item.2)

/-- No more handles than so many have items. -/
def AtMost (limit : Nat) : Prop :=
  ∀ handles : List Handle, handles.Nodup → (∀ handle ∈ handles, (look handle).isSome = true) →
    handles.length ≤ limit

/-- What the first item along the walk that gives anything gives; nothing, if none of them does. -/
def FirstAlong {β : Type} (gives : α → Option β) (start : Option Handle) : Option β → Prop
  | some value => ∃ steps item, walk look next steps start = some item ∧
      gives item.2 = some value ∧
      ∀ fewer < steps, ∀ sooner, walk look next fewer start = some sooner → gives sooner.2 = none
  | none => ∀ steps item, walk look next steps start = some item → gives item.2 = none

end

section
variable {α : Type} {look other : Handle → Option α} {next : α → Option Handle}
variable {start : Option Handle} {item : Handle × α} {limit steps more first second : Nat}

/-! ## Steps of a walk -/

theorem itemAt_eq_some_iff :
    itemAt look start = some item ↔ start = some item.1 ∧ look item.1 = some item.2 := by
  obtain ⟨handle, data⟩ := item
  cases start with
  | none => simp [itemAt]
  | some one =>
    simp only [itemAt, Option.bind_some, Option.map_eq_some_iff, Prod.mk.injEq, Option.some.injEq]
    constructor
    · rintro ⟨_, found, rfl, rfl⟩
      exact ⟨rfl, found⟩
    · rintro ⟨rfl, found⟩
      exact ⟨data, found, rfl, rfl⟩

theorem look_of_walk (met : walk look next steps start = some item) : look item.1 = some item.2 := by
  induction steps generalizing start with
  | zero => exact (itemAt_eq_some_iff.1 met).2
  | succ steps ih =>
    obtain ⟨first, _, rest⟩ := Option.bind_eq_some_iff.1 met
    exact ih rest

/-- From what is met the walk goes on as one that starts there. -/
theorem walk_add (met : walk look next steps start = some item) (more : Nat) :
    walk look next (steps + more) start = walk look next more (some item.1) := by
  induction steps generalizing start with
  | zero =>
    obtain ⟨rfl, _⟩ := itemAt_eq_some_iff.1 met
    rw [Nat.zero_add]
  | succ steps ih =>
    obtain ⟨first, here, rest⟩ := Option.bind_eq_some_iff.1 met
    rw [Nat.succ_add, walk, here]
    exact ih rest

theorem walk_succ (met : walk look next steps start = some item) :
    walk look next (steps + 1) start = itemAt look (next item.2) := by
  have here : itemAt look (some item.1) = some item :=
    itemAt_eq_some_iff.2 ⟨rfl, look_of_walk met⟩
  rw [walk_add met 1, walk, here]
  rfl

/-- A walk has no gaps. -/
theorem exists_walk_of_le (le : first ≤ second) (met : walk look next second start = some item) :
    ∃ sooner, walk look next first start = some sooner := by
  induction first generalizing start second with
  | zero =>
    cases second with
    | zero => exact ⟨item, met⟩
    | succ second =>
      obtain ⟨sooner, here, _⟩ := Option.bind_eq_some_iff.1 met
      exact ⟨sooner, here⟩
  | succ first ih =>
    obtain ⟨second, rfl⟩ : ∃ fewer, second = fewer + 1 := ⟨second - 1, by omega⟩
    obtain ⟨sooner, here, rest⟩ := Option.bind_eq_some_iff.1 met
    obtain ⟨between, found⟩ := ih (Nat.le_of_succ_le_succ le) rest
    exact ⟨between, by rw [walk, here]; exact found⟩

/-- The walk depends on the items of the handles it comes to and on no others. -/
theorem walk_congr (kept : Handle → Prop) (same : ∀ handle, kept handle → other handle = look handle)
    (closed : ∀ handle data after, kept handle → look handle = some data →
      next data = some after → kept after)
    (starts : ∀ handle, start = some handle → kept handle) (steps : Nat) :
    walk other next steps start = walk look next steps start := by
  induction steps generalizing start with
  | zero =>
    cases start with
    | none => rfl
    | some handle => simp [walk, itemAt, same handle (starts handle rfl)]
  | succ steps ih =>
    cases start with
    | none => rfl
    | some handle =>
      have held := starts handle rfl
      cases found : look handle with
      | none => simp [walk, itemAt, same handle held, found]
      | some data =>
        simp only [walk, itemAt, same handle held, found, Option.bind_some, Option.map_some]
        exact ih fun after leads => closed handle data after held found leads

/-- What is found first depends on the walk alone. -/
theorem firstAlong_congr {β : Type}
    (same : ∀ steps, walk other next steps start = walk look next steps start)
    (gives : α → Option β) : FirstAlong other next gives start = FirstAlong look next gives start := by
  funext found
  cases found <;> simp only [FirstAlong, same]

/-! ## Walks that are extended -/

section
variable {β : Type} {alike : α → α → Prop} {gives : α → Option β} {value : β}
variable (kept : ∀ handle data, look handle = some data →
  ∃ again, other handle = some again ∧ alike data again)
include kept

/-- What is found first along a longer line, where nothing was found before, is found at something that was
not met before. -/
theorem newly_met (same : ∀ data again, alike data again → gives again = gives data)
    (nothing : FirstAlong look next gives start none)
    (found : FirstAlong other next gives start (some value)) :
    ∃ steps item, walk other next steps start = some item ∧ gives item.2 = some value ∧
      ∀ fewer one, walk look next fewer start = some one → one.1 ≠ item.1 := by
  obtain ⟨steps, item, met, given, -⟩ := found
  refine ⟨steps, item, met, given, fun fewer one passed here => ?_⟩
  obtain ⟨again, there, alike⟩ := kept one.1 one.2 (look_of_walk passed)
  obtain rfl : item.2 = again := by
    rw [here, look_of_walk met] at there
    exact Option.some.inj there
  rw [same one.2 item.2 alike, nothing fewer one passed] at given
  cases given

variable (links : ∀ data again after, alike data again → next data = some after →
  next again = some after)
include links

/-- Where things have kept the links they had, a walk goes on as it went. -/
theorem walk_of_kept (met : walk look next steps start = some item) :
    ∃ again, walk other next steps start = some (item.1, again) ∧ alike item.2 again := by
  induction steps generalizing start with
  | zero =>
    obtain ⟨starts, found⟩ := itemAt_eq_some_iff.1 met
    obtain ⟨again, there, same⟩ := kept item.1 item.2 found
    exact ⟨again, itemAt_eq_some_iff.2 ⟨starts, there⟩, same⟩
  | succ steps ih =>
    obtain ⟨first, here, rest⟩ := Option.bind_eq_some_iff.1 met
    obtain ⟨starts, found⟩ := itemAt_eq_some_iff.1 here
    obtain ⟨again, there, same⟩ := kept first.1 first.2 found
    -- the walk goes further, so there was a link to keep
    obtain ⟨after, leads⟩ : ∃ after, next first.2 = some after := by
      obtain ⟨sooner, begun⟩ := exists_walk_of_le (Nat.zero_le steps) rest
      exact ⟨sooner.1, (itemAt_eq_some_iff.1 begun).1⟩
    rw [leads] at rest
    have first' : itemAt other start = some (first.1, again) := itemAt_eq_some_iff.2 ⟨starts, there⟩
    obtain ⟨last, reached, alike⟩ := ih rest
    refine ⟨last, ?_, alike⟩
    rw [walk, first', Option.bind_some, links first.2 again after same leads]
    exact reached

/-- What was found first along the line is found first along the longer line. -/
theorem firstAlong_of_kept (same : ∀ data again, alike data again → gives again = gives data)
    (found : FirstAlong look next gives start (some value)) :
    FirstAlong other next gives start (some value) := by
  obtain ⟨steps, item, met, given, before⟩ := found
  obtain ⟨again, reached, alike⟩ := walk_of_kept kept links met
  refine ⟨steps, (item.1, again), reached, (same item.2 again alike).trans given, ?_⟩
  intro fewer less sooner there
  obtain ⟨one, passed⟩ := exists_walk_of_le (Nat.le_of_lt less) met
  obtain ⟨again', reached', alike'⟩ := walk_of_kept kept links passed
  obtain rfl : (one.1, again') = sooner := Option.some.inj (reached'.symm.trans there)
  exact (same one.2 again' alike').trans (before fewer less one passed)

end

/-! ## Walks and trails -/

theorem getElem?_trail (look : Handle → Option α) (next : α → Option Handle) (limit : Nat)
    (start : Option Handle) (steps : Nat) :
    (trail look next limit start)[steps]? =
      if steps < limit then walk look next steps start else none := by
  induction limit generalizing start steps with
  | zero => simp [trail]
  | succ limit ih =>
    cases start with
    | none => cases steps <;> simp [trail, walk, itemAt]
    | some handle =>
      cases found : look handle with
      | none => cases steps <;> simp [trail, walk, itemAt, found]
      | some data =>
        cases steps with
        | zero => simp [trail, walk, itemAt, found]
        | succ steps => simp [trail, walk, itemAt, found, ih]

/-- Each place of a trail is reached by the walk. -/
theorem walk_of_lt_length (inside : steps < (trail look next limit start).length) :
    steps < limit ∧
      walk look next steps start = some ((trail look next limit start)[steps]) := by
  have there := getElem?_trail look next limit start steps
  rw [List.getElem?_eq_getElem inside] at there
  split at there
  · next short => exact ⟨short, there.symm⟩
  · cases there

theorem look_of_mem_handles {handle : Handle}
    (listed : handle ∈ (trail look next limit start).map Prod.fst) : (look handle).isSome = true := by
  obtain ⟨one, member, rfl⟩ := List.mem_map.1 listed
  obtain ⟨steps, inside, rfl⟩ := List.mem_iff_getElem.1 member
  simp [look_of_walk (walk_of_lt_length inside).2]

/-- A walk that is longer than there are items meets one of them again. -/
theorem exists_repeat (few : AtMost look limit) (met : walk look next limit start = some item) :
    ∃ first second one again, first < second ∧ second ≤ limit ∧
      walk look next first start = some one ∧ walk look next second start = some again ∧
      one.1 = again.1 := by
  have long : limit < ((trail look next (limit + 1) start).map Prod.fst).length := by
    have last : (trail look next (limit + 1) start)[limit]? = some item := by
      rw [getElem?_trail, if_pos (Nat.lt_succ_self limit), met]
    rw [List.length_map]
    exact (List.getElem?_eq_some_iff.1 last).1
  have twice : ¬ ((trail look next (limit + 1) start).map Prod.fst).Nodup := fun distinct =>
    absurd (few _ distinct fun _ => look_of_mem_handles) (Nat.not_le.2 long)
  by_contra never
  refine twice (List.pairwise_map.2 (List.pairwise_iff_getElem.2 ?_))
  intro first second inside within less same
  obtain ⟨-, one⟩ := walk_of_lt_length inside
  obtain ⟨short, again⟩ := walk_of_lt_length within
  exact never ⟨first, second, _, _, less, Nat.le_of_lt_succ short, one, again, same⟩

/-- Whatever a walk meets it meets before it has taken more steps than there are items. -/
theorem walk_within (few : AtMost look limit) (met : walk look next steps start = some item) :
    ∃ sooner ≤ steps, sooner < limit ∧ walk look next sooner start = some item := by
  induction steps using Nat.strongRecOn with
  | ind steps ih =>
    by_cases short : steps < limit
    · exact ⟨steps, Nat.le_refl steps, short, met⟩
    · have far := Nat.le_of_not_lt short
      obtain ⟨last, reached⟩ := exists_walk_of_le far met
      obtain ⟨first, second, one, again, less, inside, before, after, same⟩ :=
        exists_repeat few reached
      -- the part between the two meetings can be left out
      have shorter : walk look next (first + (steps - second)) start = some item := by
        rw [walk_add before, same, ← walk_add after, ← met]
        congr 1
        omega
      obtain ⟨sooner, le, short, found⟩ := ih _ (by omega) shorter
      exact ⟨sooner, by omega, short, found⟩

/-- A trail as long as there are items meets what the walk meets. -/
theorem mem_trail_iff (few : AtMost look limit) :
    item ∈ trail look next limit start ↔ ∃ steps, walk look next steps start = some item := by
  rw [List.mem_iff_getElem?]
  constructor
  · rintro ⟨steps, found⟩
    rw [getElem?_trail] at found
    split at found
    · exact ⟨steps, found⟩
    · cases found
  · rintro ⟨steps, met⟩
    obtain ⟨sooner, _, short, found⟩ := walk_within few met
    exact ⟨sooner, by rw [getElem?_trail, if_pos short, found]⟩

/-- Where a walk meets nothing twice, the trail is all of it. -/
theorem getElem?_trail_of_distinct (few : AtMost look limit)
    (distinct : ∀ first second one again, walk look next first start = some one →
      walk look next second start = some again → one.1 = again.1 → first = second) (steps : Nat) :
    (trail look next limit start)[steps]? = walk look next steps start := by
  rw [getElem?_trail]
  split
  · rfl
  · next far =>
    cases met : walk look next steps start with
    | none => rfl
    | some item =>
      obtain ⟨sooner, _, short, found⟩ := walk_within few met
      have same := distinct sooner steps item item found met rfl
      omega

/-- So a search along a trail as long as there are items finds what the first item of the walk gives
that gives anything. -/
theorem findSome?_trail_eq_iff {β : Type} (few : AtMost look limit) (gives : α → Option β)
    {found : Option β} :
    (trail look next limit start).findSome? (fun item => gives item.2) = found ↔
      FirstAlong look next gives start found := by
  cases found with
  | none =>
    simp only [List.findSome?_eq_none_iff, mem_trail_iff few, FirstAlong]
    exact ⟨fun none steps item met => none item ⟨steps, met⟩,
      fun none item ⟨steps, met⟩ => none steps item met⟩
  | some value =>
    rw [List.findSome?_eq_some_iff]
    constructor
    · rintro ⟨front, item, back, whole, given, before⟩
      have reached (steps : Nat) (inside : steps < (front ++ item :: back).length) :
          walk look next steps start = some ((front ++ item :: back)[steps]) := by
        simp only [← whole] at inside ⊢
        exact (walk_of_lt_length inside).2
      refine ⟨front.length, item, by simp [reached front.length], given, ?_⟩
      intro fewer less sooner met
      rw [reached fewer (by simp; omega), List.getElem_append_left less] at met
      cases met
      exact before _ (List.getElem_mem less)
    · rintro ⟨steps, item, met, given, before⟩
      obtain ⟨sooner, le, short, found⟩ := walk_within few met
      -- an item that gives something is not met any sooner
      obtain rfl : sooner = steps := by
        refine Nat.le_antisymm le (Nat.le_of_not_lt fun less => ?_)
        have nothing := before sooner less item found
        rw [given] at nothing
        cases nothing
      have here : (trail look next limit start)[sooner]? = some item := by
        rw [getElem?_trail, if_pos short, found]
      obtain ⟨inside, here⟩ := List.getElem?_eq_some_iff.1 here
      refine ⟨(trail look next limit start).take sooner, item,
        (trail look next limit start).drop (sooner + 1), ?_, given, ?_⟩
      · rw [← here, List.getElem_cons_drop, List.take_append_drop]
      · intro one listed
        obtain ⟨fewer, less, rfl⟩ := List.mem_take_iff_getElem.1 listed
        exact before fewer (by omega) _ (walk_of_lt_length (by omega)).2

end
end ScriptHeap
