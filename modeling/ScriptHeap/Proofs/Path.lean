import ScriptHeap.Trail

/-! Paths along links. A path has no limit on its length, so it says what the links really lead
through; a trail, which is cut after a number of steps, finds the whole of a path that is not
longer than its limit. -/
namespace ScriptHeap

/-- From `start` the links lead through these handles in this order, and then stand at `stop`. A
handle without an entry leads nowhere. -/
inductive Path (next : Handle → Option (Option Handle)) :
    Option Handle → List Handle → Option Handle → Prop where
  | nil {stop : Option Handle} : Path next stop [] stop
  | cons {handle : Handle} {after stop : Option Handle} {visited : List Handle} :
      next handle = some after → Path next after visited stop →
      Path next (some handle) (handle :: visited) stop

namespace Path
variable {next other : Handle → Option (Option Handle)} {start middle stop : Option Handle}
variable {handle : Handle} {visited front back : List Handle}

theorem append (first : Path next start front middle) (second : Path next middle back stop) :
    Path next start (front ++ back) stop := by
  induction first with
  | nil => exact second
  | cons link _ ih => exact .cons link (ih second)

theorem split (path : Path next start (front ++ back) stop) :
    ∃ middle, Path next start front middle ∧ Path next middle back stop := by
  induction front generalizing start with
  | nil => exact ⟨start, .nil, path⟩
  | cons handle front ih =>
    cases path with
    | cons link rest =>
      obtain ⟨middle, first, second⟩ := ih rest
      exact ⟨middle, .cons link first, second⟩

/-- A path depends on the links of the handles it visits and on no others. -/
theorem congr (path : Path next start visited stop)
    (same : ∀ handle ∈ visited, other handle = next handle) : Path other start visited stop := by
  induction path with
  | nil => exact .nil
  | @cons handle _ _ visited link _ ih =>
    have here : other handle = next handle := same handle (by simp)
    exact .cons (here.trans link) (ih fun later listed => same later (List.mem_cons_of_mem _ listed))

theorem linked (path : Path next start visited stop) :
    ∀ handle ∈ visited, (next handle).isSome = true := by
  induction path with
  | nil => simp
  | cons link _ ih =>
    intro later listed
    rcases List.mem_cons.1 listed with rfl | listed
    · simp [link]
    · exact ih later listed

theorem start_eq (path : Path next start (handle :: visited) stop) : start = some handle := by
  cases path
  rfl

theorem start_eq_head? (path : Path next start visited none) : start = visited.head? := by
  cases path <;> rfl

/-- There is only one way to the end. -/
theorem eq_of_ends (first : Path next start front none) (second : Path next start back none) :
    front = back := by
  induction front generalizing start back with
  | nil =>
    cases first
    cases second
    rfl
  | cons handle front ih =>
    cases first with
    | cons link first =>
      cases second with
      | cons again second =>
        rw [link] at again
        cases again
        rw [ih first second]

/-- A path that comes to an end has not passed the same handle twice. -/
theorem nodup (path : Path next start visited none) : visited.Nodup := by
  induction visited generalizing start with
  | nil => exact .nil
  | cons handle visited ih =>
    have whole := path
    cases path with
    | cons link rest =>
      refine List.nodup_cons.2 ⟨fun listed => ?_, ih rest⟩
      obtain ⟨front, back, rfl⟩ := List.append_of_mem listed
      obtain ⟨middle, _, again⟩ := rest.split
      obtain rfl := again.start_eq
      -- both visits go on to the end in the same way, so one would be longer than itself
      have lengths := congrArg List.length (whole.eq_of_ends again)
      simp only [List.length_cons, List.length_append] at lengths
      omega

theorem ne_of_mem (path : Path next start (front ++ handle :: back) none) {one : Handle}
    (listed : one ∈ front ++ back) : one ≠ handle := by
  have distinct := path.nodup
  rintro rfl
  simp only [List.nodup_append, List.nodup_cons, List.mem_cons] at distinct
  rcases List.mem_append.1 listed with listed | listed
  · exact distinct.2.2 one listed one (.inl rfl) rfl
  · exact distinct.2.1.1 listed

/-- The links in the middle of a path that ends. -/
theorem next_eq (path : Path next start (front ++ handle :: back) none) :
    next handle = some back.head? := by
  obtain ⟨middle, _, rest⟩ := path.split
  cases rest with
  | cons link rest => rw [link, rest.start_eq_head?]

/-- Only the handle right before another one leads to it. -/
theorem getLast?_of_next (path : Path next start (front ++ handle :: back) none) {before : Handle}
    (listed : before ∈ front ++ handle :: back) (leads : next before = some (some handle)) :
    front.getLast? = some before := by
  have distinct := path.nodup
  rcases List.mem_append.1 listed with listed | listed
  · obtain ⟨earlier, later, rfl⟩ := List.append_of_mem listed
    rw [List.append_assoc, List.cons_append] at path
    have following := path.next_eq
    rw [leads] at following
    cases later with
    | nil => simp
    | cons first later =>
      simp only [List.cons_append, List.head?_cons, Option.some.injEq] at following
      subst following
      simp [List.nodup_append] at distinct
  · obtain ⟨earlier, later, whole⟩ := List.append_of_mem listed
    rw [whole, ← List.append_assoc] at path
    have following := path.next_eq
    rw [leads, Option.some.injEq] at following
    have behind : handle ∈ later := List.mem_of_head? following.symm
    -- what is led to would be both at the front of this part and behind its predecessor
    have again := (List.nodup_append.1 distinct).2.1
    cases earlier with
    | nil =>
      cases whole
      exact absurd behind (List.nodup_cons.1 again).1
    | cons first earlier =>
      cases whole
      exact absurd (by simp [behind]) (List.nodup_cons.1 again).1

/-- The handle right before another one does lead to it. -/
theorem next_getLast? (path : Path next start (front ++ handle :: back) none) {before : Handle}
    (last : front.getLast? = some before) : next before = some (some handle) := by
  obtain ⟨earlier, rfl⟩ := List.getLast?_eq_some_iff.1 last
  rw [List.append_assoc] at path
  exact path.next_eq

/-- A part of a path exchanged for another one. What was before it is led to where the new part enters;
where nothing was, that is the new start. -/
theorem splice {entry : Option Handle} {old new : List Handle}
    (path : Path next start (front ++ (old ++ back)) none) (segment : Path other entry new back.head?)
    (led : ∀ one ∈ front ++ back,
      other one = if front.getLast? = some one then some entry else next one) :
    Path other (if front = [] then entry else start) (front ++ (new ++ back)) none := by
  have distinct : (front ++ back).Nodup :=
    path.nodup.sublist (List.Sublist.append_left (List.sublist_append_right old back) front)
  obtain ⟨middle, first, rest⟩ := path.split
  obtain ⟨behind, -, rest⟩ := rest.split
  have ending : Path other back.head? back none := by
    rw [← rest.start_eq_head?]
    refine rest.congr fun one listed => ?_
    have different : front.getLast? ≠ some one := fun last =>
      (List.nodup_append.1 distinct).2.2 one (List.mem_of_getLast? last) one listed rfl
    rw [led one (List.mem_append_right _ listed), if_neg different]
  cases last : front.getLast? with
  | none =>
    obtain rfl := List.getLast?_eq_none_iff.1 last
    exact segment.append ending
  | some before =>
    obtain ⟨earlier, rfl⟩ := List.getLast?_eq_some_iff.1 last
    obtain ⟨middle, lead, step⟩ := first.split
    obtain rfl := step.start_eq
    have kept : Path other start earlier (some before) := by
      refine lead.congr fun one listed => ?_
      have different : before ≠ one := by
        rintro rfl
        simp only [List.append_assoc, List.nodup_append] at distinct
        exact distinct.2.2 before listed before (by simp) rfl
      rw [led one (by simp [listed]), if_neg (by simp [different])]
    have turned : other before = some entry := by
      rw [led before (by simp), if_pos last]
    have nonempty : earlier ++ [before] ≠ [] := by simp
    rw [if_neg nonempty]
    exact (kept.append (.cons turned .nil)).append (segment.append ending)

/-- Leading past a handle. -/
theorem bypass (path : Path next start (front ++ handle :: back) none)
    (led : ∀ one ∈ front ++ back,
      other one = if front.getLast? = some one then some back.head? else next one) :
    Path other (if front = [] then back.head? else start) (front ++ back) none := by
  have whole : Path next start (front ++ ([handle] ++ back)) none := path
  exact whole.splice .nil led

/-- Leading through one handle more. -/
theorem insert (path : Path next start (front ++ back) none) (link : other handle = some back.head?)
    (led : ∀ one ∈ front ++ back,
      other one = if front.getLast? = some one then some (some handle) else next one) :
    Path other (if front = [] then some handle else start) (front ++ handle :: back) none := by
  have whole : Path next start (front ++ ([] ++ back)) none := path
  exact whole.splice (.cons link .nil) led

end Path

/-! ## Paths and trails -/

section
variable {α : Type} {look : Handle → Option α} {link : α → Option Handle}
variable {start stop : Option Handle} {visited : List Handle} {limit : Nat}

theorem look_of_mem_trail {item : Handle × α} (met : item ∈ trail look link limit start) :
    look item.1 = some item.2 := by
  induction limit generalizing start with
  | zero => simp [trail] at met
  | succ limit ih =>
    cases start with
    | none => simp [trail] at met
    | some handle =>
      simp only [trail] at met
      split at met
      · next found =>
        rcases List.mem_cons.1 met with rfl | met
        · exact found
        · exact ih met
      · simp at met

/-- A trail is a path, as far as it goes. -/
theorem path_trail (look : Handle → Option α) (link : α → Option Handle) (limit : Nat)
    (start : Option Handle) :
    Path (fun handle => (look handle).map link) start
      ((trail look link limit start).map Prod.fst) (trailEnd look link limit start) := by
  induction limit generalizing start with
  | zero => exact .nil
  | succ limit ih =>
    cases start with
    | none => exact .nil
    | some handle =>
      simp only [trail, trailEnd]
      split
      · next item found => exact .cons (by simp [found]) (ih _)
      · exact .nil

/-- A path that is not longer than the limit and ends where nothing can be looked at is the whole
trail. -/
theorem trail_eq_path (path : Path (fun handle => (look handle).map link) start visited stop)
    (dead : ∀ handle, stop = some handle → look handle = none) (short : visited.length ≤ limit) :
    (trail look link limit start).map Prod.fst = visited ∧ trailEnd look link limit start = stop := by
  induction path generalizing limit with
  | @nil stop =>
    cases stop with
    | none => cases limit <;> exact ⟨rfl, rfl⟩
    | some handle => cases limit <;> simp [trail, trailEnd, dead handle rfl]
  | @cons handle after stop visited step _ ih =>
    cases limit with
    | zero => simp at short
    | succ limit =>
      obtain ⟨item, found, rfl⟩ := Option.map_eq_some_iff.1 step
      obtain ⟨met, ended⟩ := ih dead (Nat.le_of_succ_le_succ short)
      exact ⟨by simp [trail, found, met], by simp [trailEnd, found, ended]⟩

end
end ScriptHeap
