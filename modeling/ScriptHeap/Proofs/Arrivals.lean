import Mathlib.Data.List.Induction
import Mathlib.Logic.Function.Basic
import ScriptHeap.Table.Lemmas

/-! Tables over their histories. After any edits a table answers as the plain map that went through the
same edits, and lists its keys by their arrival: each stands where its first write put it since it was
last taken out. A copy from another table is a merge in which the other one's values win and its new keys
arrive in its order. -/
namespace ScriptHeap.Table

/-! ## Edits of tables -/

/-- What is done to tables that go by names. -/
inductive Edit (ι α : Type) where
  | put (name : ι) (key : NameHash) (value : α)
  | remove (name : ι) (key : NameHash)
  /-- A write to the value that is there, if there is one. -/
  | update (name : ι) (key : NameHash) (value : α)
  | clear (name : ι)
  | copyFrom (name source : ι)

section
variable {ι α : Type}

namespace Edit

/-- The table that is edited. -/
def target : Edit ι α → ι
  | put name _ _ | remove name _ | update name _ _ | clear name | copyFrom name _ => name

/-- What becomes of it. -/
def result (tables : ι → Table α) : Edit ι α → Table α
  | put name key value => ((tables name).put key value).2
  | remove name key => ((tables name).remove key).2
  | update name key value => ((tables name).replace? key value).getD (tables name)
  | clear _ => empty
  | copyFrom name source => (tables name).copyFrom (tables source)

variable [DecidableEq ι]

def perform (edit : Edit ι α) (tables : ι → Table α) : ι → Table α :=
  Function.update tables edit.target (edit.result tables)

end Edit

/-! ## What they hold -/

/-- The values under the keys of the edited table, going by plain maps. -/
def Edit.held (maps : ι → NameHash → Option α) : Edit ι α → NameHash → Option α
  | put name key value => Function.update (maps name) key (some value)
  | remove name key => Function.update (maps name) key none
  | update name key value => Function.update (maps name) key ((maps name key).map fun _ => value)
  | clear _ => fun _ => none
  | copyFrom name source => fun key => (maps source key).or (maps name key)

theorem Edit.get?_result (edit : Edit ι α) (tables : ι → Table α) :
    (edit.result tables).get? = edit.held fun name => (tables name).get? := by
  funext other
  cases edit with
  | put name key value =>
    rw [result, Table.put, get?_insert, held, Function.update_apply]
  | remove name key =>
    rw [result, Table.remove, get?_erase, held, Function.update_apply]
  | update name key value =>
    rw [result, (getD_replace? (tables name) key value).2, held, Function.update_apply]
  | clear name => rfl
  | copyFrom name source => exact get?_copyFrom ..

/-! ## When keys arrive -/

/-- What happens to the keys of a table. -/
inductive Turn where
  | enters (key : NameHash)
  | leaves (key : NameHash)
  | clears
deriving DecidableEq

namespace Turn

/-- Whether a turn takes a key out. -/
def takes (key : NameHash) : Turn → Bool
  | enters _ => false
  | leaves other => other == key
  | clears => true

/-- The keys after a turn. -/
def rewrite (keys : List NameHash) : Turn → List NameHash
  | enters key => if key ∈ keys then keys else keys ++ [key]
  | leaves key => keys.filter (· != key)
  | clears => []

end Turn

/-- As often as the key has entered, it has been taken out again. -/
def Absent (log : List Turn) (key : NameHash) : Prop :=
  ∀ before after, log = before ++ .enters key :: after → ∃ turn ∈ after, turn.takes key = true

/-- The key entered at this turn, when it was absent, and has not been taken out since. -/
def Arrived (log : List Turn) (key : NameHash) (time : Nat) : Prop :=
  ∃ before after, log = before ++ .enters key :: after ∧ before.length = time ∧ Absent before key ∧
    ∀ turn ∈ after, turn.takes key = false

/-- What an edit does to the keys of its table, in order. -/
def Edit.turns (tables : ι → Table α) : Edit ι α → List Turn
  | put _ key _ => [.enters key]
  | remove _ key => [.leaves key]
  | update .. => []
  | clear _ => [.clears]
  | copyFrom _ source => (tables source).keys.map .enters

section
variable {log : List Turn} {turn : Turn} {key : NameHash} {time : Nat} {keys : List NameHash}

/-- A turn of a longer log is the last one, or one of the log. -/
private theorem concat_eq_iff {before after : List Turn} {one : Turn} :
    log ++ [turn] = before ++ one :: after ↔
      (after = [] ∧ log = before ∧ turn = one) ∨
        ∃ later, after = later ++ [turn] ∧ log = before ++ one :: later := by
  constructor
  · intro same
    rcases List.eq_nil_or_concat after with rfl | ⟨later, last, rfl⟩
    · obtain ⟨rfl, last⟩ := List.append_inj' same rfl
      exact .inl ⟨rfl, rfl, List.singleton_inj.1 last⟩
    · rw [List.concat_eq_append, ← List.cons_append, ← List.append_assoc] at same
      obtain ⟨rfl, last'⟩ := List.append_inj' same rfl
      obtain rfl := List.singleton_inj.1 last'
      exact .inr ⟨later, List.concat_eq_append, rfl⟩
  · rintro (⟨rfl, rfl, rfl⟩ | ⟨later, rfl, rfl⟩)
    · rfl
    · rw [← List.cons_append, List.append_assoc]

theorem absent_concat :
    Absent (log ++ [turn]) key ↔ turn ≠ .enters key ∧ (turn.takes key = true ∨ Absent log key) := by
  constructor
  · intro absent
    refine ⟨?_, ?_⟩
    · rintro rfl
      obtain ⟨other, listed, -⟩ := absent log [] rfl
      cases listed
    · by_cases takes : turn.takes key = true
      · exact .inl takes
      · right
        rintro before after rfl
        obtain ⟨other, listed, taken⟩ := absent before (after ++ [turn]) (by simp)
        rcases List.mem_append.1 listed with sooner | last
        · exact ⟨other, sooner, taken⟩
        · rw [List.mem_singleton.1 last] at taken
          exact absurd taken takes
  · rintro ⟨other, absent⟩ before after split
    rcases concat_eq_iff.1 split with ⟨-, -, same⟩ | ⟨later, rfl, rfl⟩
    · exact absurd same other
    · rcases absent with takes | absent
      · exact ⟨turn, by simp, takes⟩
      · obtain ⟨one, listed, taken⟩ := absent before later rfl
        exact ⟨one, List.mem_append_left _ listed, taken⟩

theorem arrived_concat :
    Arrived (log ++ [turn]) key time ↔
      (Arrived log key time ∧ turn.takes key = false) ∨
        (turn = .enters key ∧ Absent log key ∧ time = log.length) := by
  constructor
  · rintro ⟨before, after, split, rfl, absent, stays⟩
    rcases concat_eq_iff.1 split with ⟨rfl, rfl, rfl⟩ | ⟨later, rfl, rfl⟩
    · exact .inr ⟨rfl, absent, rfl⟩
    · exact .inl ⟨⟨before, later, rfl, rfl, absent, fun one listed => stays one (by simp [listed])⟩,
        stays turn (by simp)⟩
  · rintro (⟨⟨before, after, rfl, rfl, absent, stays⟩, leaves⟩ | ⟨rfl, absent, rfl⟩)
    · refine ⟨before, after ++ [turn], by simp, rfl, absent, ?_⟩
      intro one listed
      rcases List.mem_append.1 listed with sooner | last
      · exact stays one sooner
      · rwa [List.mem_singleton.1 last]
    · exact ⟨log, [], rfl, rfl, absent, by simp⟩

/-- A key that is not absent has arrived. -/
theorem exists_arrived_iff : (∃ time, Arrived log key time) ↔ ¬ Absent log key := by
  induction log using List.reverseRecOn with
  | nil =>
    constructor
    · rintro ⟨time, before, after, split, -⟩
      simp at split
    · intro present
      exact absurd (fun before after split => by simp at split) present
  | append_singleton log turn ih =>
    simp only [arrived_concat, absent_concat, exists_or, exists_and_right, exists_and_left,
      exists_eq, and_true, ih]
    by_cases enters : turn = .enters key
    · subst enters
      have either : ¬ Absent log key ∨ Absent log key := (Classical.em _).symm
      simpa [Turn.takes] using either
    · simp [enters, and_comm]

theorem Arrived.lt_length (arrived : Arrived log key time) : time < log.length := by
  obtain ⟨before, after, rfl, rfl, -⟩ := arrived
  simp

/-- The keys that have arrived, by arrival. -/
structure ByArrival (log : List Turn) (keys : List NameHash) : Prop where
  listed : ∀ key, key ∈ keys ↔ ∃ time, Arrived log key time
  ordered : keys.Pairwise fun one other => ∀ sooner later,
    Arrived log one sooner → Arrived log other later → sooner < later

theorem byArrival_nil : ByArrival [] [] where
  listed := by simp [Arrived]
  ordered := .nil

namespace ByArrival

/-- A key that is listed does not arrive once more. -/
theorem arrived_of_concat (order : ByArrival log keys) (listed : key ∈ keys)
    (arrived : Arrived (log ++ [turn]) key time) : Arrived log key time := by
  rcases arrived_concat.1 arrived with ⟨before, -⟩ | ⟨-, absent, -⟩
  · exact before
  · exact absurd absent (exists_arrived_iff.1 ((order.listed key).1 listed))

/-- What is left of the keys after a turn is in the order in which it was. -/
theorem ordered_concat (order : ByArrival log keys) {rest : List NameHash} (left : rest.Sublist keys) :
    rest.Pairwise fun one other => ∀ sooner later, Arrived (log ++ [turn]) one sooner →
      Arrived (log ++ [turn]) other later → sooner < later := by
  refine (order.ordered.sublist left).imp_of_mem ?_
  intro one other first second before sooner later arrived arrived'
  exact before sooner later (order.arrived_of_concat (left.subset first) arrived)
    (order.arrived_of_concat (left.subset second) arrived')

/-- **One turn keeps the keys in order.** -/
theorem concat (order : ByArrival log keys) (turn : Turn) :
    ByArrival (log ++ [turn]) (turn.rewrite keys) := by
  have present (key : NameHash) : key ∈ keys ↔ ¬ Absent log key :=
    (order.listed key).trans exists_arrived_iff
  constructor
  case listed =>
    intro key
    rw [exists_arrived_iff, absent_concat]
    cases turn with
    | enters other =>
      by_cases same : other = key
      · subst same
        by_cases held : other ∈ keys <;> simp [Turn.rewrite, held]
      · by_cases held : other ∈ keys <;>
          simp [Turn.rewrite, Turn.takes, held, same, Ne.symm same, present]
    | leaves other =>
      by_cases same : other = key
      · simp [Turn.rewrite, Turn.takes, same]
      · simp [Turn.rewrite, Turn.takes, same, Ne.symm same, present]
    | clears => simp [Turn.rewrite, Turn.takes]
  case ordered =>
    cases turn with
    | enters key =>
      rw [Turn.rewrite]
      split
      · exact order.ordered_concat (List.Sublist.refl keys)
      · next fresh =>
        refine List.pairwise_append.2
          ⟨order.ordered_concat (List.Sublist.refl keys), List.pairwise_singleton _ _, ?_⟩
        intro one listed other last sooner later arrived arrived'
        rw [List.mem_singleton.1 last] at arrived'
        -- the new key has not arrived before, so it arrives with this turn
        rcases arrived_concat.1 arrived' with ⟨before, -⟩ | ⟨-, -, rfl⟩
        · exact absurd ((order.listed key).2 ⟨later, before⟩) fresh
        · exact (order.arrived_of_concat listed arrived).lt_length
    | leaves key => exact order.ordered_concat List.filter_sublist
    | clears => exact .nil

theorem append (order : ByArrival log keys) (turns : List Turn) :
    ByArrival (log ++ turns) (turns.foldl Turn.rewrite keys) := by
  induction turns generalizing log keys with
  | nil => rwa [List.append_nil]
  | cons turn turns ih =>
    rw [List.append_cons]
    exact ih (order.concat turn)

end ByArrival
end

/-! ## Keys and turns -/

/-- What an edit leaves of the keys is what its turns make of them. -/
theorem Edit.keys_result (edit : Edit ι α) (tables : ι → Table α) :
    (edit.result tables).keys = (edit.turns tables).foldl Turn.rewrite (tables edit.target).keys := by
  cases edit with
  | put name key value => exact keys_insert ..
  | remove name key => exact keys_erase ..
  | update name key value => exact (getD_replace? ..).1
  | clear name => rfl
  | copyFrom name source =>
    have copying (entries : List (NameHash × α)) (table : Table α) :
        (entries.foldl (fun merged entry => merged.insert entry.1 entry.2) table).keys =
          (entries.map fun entry => Turn.enters entry.1).foldl Turn.rewrite table.keys := by
      induction entries generalizing table with
      | nil => rfl
      | cons entry entries ih =>
        rw [List.foldl_cons, ih, keys_insert]
        rfl
    have listed : (tables source).keys.map Turn.enters =
        (tables source).entries.map fun entry => Turn.enters entry.1 := by
      simp [Table.keys, Function.comp_def]
    rw [result, Table.copyFrom, copying, Edit.turns, listed]
    rfl

/-! ## Histories -/

variable [DecidableEq ι]

/-- The tables after the edits; at first all of them are empty. -/
def run (edits : List (Edit ι α)) : ι → Table α :=
  edits.foldl (fun tables edit => edit.perform tables) fun _ => empty

/-- What plain maps hold after the edits. -/
def contents (edits : List (Edit ι α)) : ι → NameHash → Option α :=
  edits.foldl (fun maps edit => Function.update maps edit.target (edit.held maps)) fun _ _ => none

/-- What edits of these tables do to the keys of one of them. -/
def turnsFrom (tables : ι → Table α) : List (Edit ι α) → ι → List Turn
  | [], _ => []
  | edit :: edits, name =>
    (if name = edit.target then edit.turns tables else []) ++ turnsFrom (edit.perform tables) edits name

/-- The turns of a table since it was empty. -/
def log (edits : List (Edit ι α)) (name : ι) : List Turn :=
  turnsFrom (fun _ => empty) edits name

section
variable {tables : ι → Table α} {name : ι}

theorem Edit.perform_target (edit : Edit ι α) (tables : ι → Table α) :
    edit.perform tables edit.target = edit.result tables := Function.update_self ..

theorem Edit.perform_of_ne {edit : Edit ι α} (other : edit.target ≠ name) :
    edit.perform tables name = tables name := Function.update_of_ne other.symm ..

/-- There is nothing to copy from a table when all it holds is there. -/
theorem Edit.perform_copyFrom_of_held {source : ι} (held : ∀ key value,
    (tables source).get? key = some value → (tables name).get? key = some value) :
    (Edit.copyFrom name source).perform tables = tables := by
  have same : Edit.result tables (.copyFrom name source) = tables name := copyFrom_eq_self held
  rw [perform, same]
  exact Function.update_eq_self ..

/-- A table that has been copied holds nothing that the other one lacks. -/
theorem Edit.held_perform_copyFrom {source : ι} {key : NameHash} {value : α}
    (found : ((Edit.copyFrom name source).perform tables source).get? key = some value) :
    ((Edit.copyFrom name source).perform tables name).get? key = some value := by
  by_cases same : source = name
  · subst same
    exact found
  · have kept : (Edit.copyFrom name source).perform tables source = tables source :=
      Edit.perform_of_ne (Ne.symm same)
    rw [kept] at found
    have merged : (Edit.copyFrom name source).perform tables name =
        (tables name).copyFrom (tables source) := (Edit.copyFrom name source).perform_target tables
    rw [merged, get?_copyFrom, found, Option.some_or]

theorem run_concat (edits : List (Edit ι α)) (edit : Edit ι α) :
    run (edits ++ [edit]) = edit.perform (run edits) := by
  rw [run, List.foldl_append]
  rfl

theorem contents_concat (edits : List (Edit ι α)) (edit : Edit ι α) :
    contents (edits ++ [edit]) = Function.update (contents edits) edit.target (edit.held (contents edits)) := by
  rw [contents, List.foldl_append]
  rfl

/-- The tables answer as the maps do. -/
theorem get?_run (edits : List (Edit ι α)) : (fun name => (run edits name).get?) = contents edits := by
  induction edits using List.reverseRecOn with
  | nil => rfl
  | append_singleton edits edit ih =>
    funext name
    rw [run_concat, contents_concat, ← ih]
    by_cases same : name = edit.target
    · subst same
      rw [edit.perform_target, Function.update_self, edit.get?_result]
    · rw [Edit.perform_of_ne (Ne.symm same), Function.update_of_ne same]

/-- **One edit keeps every table in order.** -/
theorem Edit.byArrival_perform (edit : Edit ι α) {log : List Turn}
    (order : ByArrival log (tables name).keys) :
    ByArrival (log ++ if name = edit.target then edit.turns tables else [])
      (edit.perform tables name).keys := by
  by_cases same : name = edit.target
  · subst same
    rw [if_pos rfl, edit.perform_target, edit.keys_result]
    exact order.append _
  · rwa [if_neg same, List.append_nil, Edit.perform_of_ne (Ne.symm same)]

/-- Any edits keep every table in order. -/
theorem byArrival_from (edits : List (Edit ι α)) (log : List Turn)
    (order : ByArrival log (tables name).keys) :
    ByArrival (log ++ turnsFrom tables edits name)
      (edits.foldl (fun tables edit => edit.perform tables) tables name).keys := by
  induction edits generalizing tables log with
  | nil => rwa [turnsFrom, List.append_nil]
  | cons edit edits ih =>
    rw [turnsFrom, ← List.append_assoc, List.foldl_cons]
    exact ih _ (edit.byArrival_perform order)

theorem byArrival_run (edits : List (Edit ι α)) (name : ι) :
    ByArrival (log edits name) (run edits name).keys :=
  byArrival_from edits [] byArrival_nil

end

/-- **A table is its history**: it holds what a plain map would hold after the edits, and its keys, none
of them twice, stand by arrival. A write to a present key leaves them where they are, a removal keeps
the order of the others, and edits of other tables do nothing to it. A copy takes the values of the other
table where it has any and appends the keys that are new, in its order; it leaves that table as it was,
and is complete the first time. Where both hold the same, there is nothing to copy. -/
theorem history_run (edits : List (Edit ι α)) (name : ι) :
    (run edits name).get? = contents edits name ∧
    (run edits name).keys.Nodup ∧
    ByArrival (log edits name) (run edits name).keys ∧
    (∀ key ∈ (run edits name).keys, ∀ value,
      (run (edits ++ [.put name key value]) name).keys = (run edits name).keys) ∧
    (∀ key, (run (edits ++ [.remove name key]) name).keys = (run edits name).keys.filter (· != key)) ∧
    (∀ edit : Edit ι α, edit.target ≠ name → run (edits ++ [edit]) name = run edits name) ∧
    ∀ source,
      (∀ key, (run (edits ++ [.copyFrom name source]) name).get? key =
        ((run edits source).get? key).or ((run edits name).get? key)) ∧
      (run (edits ++ [.copyFrom name source]) name).keys =
        (run edits name).keys ++ (run edits source).keys.filter (· ∉ (run edits name).keys) ∧
      (source ≠ name → run (edits ++ [.copyFrom name source]) source = run edits source) ∧
      run (edits ++ [.copyFrom name source, .copyFrom name source]) =
        run (edits ++ [.copyFrom name source]) ∧
      ((run edits source).get? = (run edits name).get? →
        run (edits ++ [.copyFrom name source]) = run edits) := by
  have edited (edit : Edit ι α) : run (edits ++ [edit]) edit.target = edit.result (run edits) := by
    rw [run_concat, edit.perform_target]
  have others (edit : Edit ι α) {other : ι} (apart : edit.target ≠ other) :
      run (edits ++ [edit]) other = run edits other := by
    rw [run_concat, Edit.perform_of_ne apart]
  have keeps (key : NameHash) (listed : key ∈ (run edits name).keys) (value : α) :
      (run (edits ++ [.put name key value]) name).keys = (run edits name).keys := by
    have written : (run (edits ++ [.put name key value]) name).keys = _ :=
      congrArg Table.keys (edited (.put name key value)) |>.trans (keys_insert ..)
    rw [written, if_pos listed]
  refine ⟨congrFun (get?_run edits) name, (run edits name).distinct, byArrival_run edits name, keeps,
    fun key => (congrArg Table.keys (edited (.remove name key))).trans (keys_erase ..),
    fun edit apart => others edit apart, fun source => ?_⟩
  have merged : run (edits ++ [.copyFrom name source]) name =
      (run edits name).copyFrom (run edits source) := edited (.copyFrom name source)
  refine ⟨?_, ?_, fun apart => others (.copyFrom name source) apart.symm, ?_, ?_⟩
  · intro key
    rw [merged, get?_copyFrom]
  · rw [merged, keys_copyFrom]
    simp [contains]
  · rw [List.append_cons, run_concat _ (.copyFrom name source), run_concat]
    exact Edit.perform_copyFrom_of_held fun key value found => Edit.held_perform_copyFrom found
  · intro same
    rw [run_concat]
    exact Edit.perform_copyFrom_of_held fun key value found => same ▸ found

/-- Two tables: in the first one a key is removed and comes back last. -/
def twoTables : List (Edit Bool Nat) :=
  [.put false 7 70, .put false 5 50, .put false 9 90, .remove false 7, .put false 7 71,
    .put true 4 40, .put true 9 99, .update true 4 41]

/-- The first table takes the second one's value at the key both have, and its new key. -/
theorem history_twoTables :
    (run twoTables false).keys = [5, 9, 7] ∧
    (run (twoTables ++ [.put false 9 91]) false).keys = [5, 9, 7] ∧
    run (twoTables ++ [.clear true]) false = run twoTables false ∧
    (run (twoTables ++ [.copyFrom false true]) false).keys = [5, 9, 7, 4] ∧
    (run (twoTables ++ [.copyFrom false true]) false).get? 9 = some 99 ∧
    run (twoTables ++ [.copyFrom false true]) true = run twoTables true ∧
    run (twoTables ++ [.clear true, .clear false] ++ [.copyFrom false true]) =
      run (twoTables ++ [.clear true, .clear false]) := by
  obtain ⟨-, -, -, kept, -, others, merge⟩ := history_run twoTables false
  obtain ⟨values, keys, source, -, -⟩ := merge true
  have cleared := (history_run (twoTables ++ [.clear true, .clear false]) false).2.2.2.2.2.2 true
  have first : (run twoTables false).keys = [5, 9, 7] := by decide
  refine ⟨first, ?_, ?_, ?_, ?_, ?_, ?_⟩
  · rw [kept 9 (by decide) 91, first]
  · exact others (.clear true) (by decide)
  · rw [keys, first]
    decide
  · rw [values 9]
    decide
  · exact source (by decide)
  · refine cleared.2.2.2.2 ?_
    funext key
    rfl

end
end ScriptHeap.Table
