import ScriptHeap.SpelledMap
import ScriptHeap.Table.Lemmas
import Mathlib.Data.List.Find
import Mathlib.Data.List.Induction
import Mathlib.Data.List.Nodup
import Mathlib.Data.Set.Function

/-! A map of a script is one list of entries, whatever its two tables are. The list is a specification
of its own: an edit rewrites it without hashes, tables or look-ups, and every question that a map answers
is answered from it. Keys are the hashes of texts in general, and the texts themselves as long as no two
of them collide. -/
namespace ScriptHeap.SpelledMap

/-- One entry: its key, the spelling under which the key first arrived, and its value. -/
structure Entry (κ : Type) where
  key : κ
  spelling : String
  value : Value
deriving DecidableEq

/-- What scripts do to a map. -/
inductive Edit where
  | put (text : String) (value : Value)
  | remove (text : String)
  | clear

namespace Edit

/-- The value given back, and the map afterwards. -/
def perform : Edit → SpelledMap → Option Value × SpelledMap
  | put text value, map => map.put text value
  | remove text, map => map.remove text
  | clear, map => (none, map.clear)

/-- The edit uses these texts only. -/
def Within (asked : Set String) : Edit → Prop
  | put text _ | remove text => text ∈ asked
  | clear => True

end Edit

/-- The map that edits of an empty one lead to. -/
def run (edits : List Edit) : SpelledMap :=
  edits.foldl (fun map edit => (edit.perform map).2) empty

/-! ## The list that a map stands for -/

section
variable {κ : Type} [DecidableEq κ]

/-- The entry at a key. -/
def entryAt? (entries : List (Entry κ)) (key : κ) : Option (Entry κ) :=
  entries.find? fun entry => entry.key = key

/-- A key that is present gets a new value and nothing else, an absent one goes to the end with the
spelling at hand, and a removed one leaves the others as they stand. -/
def Edit.rewrite (name : String → κ) : Edit → List (Entry κ) → List (Entry κ)
  | put text value, entries =>
    if name text ∈ entries.map Entry.key then
      entries.map fun entry => if entry.key = name text then { entry with value } else entry
    else entries ++ [⟨name text, text, value⟩]
  | remove text, entries => entries.filter fun entry => entry.key ≠ name text
  | clear, _ => []

/-- The value that an edit gives back is the one it displaces or removes. -/
def Edit.answer (name : String → κ) : Edit → List (Entry κ) → Option Value
  | put text _, entries | remove text, entries => (entryAt? entries (name text)).map Entry.value
  | clear, _ => none

/-- The list that edits of an empty one lead to. -/
def record (name : String → κ) (edits : List Edit) : List (Entry κ) :=
  edits.foldl (fun entries edit => edit.rewrite name entries) []

/-- All that a map lists, and all that it answers about these texts, is read off one list of entries
with pairwise different keys. -/
structure Reads (name : String → κ) (asked : Set String) (map : SpelledMap)
    (entries : List (Entry κ)) : Prop where
  distinct : (entries.map Entry.key).Nodup
  listed : map.entries = entries.map fun entry => (entry.spelling, entry.value)
  keys : map.keys = entries.map Entry.spelling
  values : map.valueList = entries.map Entry.value
  size : map.size = entries.length
  isEmpty : map.isEmpty = entries.isEmpty
  get : ∀ text ∈ asked, map.get? text = (entryAt? entries (name text)).map Entry.value
  contains : ∀ text ∈ asked, map.contains text = (entryAt? entries (name text)).isSome
  answers : ∀ edit : Edit, edit.Within asked → (edit.perform map).1 = edit.answer name entries

private theorem entryAt?_eq_none {entries : List (Entry κ)} {key : κ} :
    entryAt? entries key = none ↔ key ∉ entries.map Entry.key := by
  simp only [entryAt?, List.find?_eq_none, List.mem_map, decide_eq_true_eq, not_exists, not_and]

private theorem entryAt?_of_mem {entries : List (Entry κ)} {entry : Entry κ}
    (distinct : (entries.map Entry.key).Nodup) (member : entry ∈ entries) :
    entryAt? entries entry.key = some entry := by
  induction entries with
  | nil => cases member
  | cons first rest ih =>
    obtain ⟨fresh, distinctRest⟩ := List.nodup_cons.mp distinct
    rcases List.mem_cons.mp member with rfl | later
    · simp [entryAt?]
    · have different : first.key ≠ entry.key := fun same =>
        fresh (List.mem_map.mpr ⟨entry, later, same.symm⟩)
      rw [entryAt?, List.find?_cons_of_neg (by simpa using different)]
      exact ih distinctRest later

end

/-! ## The two tables follow the list -/

/-- Both tables hold the keys of the list in its order, one with the values and one with the spellings. -/
structure Mirrors (map : SpelledMap) (entries : List (Entry NameHash)) : Prop where
  values : map.values.entries = entries.map fun entry => (entry.key, entry.value)
  spellings : map.spellings.entries = entries.map fun entry => (entry.key, entry.spelling)

section
variable {α : Type} {table : Table α} {entries : List (Entry NameHash)} {part : Entry NameHash → α}

private theorem keys_of_entries (same : table.entries = entries.map fun entry => (entry.key, part entry)) :
    table.keys = entries.map Entry.key := by
  rw [Table.keys, same, List.map_map]
  rfl

private theorem get?_of_entries (same : table.entries = entries.map fun entry => (entry.key, part entry))
    (key : NameHash) : table.get? key = (entryAt? entries key).map part := by
  rw [Table.get?, same]
  clear same
  induction entries with
  | nil => rfl
  | cons first rest ih =>
    rw [List.map_cons, List.lookup_cons]
    by_cases here : first.key = key
    · simp [entryAt?, here]
    · rw [beq_eq_false_iff_ne.mpr (Ne.symm here), ih, entryAt?, entryAt?,
        List.find?_cons_of_neg (by simpa using here)]

private theorem entries_insert_absent
    (same : table.entries = entries.map fun entry => (entry.key, part entry))
    (fresh : Entry NameHash) (absent : fresh.key ∉ entries.map Entry.key) :
    (table.insert fresh.key (part fresh)).entries =
      (entries ++ [fresh]).map fun entry => (entry.key, part entry) := by
  rw [Table.insert, dif_neg (by rw [keys_of_entries same]; exact absent)]
  change table.entries ++ [(fresh.key, part fresh)] = _
  rw [same, List.map_append]
  rfl

private theorem entries_insert_present
    (same : table.entries = entries.map fun entry => (entry.key, part entry))
    {key : NameHash} (present : key ∈ entries.map Entry.key) (item : α) :
    (table.insert key item).entries =
      entries.map fun entry => (entry.key, if entry.key = key then item else part entry) := by
  rw [Table.insert, dif_pos (by rw [keys_of_entries same]; exact present)]
  simp only [Table.adjust, same, List.map_map, Function.comp_def]

private theorem entries_erase (same : table.entries = entries.map fun entry => (entry.key, part entry))
    (key : NameHash) : (table.erase key).entries =
      (entries.filter fun entry => entry.key ≠ key).map fun entry => (entry.key, part entry) := by
  simp only [Table.erase, same, List.filter_map]
  congr 1
  apply List.filter_congr
  intro entry _
  simp [bne, Bool.beq_eq_decide_eq]

end

private theorem filter_absent {entries : List (Entry NameHash)} {key : NameHash}
    (absent : key ∉ entries.map Entry.key) :
    (entries.filter fun entry => entry.key ≠ key) = entries := by
  apply List.filter_eq_self.mpr
  intro entry member
  apply decide_eq_true
  intro same
  exact absent (List.mem_map.mpr ⟨entry, member, same⟩)

namespace Mirrors
variable {map : SpelledMap} {entries : List (Entry NameHash)}

/-- **One edit keeps the tables and the list together.** -/
theorem perform (mirrors : map.Mirrors entries) (edit : Edit) :
    ((edit.perform map).2).Mirrors (edit.rewrite hashName entries) := by
  have look := get?_of_entries mirrors.values
  cases edit with
  | put text value =>
    simp only [Edit.perform, SpelledMap.put, Table.put, look, Edit.rewrite]
    cases held : entryAt? entries (hashName text) with
    | none =>
      have absent := entryAt?_eq_none.mp held
      rw [if_neg absent]
      exact ⟨entries_insert_absent mirrors.values ⟨_, text, value⟩ absent,
        entries_insert_absent mirrors.spellings ⟨_, text, value⟩ absent⟩
    | some old =>
      have present : hashName text ∈ entries.map Entry.key := by
        by_contra absent
        rw [entryAt?_eq_none.mpr absent] at held
        cases held
      rw [if_pos present]
      -- only the value of the entry is another one, so the table of spellings stays
      constructor
      · rw [Option.map_some, entries_insert_present mirrors.values present, List.map_map]
        apply List.map_congr_left
        intro entry _
        simp only [Function.comp_apply]
        split <;> rfl
      · rw [Option.map_some, mirrors.spellings, List.map_map]
        apply List.map_congr_left
        intro entry _
        simp only [Function.comp_apply]
        split <;> rfl
  | remove text =>
    simp only [Edit.perform, SpelledMap.remove, Table.remove, look, Edit.rewrite]
    have erased := entries_erase mirrors.values (hashName text)
    cases held : entryAt? entries (hashName text) with
    | none =>
      -- the spellings are left alone, and have nothing there to erase either
      constructor
      · exact erased
      · rw [filter_absent (entryAt?_eq_none.mp held)]
        exact mirrors.spellings
    | some old => exact ⟨erased, entries_erase mirrors.spellings (hashName text)⟩
  | clear => exact ⟨rfl, rfl⟩

theorem consistent (mirrors : map.Mirrors entries) : map.isConsistent := by
  rw [isConsistent, keys_of_entries mirrors.values, keys_of_entries mirrors.spellings]
  apply beq_self_eq_true

theorem distinct (mirrors : map.Mirrors entries) : (entries.map Entry.key).Nodup := by
  rw [← keys_of_entries mirrors.values]
  exact map.values.distinct

theorem getByHash?_eq (mirrors : map.Mirrors entries) (hash : NameHash) :
    map.getByHash? hash = (entryAt? entries hash).map Entry.value :=
  get?_of_entries mirrors.values hash

theorem spelling?_eq (mirrors : map.Mirrors entries) (hash : NameHash) :
    map.spelling? hash = (entryAt? entries hash).map Entry.spelling :=
  get?_of_entries mirrors.spellings hash

/-- The map lists what the list holds: at the key of each spelling there is the value beside it. -/
theorem entries_eq (mirrors : map.Mirrors entries) :
    map.entries = entries.map fun entry => (entry.spelling, entry.value) := by
  rw [SpelledMap.entries, mirrors.spellings, List.filterMap_map, ← List.filterMap_eq_map]
  apply List.filterMap_congr
  intro entry member
  simp only [Function.comp_apply, get?_of_entries mirrors.values,
    entryAt?_of_mem mirrors.distinct member, Option.map_some]

theorem reads (mirrors : map.Mirrors entries) : Reads hashName Set.univ map entries where
  distinct := mirrors.distinct
  listed := mirrors.entries_eq
  keys := by
    rw [SpelledMap.keys, Table.values, mirrors.spellings, List.map_map]
    rfl
  values := by
    rw [valueList, Table.values, mirrors.values, List.map_map]
    rfl
  size := by rw [SpelledMap.size, Table.size, mirrors.values, List.length_map]
  isEmpty := by rw [SpelledMap.isEmpty, Table.isEmpty, mirrors.values, List.isEmpty_map]
  get := fun text _ => mirrors.getByHash?_eq (hashName text)
  contains := fun text _ => by
    rw [SpelledMap.contains, Table.contains_eq_isSome, get?_of_entries mirrors.values,
      Option.isSome_map]
  answers := fun edit _ => by
    have look := get?_of_entries mirrors.values
    cases edit with
    | put text value =>
      simp only [Edit.perform, put, Table.put, look, Edit.answer]
      cases entryAt? entries (hashName text) <;> rfl
    | remove text =>
      simp only [Edit.perform, remove, Table.remove, look, Edit.answer]
      cases entryAt? entries (hashName text) <;> rfl
    | clear => rfl

end Mirrors

theorem mirrors_run (edits : List Edit) : (run edits).Mirrors (record hashName edits) := by
  induction edits using List.reverseRecOn with
  | nil => exact ⟨rfl, rfl⟩
  | append_singleton edits edit ih =>
    simp only [run, record, List.foldl_append, List.foldl_cons, List.foldl_nil] at ih ⊢
    exact ih.perform edit

/-! ## Texts as keys

As long as no two texts in use have one hash, the same edits with the texts themselves as keys lead to
the same list, but for the keys that stand in it. -/

/-- The entry under the hash of its text. -/
def Entry.hashed (entry : Entry String) : Entry NameHash :=
  { entry with key := hashName entry.key }

section
variable {asked : Set String} {entries : List (Entry String)}

private theorem entryAt?_hashed (apart : asked.InjOn hashName)
    (inside : ∀ entry ∈ entries, entry.key ∈ asked) {text : String} (known : text ∈ asked) :
    entryAt? (entries.map Entry.hashed) (hashName text) =
      (entryAt? entries text).map Entry.hashed := by
  rw [entryAt?, entryAt?, List.find?_map]
  congr 1
  apply List.find?_congr
  intro entry member
  apply decide_eq_decide.mpr
  exact apart.eq_iff (inside entry member) known

private theorem mem_keys_hashed (apart : asked.InjOn hashName)
    (inside : ∀ entry ∈ entries, entry.key ∈ asked) {text : String} (known : text ∈ asked) :
    hashName text ∈ (entries.map Entry.hashed).map Entry.key ↔ text ∈ entries.map Entry.key := by
  rw [← not_iff_not, ← entryAt?_eq_none, ← entryAt?_eq_none, entryAt?_hashed apart inside known,
    Option.map_eq_none_iff]

private theorem rewrite_hashed (apart : asked.InjOn hashName)
    (inside : ∀ entry ∈ entries, entry.key ∈ asked) {edit : Edit} (within : edit.Within asked) :
    edit.rewrite hashName (entries.map Entry.hashed) = (edit.rewrite id entries).map Entry.hashed := by
  cases edit with
  | put text value =>
    simp only [Edit.rewrite, mem_keys_hashed apart inside within, id]
    split
    · rw [List.map_map, List.map_map]
      apply List.map_congr_left
      intro entry member
      simp only [Function.comp_apply, Entry.hashed, apart.eq_iff (inside entry member) within]
      split <;> rfl
    · rw [List.map_append]
      rfl
  | remove text =>
    simp only [Edit.rewrite, List.filter_map, id]
    congr 1
    apply List.filter_congr
    intro entry member
    simp only [Function.comp_apply, Entry.hashed]
    apply decide_eq_decide.mpr
    exact not_congr (apart.eq_iff (inside entry member) within)
  | clear => rfl

/-- An entry of the rewritten list is one that was there, or carries its own text as key and spelling. -/
private theorem mem_rewrite {edit : Edit} (within : edit.Within asked) {entry : Entry String}
    (member : entry ∈ edit.rewrite id entries) :
    entry.key ∈ asked ∧ entry.spelling = entry.key ∨
      ∃ old ∈ entries, entry.key = old.key ∧ entry.spelling = old.spelling := by
  cases edit with
  | put text value =>
    simp only [Edit.rewrite] at member
    split at member
    · obtain ⟨old, held, rfl⟩ := List.mem_map.mp member
      right
      refine ⟨old, held, ?_⟩
      split <;> exact ⟨rfl, rfl⟩
    · rcases List.mem_append.mp member with held | appended
      · exact Or.inr ⟨entry, held, rfl, rfl⟩
      · rw [List.mem_singleton] at appended
        subst appended
        exact Or.inl ⟨within, rfl⟩
  | remove text => exact Or.inr ⟨entry, List.mem_of_mem_filter member, rfl, rfl⟩
  | clear => cases member

end

/-- The list under texts has the texts in use as its keys, spelled as they are. -/
theorem texts_record {asked : Set String} {edits : List Edit}
    (within : ∀ edit ∈ edits, edit.Within asked) :
    ∀ entry ∈ record id edits, entry.key ∈ asked ∧ entry.spelling = entry.key := by
  induction edits using List.reverseRecOn with
  | nil => intro entry member; cases member
  | append_singleton edits edit ih =>
    intro entry member
    simp only [record, List.foldl_append, List.foldl_cons, List.foldl_nil] at member
    rcases mem_rewrite (within edit (by simp)) member with new | ⟨old, held, key, spelling⟩
    · exact new
    · obtain ⟨known, spelled⟩ := ih (fun edit member => within edit (by simp [member])) old held
      exact ⟨key ▸ known, by rw [spelling, spelled, key]⟩

theorem record_hashed {asked : Set String} (apart : asked.InjOn hashName) {edits : List Edit}
    (within : ∀ edit ∈ edits, edit.Within asked) :
    record hashName edits = (record id edits).map Entry.hashed := by
  induction edits using List.reverseRecOn with
  | nil => rfl
  | append_singleton edits edit ih =>
    have earlier : ∀ edit ∈ edits, edit.Within asked := fun edit member =>
      within edit (by simp [member])
    have inside := fun entry member => (texts_record earlier entry member).1
    simp only [record, List.foldl_append, List.foldl_cons, List.foldl_nil] at ih inside ⊢
    rw [ih earlier, rewrite_hashed apart inside (within edit (by simp))]

/-- What is read off the list under hashes is read off the list under texts. -/
theorem Reads.of_hashed {asked : Set String} {map : SpelledMap} {entries : List (Entry String)}
    (apart : asked.InjOn hashName) (inside : ∀ entry ∈ entries, entry.key ∈ asked)
    (reads : Reads hashName Set.univ map (entries.map Entry.hashed)) : Reads id asked map entries where
  distinct := by
    have distinct := reads.distinct
    rw [List.map_map] at distinct
    exact List.Nodup.of_map hashName (by rw [List.map_map]; exact distinct)
  listed := by rw [reads.listed, List.map_map]; rfl
  keys := by rw [reads.keys, List.map_map]; rfl
  values := by rw [reads.values, List.map_map]; rfl
  size := by rw [reads.size, List.length_map]
  isEmpty := by rw [reads.isEmpty, List.isEmpty_map]
  get := fun text known => by
    rw [reads.get text trivial, entryAt?_hashed apart inside known, Option.map_map]
    rfl
  contains := fun text known => by
    rw [reads.contains text trivial, entryAt?_hashed apart inside known, Option.isSome_map]
    rfl
  answers := fun edit within => by
    have everywhere : edit.Within Set.univ := by cases edit <;> exact trivial
    rw [reads.answers edit everywhere]
    cases edit with
    | put text value | remove text =>
      rw [Edit.answer, entryAt?_hashed apart inside within, Option.map_map]
      rfl
    | clear => rfl

/-- **A map is an ordered list of entries.** After any edits of an empty map the two tables agree and
hold the list of the edits under hashes, which tells all that the map lists and answers, also by hash.
If the texts in use have pairwise different hashes, the list under the texts themselves tells it. -/
theorem entries_run (edits : List Edit) :
    (run edits).isConsistent ∧ (run edits).Mirrors (record hashName edits) ∧
      Reads hashName Set.univ (run edits) (record hashName edits) ∧
      (∀ hash, (run edits).getByHash? hash =
          (entryAt? (record hashName edits) hash).map Entry.value ∧
        (run edits).spelling? hash = (entryAt? (record hashName edits) hash).map Entry.spelling) ∧
      ∀ asked : Set String, asked.InjOn hashName → (∀ edit ∈ edits, edit.Within asked) →
        Reads id asked (run edits) (record id edits) ∧
          (run edits).keys = (record id edits).map Entry.key := by
  have mirrors := mirrors_run edits
  refine ⟨mirrors.consistent, mirrors, mirrors.reads,
    fun hash => ⟨mirrors.getByHash?_eq hash, mirrors.spelling?_eq hash⟩, ?_⟩
  intro asked apart within
  have texts := texts_record within
  have reads := mirrors.reads
  rw [record_hashed apart within] at reads
  have read := Reads.of_hashed apart (fun entry member => (texts entry member).1) reads
  refine ⟨read, ?_⟩
  rw [read.keys]
  apply List.map_congr_left
  intro entry member
  exact (texts entry member).2

/-- A text that is removed and written again, and then another one with the same hash. -/
def reentered : List Edit :=
  [.put "liquid" (.integer 1), .put "speed" (.integer 2), .remove "liquid", .put "liquid" (.integer 3)]

/-- The text comes back behind the other one, and the colliding one takes its entry over. -/
theorem entries_reentered :
    (run reentered).keys = ["speed", "liquid"] ∧
      Reads id {"speed", "liquid"} (run reentered) (record id reentered) ∧
      (run (reentered ++ [.put "costarring" (.integer 4)])).entries =
        [("speed", .integer 2), ("liquid", .integer 4)] := by
  have apart : ({"speed", "liquid"} : Set String).InjOn hashName := by
    rw [Set.injOn_pair]
    intro same
    exact absurd same (by decide)
  have within : ∀ edit ∈ reentered, edit.Within {"speed", "liquid"} := by
    simp [reentered, Edit.Within]
  obtain ⟨reads, keys⟩ := (entries_run reentered).2.2.2.2 {"speed", "liquid"} apart within
  refine ⟨keys.trans (by decide), reads, ?_⟩
  rw [(entries_run (reentered ++ [Edit.put "costarring" (.integer 4)])).2.2.1.listed]
  decide

end ScriptHeap.SpelledMap
