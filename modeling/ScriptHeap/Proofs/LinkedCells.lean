import Mathlib.Data.List.Nodup
import ScriptHeap.Link
import ScriptHeap.Proofs.SlotKeys

/-! Links through a run. Ids are issued and withdrawn in any order, their slots are used again, and several
ids may stand for one cell of the host. An id stands for one cell from when it is issued until it is
withdrawn, and never for another; what is read and written through it is that cell, and through any other
id or as a number of the other kind nothing is reached. Slots and generations are unbounded in this: ids do
not wrap around. -/
namespace ScriptHeap

theorem LinkId.toSlotKey_inj {id other : LinkId} : id.toSlotKey = other.toSlotKey ↔ id = other := by
  cases id
  cases other
  simp

namespace HostCells

theorem writeInteger_eq (cells : HostCells) (cell : CellId) (n : Int32) :
    cells.writeInteger cell n = { cells with integers := Function.update cells.integers cell n } := by
  rw [writeInteger, mk.injEq]
  exact ⟨funext fun other => (Function.update_apply ..).symm, rfl⟩

theorem writeDecimal_eq (cells : HostCells) (cell : CellId) (d : Decimal) :
    cells.writeDecimal cell d = { cells with decimals := Function.update cells.decimals cell d } := by
  rw [writeDecimal, mk.injEq]
  exact ⟨rfl, funext fun other => (Function.update_apply ..).symm⟩

end HostCells

namespace LinkTable
variable {table : LinkTable} {cells : HostCells} {id other : LinkId} {n : Int32} {d : Decimal}

/-! ## One operation -/

theorem cell?_register (table : LinkTable) (cell : LinkedCell) (id : LinkId) :
    (table.register cell).2.cell? id =
      if id = (table.register cell).1 then some cell else table.cell? id := by
  have same : id.toSlotKey = table.nextKey ↔ id = (table.register cell).1 :=
    @LinkId.toSlotKey_inj id (table.register cell).1
  have served : (table.register cell).2.cell? id =
      if id.toSlotKey = table.nextKey then some cell else table.cell? id :=
    Slots.get?_insert table cell id.toSlotKey
  rw [served]
  by_cases new : id = (table.register cell).1
  · rw [if_pos new, if_pos (same.mpr new)]
  · rw [if_neg new, if_neg (mt same.mp new)]

theorem cell?_vacate (table : LinkTable) (id other : LinkId) :
    cell? (table.vacate id.toSlotKey) other = if other = id then none else table.cell? other := by
  simp only [cell?, Slots.get?_vacate, LinkId.toSlotKey_inj]

theorem readInteger_eq_some_iff :
    table.readInteger cells id = some n ↔
      ∃ cell, table.cell? id = some (.integer cell) ∧ cells.integers cell = n := by
  rw [readInteger]
  cases table.cell? id with
  | none => simp
  | some held => cases held <;> simp

theorem readDecimal_eq_some_iff :
    table.readDecimal cells id = some d ↔
      ∃ cell, table.cell? id = some (.decimal cell) ∧ cells.decimals cell = d := by
  rw [readDecimal]
  cases table.cell? id with
  | none => simp
  | some held => cases held <;> simp

theorem writeInteger?_eq_some_iff {written : HostCells} :
    table.writeInteger? cells id n = some written ↔
      ∃ cell, table.cell? id = some (.integer cell) ∧ cells.writeInteger cell n = written := by
  rw [writeInteger?]
  cases table.cell? id with
  | none => simp
  | some held => cases held <;> simp

theorem writeDecimal?_eq_some_iff {written : HostCells} :
    table.writeDecimal? cells id d = some written ↔
      ∃ cell, table.cell? id = some (.decimal cell) ∧ cells.writeDecimal cell d = written := by
  rw [writeDecimal?]
  cases table.cell? id with
  | none => simp
  | some held => cases held <;> simp

/-- A write leaves all but the cell that the id stands for, and that too if it is of the other kind. -/
theorem getD_writeInteger? (table : LinkTable) (cells : HostCells) (id : LinkId) (n : Int32) :
    ((table.writeInteger? cells id n).getD cells).decimals = cells.decimals ∧
      ∀ cell, table.cell? id ≠ some (.integer cell) →
        ((table.writeInteger? cells id n).getD cells).integers cell = cells.integers cell := by
  cases wrote : table.writeInteger? cells id n with
  | none => exact ⟨rfl, fun _ _ => rfl⟩
  | some written =>
    obtain ⟨target, held, rfl⟩ := writeInteger?_eq_some_iff.mp wrote
    refine ⟨rfl, fun cell apart => if_neg ?_⟩
    rintro rfl
    exact apart held

theorem getD_writeDecimal? (table : LinkTable) (cells : HostCells) (id : LinkId) (d : Decimal) :
    ((table.writeDecimal? cells id d).getD cells).integers = cells.integers ∧
      ∀ cell, table.cell? id ≠ some (.decimal cell) →
        ((table.writeDecimal? cells id d).getD cells).decimals cell = cells.decimals cell := by
  cases wrote : table.writeDecimal? cells id d with
  | none => exact ⟨rfl, fun _ _ => rfl⟩
  | some written =>
    obtain ⟨target, held, rfl⟩ := writeDecimal?_eq_some_iff.mp wrote
    refine ⟨rfl, fun cell apart => if_neg ?_⟩
    rintro rfl
    exact apart held

/-- A written integer is seen by the ids of that cell, and by no others. -/
theorem readInteger_writeInteger (table : LinkTable) (cells : HostCells) (cell : CellId) (n : Int32)
    (id : LinkId) :
    table.readInteger (cells.writeInteger cell n) id =
      if table.cell? id = some (.integer cell) then some n else table.readInteger cells id := by
  rw [readInteger, readInteger]
  cases table.cell? id with
  | none => rfl
  | some held =>
    cases held with
    | decimal other => simp
    | integer other =>
      by_cases same : other = cell
      · simp [HostCells.writeInteger, same]
      · simp [HostCells.writeInteger, same]

theorem readDecimal_writeDecimal (table : LinkTable) (cells : HostCells) (cell : CellId) (d : Decimal)
    (id : LinkId) :
    table.readDecimal (cells.writeDecimal cell d) id =
      if table.cell? id = some (.decimal cell) then some d else table.readDecimal cells id := by
  rw [readDecimal, readDecimal]
  cases table.cell? id with
  | none => rfl
  | some held =>
    cases held with
    | integer other => simp
    | decimal other =>
      by_cases same : other = cell
      · simp [HostCells.writeDecimal, same]
      · simp [HostCells.writeDecimal, same]

end LinkTable

/-! ## Runs -/

/-- What scripts and the host do with links and cells. The last two are the host's own writes. -/
inductive LinkAction where
  | register (cell : LinkedCell)
  | unregister (id : LinkId)
  | read (id : LinkId)
  | writeInteger (id : LinkId) (n : Int32)
  | writeDecimal (id : LinkId) (d : Decimal)
  | setInteger (cell : CellId) (n : Int32)
  | setDecimal (cell : CellId) (d : Decimal)

/-- The table and the host's cells, with the ids that were issued, newest first, and those withdrawn. -/
structure LinkHistory where
  table : LinkTable
  cells : HostCells
  issued : List (LinkId × LinkedCell)
  withdrawn : List LinkId

namespace LinkHistory

def start (cells : HostCells) : LinkHistory := ⟨.empty, cells, [], []⟩

def perform (past : LinkHistory) (action : LinkAction) : LinkHistory :=
  match action with
  | .register cell =>
    { past with
      table := (past.table.register cell).2
      issued := ((past.table.register cell).1, cell) :: past.issued }
  | .unregister id =>
    match past.table.unregister? id with
    | some table => { past with table, withdrawn := id :: past.withdrawn }
    | none => past
  | .read _ => past
  | .writeInteger id n =>
    { past with cells := (past.table.writeInteger? past.cells id n).getD past.cells }
  | .writeDecimal id d =>
    { past with cells := (past.table.writeDecimal? past.cells id d).getD past.cells }
  | .setInteger cell n => { past with cells := past.cells.writeInteger cell n }
  | .setDecimal cell d => { past with cells := past.cells.writeDecimal cell d }

def after (past : LinkHistory) (actions : List LinkAction) : LinkHistory := actions.foldl perform past

def run (cells : HostCells) (actions : List LinkAction) : LinkHistory := (start cells).after actions

/-- The id was issued for the cell and has not been withdrawn since. -/
def Registered (past : LinkHistory) (id : LinkId) (cell : LinkedCell) : Prop :=
  (id, cell) ∈ past.issued ∧ id ∉ past.withdrawn

instance (past : LinkHistory) (id : LinkId) (cell : LinkedCell) : Decidable (past.Registered id cell) :=
  inferInstanceAs (Decidable (_ ∧ _))

/-- The account agrees with the table, which keeps none. -/
structure Sound (past : LinkHistory) : Prop where
  issued : ∀ id, id ∈ past.issued.map Prod.fst ↔ past.table.Issued id.toSlotKey
  distinct : (past.issued.map Prod.fst).Nodup
  once : past.withdrawn.Nodup
  withdrawn : ∀ id ∈ past.withdrawn, past.table.Issued id.toSlotKey
  registered : ∀ id cell, past.table.cell? id = some cell ↔ past.Registered id cell

theorem sound_start (cells : HostCells) : (start cells).Sound where
  issued id := by simpa [start] using Slots.not_issued_empty
  distinct := .nil
  once := .nil
  withdrawn := by simp [start]
  registered id cell := by simp [start, LinkTable.cell?, Registered]

namespace Sound
variable {past : LinkHistory}

theorem register (sound : past.Sound) (cell : LinkedCell) : (past.perform (.register cell)).Sound := by
  have fresh : ¬ past.table.Issued past.table.nextKey := past.table.not_issued_nextKey
  have either (id : LinkId) : Slots.Issued (past.table.register cell).2 id.toSlotKey ↔
      id = (past.table.register cell).1 ∨ past.table.Issued id.toSlotKey := by
    rw [LinkTable.register, Slots.issued_insert, ← LinkId.toSlotKey_inj]
  constructor
  case issued =>
    intro id
    rw [perform, List.map_cons, List.mem_cons, sound.issued, either]
  case distinct => exact List.nodup_cons.mpr ⟨fun listed => fresh ((sound.issued _).mp listed), sound.distinct⟩
  case once => exact sound.once
  case withdrawn => exact fun id listed => (either id).mpr (.inr (sound.withdrawn id listed))
  case registered =>
    intro id other
    rw [perform, LinkTable.cell?_register, Registered, List.mem_cons, Prod.mk.injEq]
    split
    · next new =>
      subst new
      have unlisted : ((past.table.register cell).1, other) ∉ past.issued := fun listed =>
        fresh ((sound.issued _).mp (List.mem_map_of_mem listed))
      have kept : (past.table.register cell).1 ∉ past.withdrawn := fun listed =>
        fresh (sound.withdrawn _ listed)
      simp [unlisted, kept, eq_comm]
    · next old =>
      rw [sound.registered, Registered]
      simp [old]

theorem unregister (sound : past.Sound) (id : LinkId) : (past.perform (.unregister id)).Sound := by
  rw [perform, LinkTable.unregister?]
  cases held : past.table.cell? id with
  | none => exact sound
  | some cell =>
    have issued := Slots.issued_vacate past.table id.toSlotKey
    obtain ⟨listed, kept⟩ := (sound.registered id cell).mp held
    constructor
    case issued => exact fun other => (sound.issued other).trans (issued other.toSlotKey).symm
    case distinct => exact sound.distinct
    case once => exact List.nodup_cons.mpr ⟨kept, sound.once⟩
    case withdrawn =>
      intro other gone
      refine (issued other.toSlotKey).mpr ?_
      rcases List.mem_cons.mp gone with rfl | gone
      · exact (sound.issued other).mp (List.mem_map_of_mem listed)
      · exact sound.withdrawn other gone
    case registered =>
      intro other cell'
      simp only [Option.isSome_some, ↓reduceIte, LinkTable.cell?_vacate, Registered, List.mem_cons]
      by_cases same : other = id
      · simp [same]
      · rw [if_neg same, sound.registered, Registered]
        simp [same]

theorem perform (sound : past.Sound) (action : LinkAction) : (past.perform action).Sound := by
  cases action with
  | register cell => exact sound.register cell
  | unregister id => exact sound.unregister id
  | _ => exact ⟨sound.issued, sound.distinct, sound.once, sound.withdrawn, sound.registered⟩

theorem after (sound : past.Sound) (actions : List LinkAction) : (past.after actions).Sound := by
  induction actions generalizing past with
  | nil => exact sound
  | cons action actions ih => exact ih (sound.perform action)

end Sound
variable {past : LinkHistory}

/-- What holds of a table and the host's cells at any time. Ids that are not registered, or not for a cell
of the kind in question, neither read nor write anything. -/
structure Contract (past : LinkHistory) : Prop where
  distinct : (past.issued.map Prod.fst).Nodup
  fresh : ∀ cell, (past.table.register cell).1 ∉ past.issued.map Prod.fst
  once : past.withdrawn.Nodup
  unregisters : ∀ id, (past.table.unregister? id).isSome = true ↔ ∃ cell, past.Registered id cell
  size : past.table.size = (past.issued.filter fun link => link.1 ∉ past.withdrawn).length
  readsInteger : ∀ id n, past.table.readInteger past.cells id = some n ↔
    ∃ cell, past.Registered id (.integer cell) ∧ past.cells.integers cell = n
  readsDecimal : ∀ id d, past.table.readDecimal past.cells id = some d ↔
    ∃ cell, past.Registered id (.decimal cell) ∧ past.cells.decimals cell = d
  writesInteger : ∀ id n written, past.table.writeInteger? past.cells id n = some written ↔
    ∃ cell, past.Registered id (.integer cell) ∧
      { past.cells with integers := Function.update past.cells.integers cell n } = written
  writesDecimal : ∀ id d written, past.table.writeDecimal? past.cells id d = some written ↔
    ∃ cell, past.Registered id (.decimal cell) ∧
      { past.cells with decimals := Function.update past.cells.decimals cell d } = written
  seesInteger : ∀ id cell n,
    past.table.readInteger { past.cells with integers := Function.update past.cells.integers cell n } id =
      if past.Registered id (.integer cell) then some n else past.table.readInteger past.cells id
  seesDecimal : ∀ id cell d,
    past.table.readDecimal { past.cells with decimals := Function.update past.cells.decimals cell d } id =
      if past.Registered id (.decimal cell) then some d else past.table.readDecimal past.cells id
  changesInteger : ∀ action cell,
    (past.perform action).cells.integers cell ≠ past.cells.integers cell → ∃ n,
      action = .setInteger cell n ∨
        ∃ id, action = .writeInteger id n ∧ past.Registered id (.integer cell)
  changesDecimal : ∀ action cell,
    (past.perform action).cells.decimals cell ≠ past.cells.decimals cell → ∃ d,
      action = .setDecimal cell d ∨
        ∃ id, action = .writeDecimal id d ∧ past.Registered id (.decimal cell)

/-- As many ids are registered as there are occupants. -/
theorem Sound.size (sound : past.Sound) :
    past.table.size = (past.issued.filter fun link => link.1 ∉ past.withdrawn).length := by
  have keys : ((past.issued.filter fun link => link.1 ∉ past.withdrawn).map
      fun link => link.1.toSlotKey).Perm past.table.keys := by
    refine Slots.perm_keys ?_ fun key => ?_
    · have left : (past.issued.filter fun link => link.1 ∉ past.withdrawn).Sublist past.issued :=
        List.filter_sublist
      have apart := List.pairwise_map.mp (sound.distinct.sublist (left.map Prod.fst))
      exact List.pairwise_map.mpr (apart.imp fun different same =>
        different (LinkId.toSlotKey_inj.mp same))
    · constructor
      · intro listed
        obtain ⟨⟨id, cell⟩, kept, rfl⟩ := List.mem_map.mp listed
        obtain ⟨issued, held⟩ := List.mem_filter.mp kept
        have found := (sound.registered id cell).mpr ⟨issued, of_decide_eq_true held⟩
        exact Option.isSome_of_eq_some found
      · intro held
        obtain ⟨cell, found⟩ := Option.isSome_iff_exists.mp held
        obtain ⟨issued, kept⟩ := (sound.registered ⟨key⟩ cell).mp found
        exact List.mem_map.mpr ⟨(⟨key⟩, cell), List.mem_filter.mpr ⟨issued, decide_eq_true kept⟩, rfl⟩
  rw [← Slots.length_keys, ← keys.length_eq, List.length_map]

theorem cells_unregister (past : LinkHistory) (id : LinkId) :
    (past.perform (.unregister id)).cells = past.cells := by
  rw [perform]
  split <;> rfl

/-- An integer cell changes only when it is written, by the host or through an id. -/
theorem Sound.changesInteger (sound : past.Sound) {action : LinkAction} {cell : CellId}
    (changed : (past.perform action).cells.integers cell ≠ past.cells.integers cell) :
    ∃ n, action = .setInteger cell n ∨
      ∃ id, action = .writeInteger id n ∧ past.Registered id (.integer cell) := by
  cases action with
  | unregister id => exact absurd (by rw [cells_unregister]) changed
  | writeInteger id n =>
    have held : past.table.cell? id = some (.integer cell) := by
      by_contra apart
      exact changed ((past.table.getD_writeInteger? past.cells id n).2 cell apart)
    exact ⟨n, .inr ⟨id, rfl, (sound.registered id _).mp held⟩⟩
  | writeDecimal id d =>
    exact absurd (congrFun (past.table.getD_writeDecimal? past.cells id d).1 cell) changed
  | setInteger target n =>
    have same : cell = target := by
      by_contra other
      exact changed (if_neg other)
    exact ⟨n, .inl (by rw [same])⟩
  | _ => exact absurd rfl changed

theorem Sound.changesDecimal (sound : past.Sound) {action : LinkAction} {cell : CellId}
    (changed : (past.perform action).cells.decimals cell ≠ past.cells.decimals cell) :
    ∃ d, action = .setDecimal cell d ∨
      ∃ id, action = .writeDecimal id d ∧ past.Registered id (.decimal cell) := by
  cases action with
  | unregister id => exact absurd (by rw [cells_unregister]) changed
  | writeDecimal id d =>
    have held : past.table.cell? id = some (.decimal cell) := by
      by_contra apart
      exact changed ((past.table.getD_writeDecimal? past.cells id d).2 cell apart)
    exact ⟨d, .inr ⟨id, rfl, (sound.registered id _).mp held⟩⟩
  | writeInteger id n =>
    exact absurd (congrFun (past.table.getD_writeInteger? past.cells id n).1 cell) changed
  | setDecimal target d =>
    have same : cell = target := by
      by_contra other
      exact changed (if_neg other)
    exact ⟨d, .inl (by rw [same])⟩
  | _ => exact absurd rfl changed

theorem Sound.contract (sound : past.Sound) : past.Contract where
  distinct := sound.distinct
  fresh cell listed := past.table.not_issued_nextKey ((sound.issued _).mp listed)
  once := sound.once
  unregisters id := by
    simp only [LinkTable.unregister?, ← sound.registered]
    cases past.table.cell? id <;> simp
  size := sound.size
  readsInteger id n := by simp only [LinkTable.readInteger_eq_some_iff, sound.registered]
  readsDecimal id d := by simp only [LinkTable.readDecimal_eq_some_iff, sound.registered]
  writesInteger id n written := by
    simp only [LinkTable.writeInteger?_eq_some_iff, sound.registered, HostCells.writeInteger_eq]
  writesDecimal id d written := by
    simp only [LinkTable.writeDecimal?_eq_some_iff, sound.registered, HostCells.writeDecimal_eq]
  seesInteger id cell n := by
    rw [← HostCells.writeInteger_eq]
    simp only [LinkTable.readInteger_writeInteger, sound.registered]
  seesDecimal id cell d := by
    rw [← HostCells.writeDecimal_eq]
    simp only [LinkTable.readDecimal_writeDecimal, sound.registered]
  changesInteger _ _ := sound.changesInteger
  changesDecimal _ _ := sound.changesDecimal

/-- Accounts only grow. -/
theorem suffix_after (past : LinkHistory) (actions : List LinkAction) :
    past.issued <:+ (past.after actions).issued ∧ past.withdrawn <:+ (past.after actions).withdrawn := by
  induction actions generalizing past with
  | nil => exact ⟨List.suffix_rfl, List.suffix_rfl⟩
  | cons action actions ih =>
    have first : past.issued <:+ (past.perform action).issued ∧
        past.withdrawn <:+ (past.perform action).withdrawn := by
      cases action with
      | register cell => exact ⟨List.suffix_cons .., List.suffix_rfl⟩
      | unregister id =>
        rw [perform]
        split
        · exact ⟨List.suffix_rfl, List.suffix_cons ..⟩
        · exact ⟨List.suffix_rfl, List.suffix_rfl⟩
      | _ => exact ⟨List.suffix_rfl, List.suffix_rfl⟩
    obtain ⟨issued, withdrawn⟩ := ih (past.perform action)
    exact ⟨first.1.trans issued, first.2.trans withdrawn⟩

/-- **Links.** In every run ids are issued once, and an id that was issued for a cell stands for it until
the one time it is withdrawn, and for nothing ever after. As many are registered as the table counts. What
is read through an id is what its cell holds by now; what is written through it is written to that cell
and to no other, and so it is seen through the ids that stand for that cell and through no others. A cell
changes only when the host changes it, or when it is written through an id that stands for it. -/
theorem links_run (cells : HostCells) (actions more : List LinkAction) :
    let past := run cells actions
    let later := run cells (actions ++ more)
    past.Contract ∧
      (∀ link ∈ past.issued, link ∈ later.issued) ∧
      (∀ id ∈ past.withdrawn, ∀ cell, ¬ later.Registered id cell) ∧
      ∀ id cell other, (id, cell) ∈ past.issued → later.Registered id other → other = cell := by
  intro past later
  have onwards : later = past.after more := List.foldl_append
  have sound : past.Sound := (sound_start cells).after actions
  have sound' : later.Sound := by
    rw [onwards]
    exact sound.after more
  obtain ⟨issued, withdrawn⟩ := past.suffix_after more
  rw [← onwards] at issued withdrawn
  refine ⟨sound.contract, fun link listed => issued.subset listed, ?_, ?_⟩
  · intro id gone cell registered
    exact registered.2 (withdrawn.subset gone)
  · intro id cell other listed registered
    have unique := List.inj_on_of_nodup_map sound'.distinct registered.1 (issued.subset listed) rfl
    exact congrArg Prod.snd unique

/-- Two ids of one integer cell, of which the first is withdrawn and its slot used again for a decimal cell.
Then the integer cell is written through the second, and not through either id of that slot. -/
def aliased : List LinkAction :=
  [.register (.integer 3), .register (.integer 3), .unregister ⟨⟨0, 0⟩⟩, .register (.decimal 3),
    .writeInteger ⟨⟨1, 0⟩⟩ 8, .writeInteger ⟨⟨0, 0⟩⟩ 9, .writeInteger ⟨⟨0, 1⟩⟩ 9]

theorem links_aliased :
    let past := run .zero aliased
    past.table.readInteger past.cells ⟨⟨1, 0⟩⟩ = some 8 ∧
      past.table.readInteger past.cells ⟨⟨0, 1⟩⟩ = none ∧
      past.table.readDecimal past.cells ⟨⟨0, 1⟩⟩ = some ⟨0⟩ ∧ past.table.size = 2 ∧
      ¬ (run .zero (aliased ++ [.register (.integer 3)])).Registered ⟨⟨0, 0⟩⟩ (.integer 3) := by
  intro past
  obtain ⟨contract, -, gone, -⟩ := links_run .zero aliased [.register (.integer 3)]
  refine ⟨(contract.readsInteger _ _).mpr ⟨3, by decide, by decide⟩, ?_,
    (contract.readsDecimal _ _).mpr ⟨3, by decide, by decide⟩, contract.size.trans (by decide),
    gone _ (by decide) _⟩
  rw [Option.eq_none_iff_forall_ne_some]
  intro n reads
  obtain ⟨cell, registered, -⟩ := (contract.readsInteger _ _).mp reads
  have issued : (run .zero aliased).issued =
      [(⟨⟨0, 1⟩⟩, .decimal 3), (⟨⟨1, 0⟩⟩, .integer 3), (⟨⟨0, 0⟩⟩, .integer 3)] := by decide
  have listed := registered.1
  rw [issued] at listed
  simp at listed

end LinkHistory
end ScriptHeap
