import ScriptHeap.Proofs.LinkedCells
import ScriptHeap.Value

/-! Reading and writing the numbers of values. A value is read and written by its tag, and an id by the sort
of cell it stands for, in two places that know nothing of each other. Both accept the same values: what can
be read can be written, and what cannot is left as it was, along with all the host's cells. -/
namespace ScriptHeap

/-- The two sorts of numbers, which values and the host's cells have alike. -/
inductive NumberKind where
  | integer
  | decimal
deriving DecidableEq

namespace NumberKind

/-- Decimals are bit patterns, so equal ones are alike to the last bit. -/
abbrev Number : NumberKind → Type
  | integer => Int32
  | decimal => Decimal

/-- A value that holds its number itself. -/
def own : (kind : NumberKind) → kind.Number → Value
  | integer => .integer
  | decimal => .decimal

/-- A value that stands for a cell of the host. -/
def linked : NumberKind → LinkId → Value
  | integer => .linkedInteger
  | decimal => .linkedDecimal

def cell : NumberKind → CellId → LinkedCell
  | integer => .integer
  | decimal => .decimal

/-- What is in a cell. -/
def content : (kind : NumberKind) → HostCells → CellId → kind.Number
  | integer => HostCells.integers
  | decimal => HostCells.decimals

def write : (kind : NumberKind) → HostCells → CellId → kind.Number → HostCells
  | integer => HostCells.writeInteger
  | decimal => HostCells.writeDecimal

def write? : (kind : NumberKind) → LinkTable → HostCells → LinkId → kind.Number → Option HostCells
  | integer => LinkTable.writeInteger?
  | decimal => LinkTable.writeDecimal?

def reading? : (kind : NumberKind) → LinkTable → HostCells → Value → Option kind.Number
  | integer => Value.tryInteger
  | decimal => Value.tryDecimal

/-- The reading of a caller who knows that there is one. -/
def reading : (kind : NumberKind) → LinkTable → HostCells → Value → Except Defect kind.Number
  | integer => Value.asInteger
  | decimal => Value.asDecimal

def set : (kind : NumberKind) → LinkTable → HostCells → Value → kind.Number →
    Except Defect (Value × HostCells)
  | integer => Value.setInteger
  | decimal => Value.setDecimal

/-! ## Writing as it goes -/

/-- How a write ends, and what there is then of the value and the host's cells, even after a panic. -/
structure Written where
  outcome : Except Defect Unit
  value : Value
  cells : HostCells

/-- A write through an id asks only afterwards whether it reached a cell. -/
def Written.through (value : Value) (cells : HostCells) (stale : Defect) (written : Option HostCells) :
    Written :=
  ⟨if written.isSome then .ok () else .error stale, value, written.getD cells⟩

/-- Writes in place: the value itself, or the host's cell that it stands for. -/
def put (kind : NumberKind) (links : LinkTable) (cells : HostCells) (value : Value) (n : kind.Number) :
    Written :=
  match kind, value, n with
  | integer, .integer _, n => ⟨.ok (), .integer n, cells⟩
  | integer, .linkedInteger id, n =>
    .through (.linkedInteger id) cells .staleIntegerLink (links.writeInteger? cells id n)
  | integer, other, _ => ⟨.error (.notNumeric .setInteger other.typeName), other, cells⟩
  | decimal, .decimal _, d => ⟨.ok (), .decimal d, cells⟩
  | decimal, .linkedDecimal id, d =>
    .through (.linkedDecimal id) cells .staleDecimalLink (links.writeDecimal? cells id d)
  | decimal, other, _ => ⟨.error (.notNumeric .setDecimal other.typeName), other, cells⟩

/-- What a value is set to is what a write in place leaves, if that ends well. -/
theorem set_eq_put (kind : NumberKind) (links : LinkTable) (cells : HostCells) (value : Value)
    (n : kind.Number) :
    kind.set links cells value n =
      (kind.put links cells value n).outcome.map fun _ =>
        ((kind.put links cells value n).value, (kind.put links cells value n).cells) := by
  cases kind with
  | integer =>
    cases value with
    | linkedInteger id =>
      rw [set, Value.setInteger, put]
      cases links.writeInteger? cells id n <;> rfl
    | _ => rfl
  | decimal =>
    cases value with
    | linkedDecimal id =>
      rw [set, Value.setDecimal, put]
      cases links.writeDecimal? cells id n <;> rfl
    | _ => rfl

/-! ## Cells and readings -/

theorem content_write_self (kind : NumberKind) (cells : HostCells) (cell : CellId) (n : kind.Number) :
    kind.content (kind.write cells cell n) cell = n := by
  cases kind <;> exact if_pos rfl

theorem content_write_of_ne {kind sort : NumberKind} {cell other : CellId}
    (apart : sort.cell other ≠ kind.cell cell) (cells : HostCells) (n : kind.Number) :
    sort.content (kind.write cells cell n) other = sort.content cells other := by
  have different (same : sort = kind) : other ≠ cell := by
    rintro rfl
    exact apart (by rw [same])
  cases kind <;> cases sort
  case integer.integer => exact if_neg (different rfl)
  case decimal.decimal => exact if_neg (different rfl)
  case integer.decimal => rfl
  case decimal.integer => rfl

variable {kind : NumberKind} {links : LinkTable} {cells cells' : HostCells} {value : Value} {n : kind.Number}

/-- A number is in the value itself, or in the cell that the value is linked to. -/
theorem reading?_eq_some_iff :
    kind.reading? links cells value = some n ↔
      value = kind.own n ∨ ∃ id cell, value = kind.linked id ∧
        links.cell? id = some (kind.cell cell) ∧ kind.content cells cell = n := by
  cases kind with
  | integer =>
    cases value with
    | linkedInteger id =>
      simp [reading?, Value.tryInteger, LinkTable.readInteger_eq_some_iff, own, linked, cell, content]
    | _ => simp [reading?, Value.tryInteger, own, linked]
  | decimal =>
    cases value with
    | linkedDecimal id =>
      simp [reading?, Value.tryDecimal, LinkTable.readDecimal_eq_some_iff, own, linked, cell, content]
    | _ => simp [reading?, Value.tryDecimal, own, linked]

/-- The value is linked to the cell: its tag and the cell that its id stands for are of one kind. -/
def LinkedTo (links : LinkTable) (value : Value) (target : LinkedCell) : Prop :=
  ∃ (kind : NumberKind) (id : LinkId) (cell : CellId),
    value = kind.linked id ∧ target = kind.cell cell ∧ links.cell? id = some target

/-- A reading depends on the cell that the value is linked to, and on no other. -/
theorem reading?_congr
    (agree : ∀ cell, LinkedTo links value (kind.cell cell) →
      kind.content cells' cell = kind.content cells cell) :
    kind.reading? links cells' value = kind.reading? links cells value := by
  refine Option.ext fun n => ?_
  rw [reading?_eq_some_iff, reading?_eq_some_iff]
  refine or_congr_right (exists_congr fun id => exists_congr fun cell => ?_)
  refine and_congr_right fun link => and_congr_right fun held => ?_
  rw [agree cell ⟨kind, id, cell, link, rfl, held⟩]

/-! ## Writing -/

theorem write?_eq_some_iff {id : LinkId} {written : HostCells} :
    kind.write? links cells id n = some written ↔
      ∃ cell, links.cell? id = some (kind.cell cell) ∧ kind.write cells cell n = written := by
  cases kind with
  | integer => exact LinkTable.writeInteger?_eq_some_iff
  | decimal => exact LinkTable.writeDecimal?_eq_some_iff

theorem put_own (links : LinkTable) (cells : HostCells) (m n : kind.Number) :
    kind.put links cells (kind.own m) n = ⟨.ok (), kind.own n, cells⟩ := by
  cases kind <;> rfl

theorem put_linked (links : LinkTable) (cells : HostCells) (id : LinkId) (n : kind.Number) :
    ∃ stale, kind.put links cells (kind.linked id) n =
      .through (kind.linked id) cells stale (kind.write? links cells id n) := by
  cases kind <;> exact ⟨_, rfl⟩

/-- A value of another tag is refused. -/
theorem put_other (owns : ∀ m, value ≠ kind.own m) (links : ∀ id, value ≠ kind.linked id)
    (table : LinkTable) (cells : HostCells) (n : kind.Number) :
    ∃ defect, kind.put table cells value n = ⟨.error defect, value, cells⟩ := by
  cases kind with
  | integer =>
    cases value with
    | integer m => exact absurd rfl (owns m)
    | linkedInteger id => exact absurd rfl (links id)
    | _ => exact ⟨_, rfl⟩
  | decimal =>
    cases value with
    | decimal m => exact absurd rfl (owns m)
    | linkedDecimal id => exact absurd rfl (links id)
    | _ => exact ⟨_, rfl⟩

/-- What cannot be read cannot be written, and is left as it was along with the cells. -/
theorem put_of_unreadable (unread : kind.reading? links cells value = none) (n : kind.Number) :
    ∃ defect, kind.put links cells value n = ⟨.error defect, value, cells⟩ := by
  by_cases link : ∃ id, value = kind.linked id
  · obtain ⟨id, rfl⟩ := link
    obtain ⟨stale, put⟩ := put_linked links cells id n
    have unwritten : kind.write? links cells id n = none := by
      refine Option.eq_none_iff_forall_ne_some.mpr fun written wrote => ?_
      obtain ⟨cell, held, -⟩ := write?_eq_some_iff.mp wrote
      rw [reading?_eq_some_iff.mpr (.inr ⟨id, cell, rfl, held, rfl⟩)] at unread
      cases unread
    rw [unwritten] at put
    exact ⟨stale, put⟩
  · refine put_other (fun m own => ?_) (fun id linked => link ⟨id, linked⟩) links cells n
    rw [reading?_eq_some_iff.mpr (.inl own)] at unread
    cases unread

/-- What can be read is written where it was read: in the value, or in the cell that it is linked to. -/
theorem put_of_readable {m : kind.Number} (reads : kind.reading? links cells value = some m)
    (n : kind.Number) :
    value = kind.own m ∧ kind.put links cells value n = ⟨.ok (), kind.own n, cells⟩ ∨
      ∃ id cell, value = kind.linked id ∧ links.cell? id = some (kind.cell cell) ∧
        kind.put links cells value n = ⟨.ok (), value, kind.write cells cell n⟩ := by
  rcases reading?_eq_some_iff.mp reads with rfl | ⟨id, cell, rfl, held, -⟩
  · exact .inl ⟨rfl, put_own links cells m n⟩
  · obtain ⟨stale, put⟩ := put_linked links cells id n
    rw [write?_eq_some_iff.mpr ⟨cell, held, rfl⟩] at put
    exact .inr ⟨id, cell, rfl, held, put⟩

/-- A write panics for the values that have no reading, and for no others. -/
theorem set_panics_iff :
    (∃ defect, kind.set links cells value n = .error defect) ↔
      kind.reading? links cells value = none := by
  rw [set_eq_put]
  cases reads : kind.reading? links cells value with
  | none =>
    obtain ⟨defect, put⟩ := put_of_unreadable reads n
    simp [put, Except.map]
  | some m =>
    rcases put_of_readable reads n with ⟨-, put⟩ | ⟨id, cell, -, -, put⟩ <;> simp [put, Except.map]

/-- A write reaches no cell but the one that the value is linked to. -/
theorem content_put {sort : NumberKind} {other : CellId}
    (apart : ¬ LinkedTo links value (sort.cell other)) (cells : HostCells) (n : kind.Number) :
    sort.content (kind.put links cells value n).cells other = sort.content cells other := by
  cases reads : kind.reading? links cells value with
  | none =>
    obtain ⟨defect, put⟩ := put_of_unreadable reads n
    rw [put]
  | some m =>
    rcases put_of_readable reads n with ⟨-, put⟩ | ⟨id, cell, linked, held, put⟩
    · rw [put]
    · rw [put]
      refine content_write_of_ne (fun same => apart ?_) cells n
      exact ⟨kind, id, cell, linked, same, same ▸ held⟩

/-- A cell is read through every value that is linked to it. -/
theorem reading?_of_linkedTo {cell : CellId} (link : LinkedTo links value (kind.cell cell))
    (cells : HostCells) : kind.reading? links cells value = some (kind.content cells cell) := by
  obtain ⟨sort, id, other, linked, target, held⟩ := link
  have same : sort = kind := by
    cases sort <;> cases kind <;> cases target <;> rfl
  subst same
  exact reading?_eq_some_iff.mpr (.inr ⟨id, cell, linked, held, rfl⟩)

/-- After a write that does not panic the number written is read back, from the value and from all that is
linked to the same cell. -/
theorem readable_put {m : kind.Number} (reads : kind.reading? links cells value = some m)
    (n : kind.Number) :
    (kind.put links cells value n).value.type = value.type ∧
    kind.reading? links (kind.put links cells value n).cells (kind.put links cells value n).value =
      some n ∧
    ((∃ m, value = kind.own m ∧ (kind.put links cells value n).value = kind.own n ∧
        (kind.put links cells value n).cells = cells) ∨
      ∃ id cell, value = kind.linked id ∧ links.cell? id = some (kind.cell cell) ∧
        (kind.put links cells value n).value = value ∧
        kind.content (kind.put links cells value n).cells cell = n ∧
        ∀ other, LinkedTo links other (kind.cell cell) →
          kind.reading? links (kind.put links cells value n).cells other = some n) := by
  rcases put_of_readable reads n with ⟨own, put⟩ | ⟨id, cell, linked, held, put⟩
  · rw [put]
    refine ⟨?_, reading?_eq_some_iff.mpr (.inl rfl), .inl ⟨m, own, rfl, rfl⟩⟩
    rw [own]
    cases kind <;> rfl
  · have written := kind.content_write_self cells cell n
    have seen (other : Value) (link : LinkedTo links other (kind.cell cell)) :
        kind.reading? links (kind.write cells cell n) other = some n := by
      rw [reading?_of_linkedTo link, written]
    rw [put]
    exact ⟨rfl, seen value ⟨kind, id, cell, linked, rfl, held⟩,
      .inr ⟨id, cell, linked, held, rfl, written, seen⟩⟩

theorem reading_eq (kind : NumberKind) (links : LinkTable) (cells : HostCells) (value : Value) :
    (∀ m, kind.reading links cells value = .ok m ↔ kind.reading? links cells value = some m) ∧
    ((∃ defect, kind.reading links cells value = .error defect) ↔
      kind.reading? links cells value = none) := by
  cases kind with
  | integer =>
    rw [reading, Value.asInteger, reading?]
    cases value.tryInteger links cells <;> simp
  | decimal =>
    rw [reading, Value.asDecimal, reading?]
    cases value.tryDecimal links cells <;> simp

/-- **What can be read can be written.** For either kind of number, a write panics just when there is no
reading, and then it leaves the value and all cells of the host as they were. Any other write leaves the
tag, and the value reads as what was written. A value that held its number itself changes no cell. One that
is linked to a cell stays what it is, id and all, and every value that is linked to that cell then reads as
what was written. No other cell changes, and no other value reads differently, as a number of either kind. A
caller who is sure of a reading gets that reading, and panics just when there is none. -/
theorem access_agrees (kind : NumberKind) (links : LinkTable) (cells : HostCells) (value : Value)
    (n : kind.Number) :
    let after := kind.put links cells value n
    kind.set links cells value n = after.outcome.map (fun _ => (after.value, after.cells)) ∧
    ((∃ defect, kind.set links cells value n = .error defect) ↔
      kind.reading? links cells value = none) ∧
    (kind.reading? links cells value = none → after.value = value ∧ after.cells = cells) ∧
    (kind.reading? links cells value ≠ none →
      after.value.type = value.type ∧
      kind.reading? links after.cells after.value = some n ∧
      ((∃ m, value = kind.own m ∧ after.value = kind.own n ∧ after.cells = cells) ∨
        ∃ id cell, value = kind.linked id ∧ links.cell? id = some (kind.cell cell) ∧
          after.value = value ∧ kind.content after.cells cell = n ∧
          ∀ other, LinkedTo links other (kind.cell cell) →
            kind.reading? links after.cells other = some n)) ∧
    (∀ (sort : NumberKind) (other : CellId), ¬ LinkedTo links value (sort.cell other) →
      sort.content after.cells other = sort.content cells other) ∧
    (∀ (sort : NumberKind) (other : Value),
      (∀ target, LinkedTo links value target → ¬ LinkedTo links other target) →
      sort.reading? links after.cells other = sort.reading? links cells other) ∧
    (∀ m, kind.reading links cells value = .ok m ↔ kind.reading? links cells value = some m) ∧
    ((∃ defect, kind.reading links cells value = .error defect) ↔
      kind.reading? links cells value = none) := by
  intro after
  have refused (unread : kind.reading? links cells value = none) :
      after.value = value ∧ after.cells = cells := by
    obtain ⟨defect, put⟩ := put_of_unreadable unread n
    exact ⟨congrArg Written.value put, congrArg Written.cells put⟩
  have elsewhere (sort : NumberKind) (other : CellId) (apart : ¬ LinkedTo links value (sort.cell other)) :
      sort.content after.cells other = sort.content cells other := content_put apart cells n
  have others (sort : NumberKind) (other : Value)
      (apart : ∀ target, LinkedTo links value target → ¬ LinkedTo links other target) :
      sort.reading? links after.cells other = sort.reading? links cells other :=
    reading?_congr fun cell link => elsewhere sort cell fun linked => apart _ linked link
  refine ⟨set_eq_put kind links cells value n, set_panics_iff, refused, fun readable => ?_, elsewhere,
    others, reading_eq kind links cells value⟩
  obtain ⟨m, reads⟩ := Option.ne_none_iff_exists'.mp readable
  exact readable_put reads n

/-- Two ids of one integer cell, and one of a decimal cell of the same number. -/
def sharedCell : LinkTable :=
  let two := ((LinkTable.register .empty (.integer 3)).2.register (.integer 3)).2
  (two.register (.decimal 3)).2

/-- What is written through the first id is read through the second, and not through the third, which is
no integer's. -/
theorem access_sharedCell :
    let after := integer.put sharedCell .zero (.linkedInteger ⟨⟨0, 0⟩⟩) 8
    integer.reading? sharedCell after.cells (.linkedInteger ⟨⟨1, 0⟩⟩) = some 8 ∧
      decimal.reading? sharedCell after.cells (.linkedDecimal ⟨⟨2, 0⟩⟩) = some ⟨0⟩ ∧
      ∃ defect, integer.set sharedCell .zero (.linkedInteger ⟨⟨2, 0⟩⟩) 8 = .error defect := by
  intro after
  obtain ⟨-, -, -, writes, -, others, -⟩ :=
    access_agrees integer sharedCell .zero (.linkedInteger ⟨⟨0, 0⟩⟩) 8
  obtain ⟨-, panics, -⟩ := access_agrees integer sharedCell .zero (.linkedInteger ⟨⟨2, 0⟩⟩) 8
  refine ⟨?_, ?_, panics.mpr (by decide)⟩
  · obtain ⟨-, -, ⟨m, own, -⟩ | ⟨id, cell, linked, held, -, -, seen⟩⟩ := writes (by decide)
    · cases own
    · cases linked
      cases held
      exact seen (.linkedInteger ⟨⟨1, 0⟩⟩) ⟨integer, ⟨⟨1, 0⟩⟩, 3, rfl, rfl, by decide⟩
  · refine (others decimal (.linkedDecimal ⟨⟨2, 0⟩⟩) ?_).trans (by decide)
    rintro target ⟨kind, id, cell, linked, rfl, -⟩ ⟨sort, other, seen, link, same, -⟩
    cases kind <;> cases sort
    case integer.integer => cases link
    case integer.decimal => cases same
    case decimal.integer | decimal.decimal => cases linked

end NumberKind
end ScriptHeap
