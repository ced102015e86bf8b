import Mathlib.Algebra.GroupWithZero.Nat
import Mathlib.Data.List.MinMax
import Mathlib.Order.Nat
import ScriptHeap.Display
import ScriptHeap.Heap.Allocate

/-! How deep printing goes. Printing is described as it proceeds, with the depth counted from the value that
is displayed, and with a limit or without. References may run in circles, and then only the limit ends it.
Values that nest no deeper than the limit are printed as if there were none, and what is cut off is just
what stands below that many arrays, maps and bound methods. -/
namespace ScriptHeap

/-- Arrays, maps and bound methods, which are printed with what they contain. -/
inductive Enclosure where
  | array (values : List Value)
  | map (entries : List (String × Value))
  | method (callee : Handle)
deriving DecidableEq

/-- What printing a value comes to: its text, how many levels it went down, and how often it was cut off. -/
structure Printout where
  text : String
  levels : Nat
  cuts : Nat
deriving DecidableEq

namespace Enclosure

/-- What is printed within. -/
def inner : Enclosure → List Value
  | array values => values
  | map entries => entries.map Prod.snd
  | method callee => [.object callee]

/-- Strings within arrays and maps are quoted; a bound method is printed as its method would be. -/
def nests : Enclosure → Bool → Bool
  | method _, nested => nested
  | _, _ => true

def text (render : Value → String) : Enclosure → String
  | array values => "[" ++ ", ".intercalate (values.map render) ++ "]"
  | map entries =>
    let entryText (entry : String × Value) := Text.quote entry.1 ++ ": " ++ render entry.2
    "\x7b" ++ ", ".intercalate (entries.map entryText) ++ "\x7d"
  | method callee => render (.object callee)

/-- What stands for it where it is cut off. -/
def placeholder : Enclosure → String
  | array _ => "[...]"
  | map _ => "\x7b...\x7d"
  | method _ => "<fn ...>"

def printout (print : Value → Printout) (enclosure : Enclosure) : Printout where
  text := enclosure.text fun item => (print item).text
  levels := (enclosure.inner.map fun item => (print item).levels).foldr max 0 + 1
  cuts := (enclosure.inner.map fun item => (print item).cuts).sum

theorem text_congr {enclosure : Enclosure} {render render' : Value → String}
    (agree : ∀ item ∈ enclosure.inner, render item = render' item) :
    enclosure.text render = enclosure.text render' := by
  cases enclosure with
  | array values =>
    have same : values.map render = values.map render' := List.map_congr_left agree
    rw [text, text, same]
  | map entries =>
    have same : ∀ entry ∈ entries, render entry.2 = render' entry.2 := fun entry listed =>
      agree entry.2 (List.mem_map_of_mem (f := Prod.snd) listed)
    simp only [text]
    rw [List.map_congr_left fun entry listed => by rw [same entry listed]]
  | method callee => exact agree (.object callee) (List.mem_singleton_self _)

theorem printout_congr {enclosure : Enclosure} {print print' : Value → Printout}
    (agree : ∀ item ∈ enclosure.inner, print item = print' item) :
    enclosure.printout print = enclosure.printout print' := by
  rw [printout, printout, text_congr fun item listed => by rw [agree item listed],
    List.map_congr_left fun item listed => by rw [agree item listed],
    List.map_congr_left (f := fun item => (print item).cuts) fun item listed => by rw [agree item listed]]

end Enclosure

def Payload.enclosure? : Payload → Option Enclosure
  | .array values => some (.array values.toList)
  | .map table => some (.map table.entries)
  | .boundMethod bound => some (.method bound.method)
  | _ => none

namespace Heap

/-- The array, map or bound method that a value is. -/
def enclosure? (heap : Heap) : Value → Option Enclosure
  | .object handle => (heap.get? handle).bind (·.payload.enclosure?)
  | _ => none

/-- Printing a value at a depth, in an array or map or not, comes to this. What contains nothing is printed by
itself, and anything else with what it contains one level further down, unless there is a limit and that is
reached. -/
inductive Prints (heap : Heap) (cells : HostCells) (limit : Option Nat) :
    Nat → Bool → Value → Printout → Prop
  | plain {depth nested value} (flat : heap.enclosure? value = none) :
    Prints heap cells limit depth nested value ⟨heap.valueText cells none nested value, 0, 0⟩
  | cut {depth nested value enclosure most} (found : heap.enclosure? value = some enclosure)
    (limited : limit = some most) (reached : most ≤ depth) :
    Prints heap cells limit depth nested value ⟨enclosure.placeholder, 0, 1⟩
  | shown {depth nested value enclosure print} (found : heap.enclosure? value = some enclosure)
    (room : ∀ most, limit = some most → depth < most)
    (inner : ∀ item ∈ enclosure.inner,
      Prints heap cells limit (depth + 1) (enclosure.nests nested) item (print item)) :
    Prints heap cells limit depth nested value (enclosure.printout print)

/-- A value nests this deep: one level more than what is deepest within an array, a map or a bound method,
and none for anything else. What contains itself has no such depth. -/
inductive Nesting (heap : Heap) : Value → Nat → Prop
  | plain {value} (flat : heap.enclosure? value = none) : Nesting heap value 0
  | enclosing {value enclosure levels} (found : heap.enclosure? value = some enclosure)
    (inner : ∀ item ∈ enclosure.inner, Nesting heap item (levels item)) :
    Nesting heap value ((enclosure.inner.map levels).foldr max 0 + 1)

/-- The item stands below so many arrays, maps and bound methods, as the value is printed. -/
inductive Encloses (heap : Heap) (value : Value) : Nat → Bool → Value → Prop
  | here : Encloses heap value 0 false value
  | within {depth nested outer enclosure item} (above : Encloses heap value depth nested outer)
    (found : heap.enclosure? outer = some enclosure) (listed : item ∈ enclosure.inner) :
    Encloses heap value (depth + 1) (enclosure.nests nested) item

variable {heap : Heap} {cells : HostCells} {limit : Option Nat} {depth levels : Nat} {nested : Bool}
  {value : Value} {enclosure : Enclosure}

/-! ## Text by text -/

theorem valueText_of_plain (flat : heap.enclosure? value = none)
    (inner : Option (Bool → Value → String)) :
    heap.valueText cells inner nested value = heap.valueText cells none nested value := by
  cases value with
  | object handle =>
    rw [enclosure?] at flat
    rw [valueText, valueText]
    cases found : heap.get? handle with
    | none => rfl
    | some object =>
      rw [found, Option.bind_some] at flat
      simp only [objectText]
      cases payload : object.payload
      case array | map | boundMethod =>
        rw [payload] at flat
        cases flat
      all_goals rfl
  | _ => rfl

theorem valueText_of_enclosure (found : heap.enclosure? value = some enclosure) (cells : HostCells)
    (nested : Bool) :
    heap.valueText cells none nested value = enclosure.placeholder ∧
      ∀ render, heap.valueText cells (some render) nested value =
        enclosure.text (render (enclosure.nests nested)) := by
  cases value with
  | object handle =>
    obtain ⟨object, held, encloses⟩ := Option.bind_eq_some_iff.mp found
    simp only [valueText, held, objectText]
    cases payload : object.payload <;> rw [payload] at encloses <;> cases encloses
    all_goals exact ⟨rfl, fun _ => rfl⟩
  | _ => cases found

/-! ## Counting down -/

/-- What printing comes to with so many levels still to go. -/
def printoutWithin (heap : Heap) (cells : HostCells) (budget : Nat) (nested : Bool) (value : Value) :
    Printout :=
  match heap.enclosure? value with
  | none => ⟨heap.valueText cells none nested value, 0, 0⟩
  | some enclosure =>
    match budget with
    | 0 => ⟨enclosure.placeholder, 0, 1⟩
    | budget + 1 =>
      enclosure.printout fun item => printoutWithin heap cells budget (enclosure.nests nested) item

theorem printoutWithin_plain (flat : heap.enclosure? value = none) (cells : HostCells) (budget : Nat)
    (nested : Bool) :
    heap.printoutWithin cells budget nested value = ⟨heap.valueText cells none nested value, 0, 0⟩ := by
  unfold printoutWithin
  rw [flat]

theorem printoutWithin_cut (found : heap.enclosure? value = some enclosure) (cells : HostCells)
    (nested : Bool) : heap.printoutWithin cells 0 nested value = ⟨enclosure.placeholder, 0, 1⟩ := by
  unfold printoutWithin
  rw [found]

theorem printoutWithin_shown (found : heap.enclosure? value = some enclosure) (cells : HostCells)
    (budget : Nat) (nested : Bool) :
    heap.printoutWithin cells (budget + 1) nested value =
      enclosure.printout (heap.printoutWithin cells budget (enclosure.nests nested)) := by
  rw [printoutWithin, found]

theorem text_printoutWithin (heap : Heap) (cells : HostCells) (budget : Nat) (nested : Bool)
    (value : Value) :
    (heap.printoutWithin cells budget nested value).text =
      heap.displayWithin cells budget nested value := by
  induction budget, nested, value using printoutWithin.induct heap with
  | case1 budget nested value flat =>
    rw [printoutWithin_plain flat]
    cases budget <;> exact (valueText_of_plain flat _).symm
  | case2 nested value enclosure found =>
    rw [printoutWithin_cut found, displayWithin, (valueText_of_enclosure found cells nested).1]
  | case3 nested value enclosure found budget ih =>
    rw [printoutWithin_shown found, displayWithin, (valueText_of_enclosure found cells nested).2]
    exact Enclosure.text_congr fun item _ => ih item

theorem levels_printoutWithin_le (heap : Heap) (cells : HostCells) (budget : Nat) (nested : Bool)
    (value : Value) : (heap.printoutWithin cells budget nested value).levels ≤ budget := by
  induction budget, nested, value using printoutWithin.induct heap with
  | case1 budget nested value flat =>
    rw [printoutWithin_plain flat]
    exact Nat.zero_le budget
  | case2 nested value enclosure found => rw [printoutWithin_cut found]
  | case3 nested value enclosure found budget ih =>
    rw [printoutWithin_shown found]
    refine Nat.succ_le_succ (List.max_le_of_forall_le _ _ fun levels listed => ?_)
    obtain ⟨item, -, rfl⟩ := List.mem_map.mp listed
    exact ih item

/-- The limit leaves as many levels to go as it is above the depth. -/
theorem prints_printoutWithin (heap : Heap) (cells : HostCells) (depth budget : Nat) (nested : Bool)
    (value : Value) :
    heap.Prints cells (some (depth + budget)) depth nested value
      (heap.printoutWithin cells budget nested value) := by
  induction budget, nested, value using printoutWithin.induct heap generalizing depth with
  | case1 budget nested value flat =>
    rw [printoutWithin_plain flat]
    exact .plain flat
  | case2 nested value enclosure found =>
    rw [printoutWithin_cut found]
    exact .cut found rfl le_rfl
  | case3 nested value enclosure found budget ih =>
    rw [printoutWithin_shown found]
    refine .shown found ?_ fun item _ => ?_
    · rintro most ⟨⟩
      omega
    · have further := ih item (depth + 1)
      rwa [Nat.add_right_comm, Nat.add_assoc] at further

/-- Printing comes to one thing at most. -/
theorem Prints.unique {out other : Printout} (prints : heap.Prints cells limit depth nested value out)
    (again : heap.Prints cells limit depth nested value other) : out = other := by
  induction prints generalizing other with
  | plain flat =>
    cases again with
    | plain => rfl
    | cut found => rw [flat] at found; cases found
    | shown found => rw [flat] at found; cases found
  | cut found limited reached =>
    cases again with
    | plain flat => rw [flat] at found; cases found
    | cut same =>
      rw [found] at same
      cases same
      rfl
    | shown _ room => exact absurd (room _ limited) (Nat.not_lt.mpr reached)
  | shown found room inner ih =>
    cases again with
    | plain flat => rw [flat] at found; cases found
    | cut _ limited reached => exact absurd (room _ limited) (Nat.not_lt.mpr reached)
    | shown same _ inner' =>
      rw [found] at same
      cases same
      exact Enclosure.printout_congr fun item listed => ih item listed (inner' item listed)

/-! ## No deeper than the limit -/

/-- With levels enough to go, printing is not cut off, and there need not be any limit. -/
theorem Nesting.prints (deep : heap.Nesting value levels) {budget : Nat} (fits : levels ≤ budget)
    (cells : HostCells) (depth : Nat) (nested : Bool) :
    heap.Prints cells none depth nested value (heap.printoutWithin cells budget nested value) ∧
      (heap.printoutWithin cells budget nested value).levels = levels ∧
      (heap.printoutWithin cells budget nested value).cuts = 0 := by
  induction deep generalizing budget depth nested with
  | plain flat =>
    rw [printoutWithin_plain flat]
    exact ⟨.plain flat, rfl, rfl⟩
  | @enclosing value enclosure levels found inner ih =>
    cases budget with
    | zero => cases fits
    | succ budget =>
      have fits' (item : Value) (listed : item ∈ enclosure.inner) : levels item ≤ budget :=
        (List.le_max_of_le (List.mem_map_of_mem listed) le_rfl).trans (Nat.le_of_succ_le_succ fits)
      have each (item : Value) (listed : item ∈ enclosure.inner) :=
        ih item listed (fits' item listed) (depth + 1) (enclosure.nests nested)
      rw [printoutWithin_shown found]
      refine ⟨.shown found (fun _ limited => nomatch limited) fun item listed => (each item listed).1,
        ?_, ?_⟩
      · rw [Enclosure.printout, List.map_congr_left fun item listed => (each item listed).2.1]
      · refine List.sum_eq_zero_iff_forall_eq_nat.mpr fun cuts listed => ?_
        obtain ⟨item, inside, rfl⟩ := List.mem_map.mp listed
        exact (each item inside).2.2

/-- What is printed without being cut off nests just as deep as printing goes. -/
theorem nesting_of_uncut {budget : Nat}
    (uncut : (heap.printoutWithin cells budget nested value).cuts = 0) :
    heap.Nesting value (heap.printoutWithin cells budget nested value).levels := by
  induction budget, nested, value using printoutWithin.induct heap with
  | case1 budget nested value flat =>
    rw [printoutWithin_plain flat]
    exact .plain flat
  | case2 nested value enclosure found =>
    rw [printoutWithin_cut found] at uncut
    cases uncut
  | case3 nested value enclosure found budget ih =>
    rw [printoutWithin_shown found] at uncut ⊢
    refine .enclosing found fun item listed => ih item ?_
    exact List.sum_eq_zero_iff_forall_eq_nat.mp uncut _ (List.mem_map_of_mem listed)

/-! ## Where the text stands -/

theorem isInfix_intercalate {part : String} {parts : List String} (listed : part ∈ parts)
    (separator : String) : part.toList <:+: (separator.intercalate parts).toList := by
  induction parts with
  | nil => cases listed
  | cons first rest ih =>
    by_cases last : rest = []
    · subst last
      have alone : part.toList = (separator.intercalate [first]).toList := by
        rw [List.mem_singleton.mp listed, String.intercalate_singleton]
      exact alone ▸ List.infix_rfl
    · rw [String.intercalate_cons_of_ne_nil last, String.toList_append, String.toList_append]
      rcases List.mem_cons.mp listed with rfl | later
      · rw [List.append_assoc]
        exact (List.prefix_append ..).isInfix
      · exact (ih later).trans (List.suffix_append ..).isInfix

theorem isInfix_text {item : Value} (listed : item ∈ enclosure.inner) (render : Value → String) :
    (render item).toList <:+: (enclosure.text render).toList := by
  cases enclosure with
  | array values =>
    rw [Enclosure.text, String.toList_append, String.toList_append]
    exact (isInfix_intercalate (List.mem_map_of_mem listed) ", ").trans (List.infix_append ..)
  | map entries =>
    obtain ⟨entry, inside, rfl⟩ := List.mem_map.mp listed
    simp only [Enclosure.text]
    rw [String.toList_append, String.toList_append]
    refine List.IsInfix.trans ?_ ((isInfix_intercalate (List.mem_map_of_mem inside) ", ").trans
      (List.infix_append ..))
    rw [String.toList_append]
    exact (List.suffix_append ..).isInfix
  | method callee =>
    cases List.mem_singleton.mp listed
    exact List.infix_rfl

/-- What stands within a value stands within its text, as it prints there. -/
theorem Encloses.isInfix {item : Value} (encloses : heap.Encloses value depth nested item)
    (cells : HostCells) (budget : Nat) :
    (heap.displayWithin cells budget nested item).toList <:+:
      (heap.displayWithin cells (depth + budget) false value).toList := by
  induction encloses generalizing budget with
  | here => exact (Nat.zero_add budget).symm ▸ List.infix_rfl
  | @within depth nested outer enclosure item above found listed ih =>
    have outer := ih (budget + 1)
    rw [displayWithin, (valueText_of_enclosure found cells nested).2] at outer
    rw [Nat.add_right_comm, Nat.add_assoc]
    exact (isInfix_text listed _).trans outer

/-- **Printing ends, and is cut off exactly at the limit.** However references run in circles, displaying a
value comes to one text, and goes down no more levels than the limit. For a value that nests no deeper it
goes down just as far as that nests, nothing is cut off, and printing without a limit comes to the same. And
only for such values is nothing cut off. What stands below as many arrays, maps and bound methods as the limit
says has a placeholder in its place, if it is one of those itself, even an empty one. -/
theorem display_limited (heap : Heap) (cells : HostCells) (value : Value) :
    ∃ out : Printout, out.text = heap.display cells value ∧
      (∀ other, heap.Prints cells (some displayDepth) 0 false value other ↔ other = out) ∧
      out.levels ≤ displayDepth ∧
      (∀ levels, heap.Nesting value levels → levels ≤ displayDepth →
        out.levels = levels ∧ out.cuts = 0 ∧
          ∀ other, heap.Prints cells none 0 false value other ↔ other = out) ∧
      (out.cuts = 0 → heap.Nesting value out.levels) ∧
      ∀ nested item enclosure, heap.Encloses value displayDepth nested item →
        heap.enclosure? item = some enclosure →
        (∀ other, heap.Prints cells (some displayDepth) displayDepth nested item other ↔
          other = ⟨enclosure.placeholder, 0, 1⟩) ∧
        enclosure.placeholder.toList <:+: (heap.display cells value).toList := by
  have unique {limit : Option Nat} {depth : Nat} {nested : Bool} {item : Value} {out : Printout}
      (prints : heap.Prints cells limit depth nested item out) (other : Printout) :
      heap.Prints cells limit depth nested item other ↔ other = out := by
    constructor
    · exact fun again => again.unique prints
    · rintro rfl
      exact prints
  refine ⟨heap.printoutWithin cells displayDepth false value, heap.text_printoutWithin cells _ _ _,
    unique ?_, heap.levels_printoutWithin_le cells _ _ _, ?_, nesting_of_uncut, ?_⟩
  · have prints := heap.prints_printoutWithin cells 0 displayDepth false value
    rwa [Nat.zero_add] at prints
  · intro levels deep fits
    obtain ⟨prints, reached, uncut⟩ := deep.prints fits cells 0 false
    exact ⟨reached, uncut, unique prints⟩
  · intro nested item enclosure encloses found
    refine ⟨unique (.cut found rfl le_rfl), ?_⟩
    have inside := encloses.isInfix cells 0
    rwa [displayWithin, (valueText_of_enclosure found cells nested).1] at inside

/-- A bound method whose method is itself, and an empty array. -/
def selfBound : Heap :=
  let bound := ((ofConfig .default).allocate (.boundMethod ⟨.null, ⟨⟨0, 0⟩⟩⟩)).heap
  (bound.newArray #[]).heap

/-- The one is cut off, the other printed as it would be without a limit. -/
theorem display_selfBound :
    "<fn ...>".toList <:+: (selfBound.display .zero (.object ⟨⟨0, 0⟩⟩)).toList ∧
      selfBound.Prints .zero none 0 false (.object ⟨⟨1, 0⟩⟩)
        ⟨selfBound.display .zero (.object ⟨⟨1, 0⟩⟩), 1, 0⟩ := by
  constructor
  · obtain ⟨out, -, -, -, -, -, cutoff⟩ := display_limited selfBound .zero (.object ⟨⟨0, 0⟩⟩)
    have found : selfBound.enclosure? (.object ⟨⟨0, 0⟩⟩) = some (.method ⟨⟨0, 0⟩⟩) := rfl
    have below : ∀ depth, selfBound.Encloses (.object ⟨⟨0, 0⟩⟩) depth false (.object ⟨⟨0, 0⟩⟩) := by
      intro depth
      induction depth with
      | zero => exact .here
      | succ depth ih => exact ih.within found (List.mem_singleton_self _)
    exact (cutoff false _ _ (below displayDepth) found).2
  · obtain ⟨out, text, -, -, nests, -⟩ := display_limited selfBound .zero (.object ⟨⟨1, 0⟩⟩)
    have found : selfBound.enclosure? (.object ⟨⟨1, 0⟩⟩) = some (.array []) := rfl
    have deep : selfBound.Nesting (.object ⟨⟨1, 0⟩⟩) 1 :=
      @Nesting.enclosing selfBound _ _ (fun _ => 0) found fun item listed => nomatch listed
    obtain ⟨levels, uncut, prints⟩ := nests 1 deep (by decide)
    rw [← text, prints, ← levels, ← uncut]

end Heap
end ScriptHeap
