import Mathlib.Combinatorics.Enumerative.DoubleCounting
import Mathlib.Data.List.Nodup
import Mathlib.Logic.Relation

/-! Links that are asked for one after the other, in a graph where each thing has one way out at most,
and made unless they would close a cycle. Which ones that are can be told beforehand: on each cycle that
all the links together would make, it is the last one in order. So the order decides which link of a
cycle is left out, but not how many are. -/
namespace ScriptHeap
open Relation
variable {α : Type} {graph current : α → α → Prop} {asking : α → Prop} {order front later : List α}
variable {child parent member : α}

/-- The link of a thing closes a cycle: the thing is on one, and nothing after it in the order that asks
for a link is. -/
def Closes (graph : α → α → Prop) (asking : α → Prop) (order : List α) (child : α) : Prop :=
  ∃ later, (child :: later) <:+ order ∧ asking child ∧ TransGen graph child child ∧
    ∀ other ∈ later, asking other → ¬ TransGen graph child other

theorem Closes.mem (closes : Closes graph asking order child) : child ∈ order := by
  obtain ⟨later, rest, -⟩ := closes
  exact rest.subset List.mem_cons_self

theorem Closes.round (closes : Closes graph asking order child) : TransGen graph child child := by
  obtain ⟨later, -, -, round, -⟩ := closes
  exact round

theorem Closes.asks (closes : Closes graph asking order child) : asking child := by
  obtain ⟨later, -, asks, -⟩ := closes
  exact asks

/-- Of two things in an order one comes after the other, if they are not the same. -/
private theorem same_or_later {one other : α} {after after' : List α}
    (first : (one :: after) <:+ order) (second : (other :: after') <:+ order) :
    one = other ∧ after = after' ∨ one ∈ after' ∨ other ∈ after := by
  rcases List.suffix_or_suffix_of_suffix first second with inside | inside
  · rcases List.suffix_cons_iff.mp inside with same | inside
    · exact .inl (List.cons.inj same)
    · exact .inr (.inl (inside.subset List.mem_cons_self))
  · rcases List.suffix_cons_iff.mp inside with same | inside
    · obtain ⟨same, rest⟩ := List.cons.inj same
      exact .inl ⟨same.symm, rest.symm⟩
    · exact .inr (.inr (inside.subset List.mem_cons_self))

private theorem closes_split (distinct : (front ++ child :: later).Nodup) :
    Closes graph asking (front ++ child :: later) child ↔
      asking child ∧ TransGen graph child child ∧
        ∀ other ∈ later, asking other → ¬ TransGen graph child other := by
  have place : (child :: later) <:+ front ++ child :: later := List.suffix_append ..
  have once {rest : List α} (tail : (child :: rest) <:+ front ++ child :: later) : child ∉ rest :=
    (List.nodup_cons.mp (distinct.sublist tail.sublist)).1
  constructor
  · rintro ⟨rest, tail, asks, round, last⟩
    rcases same_or_later place tail with ⟨-, rfl⟩ | again | again
    · exact ⟨asks, round, last⟩
    · exact absurd again (once tail)
    · exact absurd again (once place)
  · rintro ⟨asks, round, last⟩
    exact ⟨later, place, asks, round, last⟩

private theorem exists_last (sort : α → Prop) (met : ∃ one ∈ order, sort one) :
    ∃ one later, (one :: later) <:+ order ∧ sort one ∧ ∀ other ∈ later, ¬ sort other := by
  induction order with
  | nil =>
    obtain ⟨one, listed, -⟩ := met
    cases listed
  | cons first rest ih =>
    by_cases again : ∃ one ∈ rest, sort one
    · obtain ⟨one, later, tail, sorted, last⟩ := ih again
      exact ⟨one, later, tail.trans (List.suffix_cons ..), sorted, last⟩
    · obtain ⟨one, listed, sorted⟩ := met
      rcases List.mem_cons.mp listed with rfl | listed
      · exact ⟨one, rest, List.suffix_rfl, sorted, fun other after sort => again ⟨other, after, sort⟩⟩
      · exact absurd ⟨one, listed, sorted⟩ again

/-! ## One way out -/

section
variable (single : Relator.RightUnique graph)
include single

/-- From a thing on a cycle every way leads back. -/
theorem leads_back {one other : α} (round : TransGen graph one one) (way : ReflTransGen graph one other) :
    ReflTransGen graph other one := by
  induction way with
  | refl => exact .refl
  | tail _ link ih =>
    rcases ih.cases_head with rfl | ⟨next, leads, back⟩
    · obtain ⟨next, leads, back⟩ := TransGen.head'_iff.mp round
      rwa [single link leads]
    · rwa [single link leads]

/-- When the links before it have been dealt with, the thing that asks is reached from the one it asks
for exactly if the link closes a cycle. -/
theorem reached_iff_closes (split : order = front ++ child :: later) (distinct : order.Nodup)
    (listed : ∀ one, asking one → one ∈ order)
    (links : ∀ one other, current one other ↔
      graph one other ∧ (asking one → one ∈ front ∧ ¬ Closes graph asking order one))
    (asks : asking child) (link : graph child parent) :
    ReflTransGen current parent child ↔ Closes graph asking order child := by
  subst split
  obtain ⟨-, own, apart⟩ := List.nodup_append.mp distinct
  have fresh := (List.nodup_cons.mp own).1
  rw [closes_split distinct]
  constructor
  · intro way
    have round : TransGen graph child child :=
      .head' link (ReflTransGen.mono (fun _ _ made => ((links _ _).mp made).1) _ _ way)
    refine ⟨asks, round, ?_⟩
    intro other after asks' reaches
    -- every way on from the parent goes along links that are made, and comes by the child
    have comes {one : α} (onward : ReflTransGen graph parent one) : ReflTransGen current one child := by
      induction onward with
      | refl => exact way
      | tail _ step ih =>
        rcases ih.cases_head with rfl | ⟨next, made, back⟩
        · rwa [single step link]
        · rwa [single step ((links _ next).mp made).1]
    obtain ⟨next, first, onward⟩ := TransGen.head'_iff.mp reaches
    rw [single first link] at onward
    rcases (comes onward).cases_head with rfl | ⟨next, made, -⟩
    · exact fresh after
    · have early := (((links other next).mp made).2 asks').1
      exact apart other early other (List.mem_cons_of_mem _ after) rfl
  · rintro ⟨-, round, last⟩
    have made {one other : α} (reached : TransGen graph child one) (different : one ≠ child)
        (step : graph one other) : current one other := by
      refine (links one other).mpr ⟨step, fun asks' => ?_⟩
      rcases List.mem_append.mp (listed one asks') with early | here
      · refine ⟨early, ?_⟩
        rintro ⟨rest, tail, -, -, last'⟩
        rcases same_or_later tail (List.suffix_append front (child :: later))
          with ⟨same, -⟩ | after | before
        · exact different same
        · exact last one after asks' reached
        · -- the cycle goes on to the child, which comes later and asks for its link
          have back := leads_back single round reached.to_reflTransGen
          rcases reflTransGen_iff_eq_or_transGen.mp back with same | back
          · exact different same.symm
          · exact last' child before asks back
      · rcases List.mem_cons.mp here with same | after
        · exact absurd same different
        · exact absurd reached (last one after asks')
    have along {one : α} (onward : ReflTransGen graph parent one) :
        ReflTransGen current parent one ∨ ReflTransGen current parent child := by
      induction onward with
      | refl => exact .inl .refl
      | @tail middle _ before step ih =>
        rcases ih with way | done
        · by_cases same : middle = child
          · exact .inr (same ▸ way)
          · exact .inl (way.tail (made (.head' link before) same step))
        · exact .inr done
    obtain ⟨next, first, onward⟩ := TransGen.head'_iff.mp round
    rw [single first link] at onward
    exact (along onward).elim id id

/-- Each cycle with a thing on it that asks for a link has one link that closes it. -/
theorem existsUnique_closes (listed : ∀ one, asking one → one ∈ order)
    (round : TransGen graph member member) (asks : ∃ one, asking one ∧ TransGen graph member one) :
    ∃! child, Closes graph asking order child ∧ TransGen graph member child := by
  obtain ⟨one, asks, reached⟩ := asks
  obtain ⟨child, later, tail, ⟨asks', way⟩, last⟩ :=
    exists_last (fun one => asking one ∧ TransGen graph member one)
      ⟨one, listed one asks, asks, reached⟩
  have back {one : α} (way : TransGen graph member one) : ReflTransGen graph one member :=
    leads_back single round way.to_reflTransGen
  refine ⟨child, ⟨⟨later, tail, asks', .trans_right (back way) way, ?_⟩, way⟩, ?_⟩
  · intro other after wants onward
    exact last other after ⟨wants, way.trans onward⟩
  · rintro other ⟨⟨later', tail', wants, -, last'⟩, way'⟩
    rcases same_or_later tail tail' with ⟨same, -⟩ | after | after
    · exact same.symm
    · exact absurd (.trans_right (back way') way) (last' child after asks')
    · exact absurd ⟨wants, way'⟩ (last other after)

open scoped Classical in
/-- The links that close cycles in one order are no more than in another: each has its cycle. -/
theorem length_closing_le {order order' : List α} (distinct : order.Nodup) (distinct' : order'.Nodup)
    (listed : ∀ one, asking one → one ∈ order) (listed' : ∀ one, asking one → one ∈ order') :
    (order.filter fun one => Closes graph asking order one).length ≤
      (order'.filter fun one => Closes graph asking order' one).length := by
  rw [← List.toFinset_card_of_nodup (distinct.filter _),
    ← List.toFinset_card_of_nodup (distinct'.filter _)]
  apply Finset.card_le_card_of_forall_subsingleton (TransGen graph)
  · intro one closing
    simp only [List.mem_toFinset, List.mem_filter, decide_eq_true_eq] at closing
    obtain ⟨-, closes⟩ := closing
    obtain ⟨other, ⟨closes', way⟩, -⟩ :=
      existsUnique_closes single listed' closes.round ⟨one, closes.asks, closes.round⟩
    refine ⟨other, ?_, way⟩
    simp only [List.mem_toFinset, List.mem_filter, decide_eq_true_eq]
    exact ⟨closes'.mem, closes'⟩
  · -- two that share a cycle in the other order share it in this one
    rintro other - one ⟨closing, way⟩ one' ⟨closing', way'⟩
    simp only [List.mem_toFinset, List.mem_filter, decide_eq_true_eq] at closing closing'
    obtain ⟨-, closes⟩ := closing
    obtain ⟨-, closes'⟩ := closing'
    have back := leads_back single closes.round way.to_reflTransGen
    have back' := leads_back single closes'.round way'.to_reflTransGen
    have round := TransGen.trans_right back way
    have one_only := existsUnique_closes single listed round
      ⟨one, closes.asks, .trans_right back closes.round⟩
    exact one_only.unique ⟨closes, .trans_right back closes.round⟩
      ⟨closes', .trans_right back' closes'.round⟩

end
end ScriptHeap
