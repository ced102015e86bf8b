import Mathlib.Tactic.Common

/-! Programs whose loops have no bound. What such a program comes to is a relation: a loop that runs for
ever comes to nothing, and that a program ends has to be proved, from something that every round of its
loops makes less. -/
namespace ScriptHeap

/-- What a program may come to, and after how many rounds of its loops. -/
def Unbounded (α : Type) : Type := α → Nat → Prop

namespace Unbounded
variable {σ α β : Type}

def done (result : α) : Unbounded α := fun last rounds => last = result ∧ rounds = 0

/-- One program, and then another one that goes on from its result. -/
def andThen (first : Unbounded α) (next : α → Unbounded β) : Unbounded β := fun last rounds =>
  ∃ result sooner later, first result sooner ∧ next result last later ∧ rounds = sooner + later

/-- Rounds that are made until one of them gives a result. -/
inductive loop (turn : σ → σ ⊕ α) : σ → α → Nat → Prop where
  | last {state result} (ends : turn state = .inr result) : loop turn state result 0
  | again {state next result rounds} (goes : turn state = .inl next)
      (rest : loop turn next result rounds) : loop turn state result (rounds + 1)

/-- The program comes to a result and to nothing else, after at most so many rounds. -/
structure EndsIn (program : Unbounded α) (result : α) (limit : Nat) : Prop where
  ends : ∃ rounds, program result rounds
  only : ∀ last rounds, program last rounds → last = result ∧ rounds ≤ limit

namespace EndsIn
variable {program : Unbounded α} {result : α} {limit more : Nat}

theorem mono (ends : program.EndsIn result limit) (le : limit ≤ more) : program.EndsIn result more where
  ends := ends.ends
  only last rounds comes :=
    ⟨(ends.only last rounds comes).1, Nat.le_trans (ends.only last rounds comes).2 le⟩

theorem congr {other : α} (ends : program.EndsIn result limit) (same : result = other) :
    program.EndsIn other limit := same ▸ ends

theorem done (result : α) : (Unbounded.done result).EndsIn result limit where
  ends := ⟨0, rfl, rfl⟩
  only := by
    rintro last rounds ⟨rfl, rfl⟩
    exact ⟨rfl, Nat.zero_le _⟩

theorem andThen {next : α → Unbounded β} {last : β} (first : program.EndsIn result limit)
    (second : (next result).EndsIn last more) : (program.andThen next).EndsIn last (limit + more) where
  ends := by
    obtain ⟨sooner, begun⟩ := first.ends
    obtain ⟨later, ended⟩ := second.ends
    exact ⟨sooner + later, result, sooner, later, begun, ended, rfl⟩
  only := by
    rintro other _ ⟨middle, sooner, later, begun, ended, rfl⟩
    obtain ⟨rfl, few⟩ := first.only middle sooner begun
    obtain ⟨rfl, few'⟩ := second.only other later ended
    exact ⟨rfl, Nat.add_le_add few few'⟩

/-- What is left to do after a program that ends needs no rounds. -/
theorem map (ends : program.EndsIn result limit) (change : α → β) :
    (program.andThen fun result => Unbounded.done (change result)).EndsIn (change result) limit := by
  rw [← Nat.add_zero limit]
  exact ends.andThen (done (change result))

/-- **A loop ends when every round makes a measure less**, with whatever the rounds agree that it comes
to. -/
theorem loop {turn : σ → σ ⊕ α} (measure : σ → Nat) (comes : σ → α)
    (goes : ∀ state next, turn state = .inl next → measure next < measure state ∧ comes next = comes state)
    (ends : ∀ state last, turn state = .inr last → comes state = last) (state : σ) :
    EndsIn (Unbounded.loop turn state) (comes state) (measure state) := by
  induction within : measure state using Nat.strongRecOn generalizing state with
  | ind limit ih =>
    subst within
    cases turned : turn state with
    | inr last =>
      obtain rfl := ends state last turned
      refine ⟨⟨0, .last turned⟩, fun other rounds came => ?_⟩
      cases came with
      | last ends => exact ⟨Sum.inr.inj (ends.symm.trans turned), Nat.zero_le _⟩
      | again goes => cases goes.symm.trans turned
    | inl next =>
      obtain ⟨less, same⟩ := goes state next turned
      have rest := ih (measure next) less next rfl
      rw [same] at rest
      refine ⟨?_, fun other rounds came => ?_⟩
      · obtain ⟨rounds, came⟩ := rest.ends
        exact ⟨rounds + 1, .again turned came⟩
      · cases came with
        | last ends => cases ends.symm.trans turned
        | again goes later =>
          obtain rfl := Sum.inl.inj (goes.symm.trans turned)
          obtain ⟨same, few⟩ := rest.only _ _ later
          exact ⟨same, Nat.le_trans (Nat.succ_le_succ few) less⟩

end EndsIn

end Unbounded
end ScriptHeap
