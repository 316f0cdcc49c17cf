import Mathlib.Data.Nat.Find

/-!
# Executions, fairness and ranks

A system is a partial step function on states and events; each event belongs to an actor or to the environment. Under
weak fairness a goal is reached when a rank never grows, and the one actor that is responsible can always act and lowers
the rank when it does.
-/

namespace RabbitLqc.Lib

variable {σ ε α : Type} {step : σ → ε → Option σ}

/-- One state for each moment; a moment without an event leaves the state as it is. -/
structure Execution (step : σ → ε → Option σ) where
  state : Nat → σ
  event : Nat → Option ε
  moves : ∀ i e, event i = some e → step (state i) e = some (state (i + 1))
  rests : ∀ i, event i = none → state (i + 1) = state i

def Enabled (step : σ → ε → Option σ) (actor : ε → Option α) (s : σ) (a : α) : Prop :=
  ∃ e, actor e = some a ∧ (step s e).isSome

namespace Execution

/-- Weak fairness: no actor is able to act from some moment on without ever acting. -/
def Fair (x : Execution step) (actor : ε → Option α) : Prop :=
  ∀ a i, ∃ j, i ≤ j ∧ ((∃ e, x.event j = some e ∧ actor e = some a) ∨ ¬ Enabled step actor (x.state j) a)

theorem invariant (x : Execution step) {Sound : σ → Prop} {i : Nat} (start : Sound (x.state i))
    (preserved : ∀ s e s', Sound s → step s e = some s' → Sound s') : ∀ j, i ≤ j → Sound (x.state j) := by
  intro j hj
  induction j, hj using Nat.le_induction with
  | base => exact start
  | succ j _ ih =>
    cases happened : x.event j with
    | none => rw [x.rests j happened]; exact ih
    | some e => exact preserved _ _ _ ih (x.moves j e happened)

section Rank

variable {actor : ε → Option α} {Sound Goal : σ → Prop} {rank : σ → Nat} {responsible : σ → α}

/-- What the ranking rule asks of one step towards `Goal`. -/
def Advances (actor : ε → Option α) (Goal : σ → Prop) (rank : σ → Nat) (responsible : σ → α) (s : σ) (e : ε) (s' : σ) :
    Prop :=
  Goal s' ∨ rank s' < rank s ∨
    (rank s' = rank s ∧ responsible s' = responsible s ∧ actor e ≠ some (responsible s))

theorem waits (x : Execution step) {i : Nat} (sound : ∀ j, i ≤ j → Sound (x.state j))
    (advance : ∀ s e s', Sound s → ¬ Goal s → step s e = some s' → Advances actor Goal rank responsible s e s')
    (j : Nat) (hj : i ≤ j) :
    (∃ k, i ≤ k ∧ Goal (x.state k)) ∨ (∃ k, i ≤ k ∧ rank (x.state k) < rank (x.state i)) ∨
      (rank (x.state j) = rank (x.state i) ∧ responsible (x.state j) = responsible (x.state i)) := by
  induction j, hj using Nat.le_induction with
  | base => exact .inr (.inr ⟨rfl, rfl⟩)
  | succ j hj ih =>
    obtain met | lower | ⟨sameRank, sameActor⟩ := ih
    · exact .inl met
    · exact .inr (.inl lower)
    by_cases goal : Goal (x.state j)
    · exact .inl ⟨j, hj, goal⟩
    cases happened : x.event j with
    | none => rw [x.rests j happened]; exact .inr (.inr ⟨sameRank, sameActor⟩)
    | some e =>
      obtain met | lower | ⟨kept, keptActor, _⟩ := advance _ e _ (sound j hj) goal (x.moves j e happened)
      · exact .inl ⟨j + 1, by omega, met⟩
      · exact .inr (.inl ⟨j + 1, by omega, by omega⟩)
      · exact .inr (.inr ⟨kept.trans sameRank, keptActor.trans sameActor⟩)

theorem eventually (x : Execution step) (fair : x.Fair actor)
    (enabled : ∀ s, Sound s → ¬ Goal s → Enabled step actor s (responsible s))
    (advance : ∀ s e s', Sound s → ¬ Goal s → step s e = some s' → Advances actor Goal rank responsible s e s')
    (i : Nat) (sound : ∀ j, i ≤ j → Sound (x.state j)) : ∃ j, i ≤ j ∧ Goal (x.state j) := by
  induction bound : rank (x.state i) using Nat.strong_induction_on generalizing i with
  | _ bound' ih =>
    subst bound
    -- a lower rank at a later moment is enough: the induction starts again from there
    have restart : ∀ k, i ≤ k → rank (x.state k) < rank (x.state i) → ∃ j, i ≤ j ∧ Goal (x.state j) := by
      intro k hk lower
      obtain ⟨j, hj, met⟩ := ih _ lower k (fun j hj => sound j (Nat.le_trans hk hj)) rfl
      exact ⟨j, Nat.le_trans hk hj, met⟩
    obtain ⟨j, hj, acted⟩ := fair (responsible (x.state i)) i
    obtain met | ⟨k, hk, lower⟩ | ⟨sameRank, sameActor⟩ := x.waits sound advance j hj
    · exact met
    · exact restart k hk lower
    by_cases goal : Goal (x.state j)
    · exact ⟨j, hj, goal⟩
    obtain ⟨e, happened, its⟩ | stuck := acted
    · obtain met | lower | ⟨_, _, other⟩ := advance _ e _ (sound j hj) goal (x.moves j e happened)
      · exact ⟨j + 1, by omega, met⟩
      · exact restart (j + 1) (by omega) (by omega)
      · exact absurd (its.trans (congrArg some sameActor.symm)) other
    · exact absurd (sameActor ▸ enabled _ (sound j hj) goal) stuck

end Rank

end Execution

end RabbitLqc.Lib
