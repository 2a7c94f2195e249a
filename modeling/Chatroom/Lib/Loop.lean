import Mathlib.Data.Option.Basic
import Mathlib.Logic.Relation
import Mathlib.Tactic.Common

/-!
# Loops with a bound

`loop step n` runs a loop body at most `n` times. A body that makes a measure smaller is never stopped by a bound
above the measure (`isSome_of_variant`), and the bound then does not matter (`loop_eq_of_leads`).
-/

namespace Chatroom.Lib

variable {σ β : Type*}

/-- The body goes on with a state, or leaves with a result; `none` when the bound is reached. -/
def loop (step : σ → σ ⊕ β) : ℕ → σ → Option β
  | 0, _ => none
  | n + 1, s =>
    match step s with
    | .inl t => loop step n t
    | .inr b => some b

variable {step : σ → σ ⊕ β}

/-- Some rounds lead from one state to the other. -/
def Leads (step : σ → σ ⊕ β) : σ → σ → Prop := Relation.ReflTransGen fun s t => step s = .inl t

theorem Leads.refl (s : σ) : Leads step s s := Relation.ReflTransGen.refl

theorem Leads.head {s t u : σ} (h : step s = .inl t) (htu : Leads step t u) : Leads step s u :=
  Relation.ReflTransGen.head h htu

theorem Leads.trans {s t u : σ} (hst : Leads step s t) (htu : Leads step t u) : Leads step s u :=
  Relation.ReflTransGen.trans hst htu

/-- A loop whose rounds make the measure smaller comes to its end. -/
theorem isSome_of_variant {μ : σ → ℕ} (hμ : ∀ s t, step s = .inl t → μ t < μ s) {n : ℕ} {s : σ} (h : μ s < n) :
    (loop step n s).isSome := by
  induction n generalizing s with
  | zero => cases h
  | succ n ih =>
    rw [loop]
    cases hstep : step s with
    | inl t =>
      have hlt := hμ s t hstep
      exact ih (by omega)
    | inr b => rfl

theorem loop_succ_of_isSome {n : ℕ} {s : σ} (h : (loop step n s).isSome) : loop step (n + 1) s = loop step n s := by
  induction n generalizing s with
  | zero => cases h
  | succ n ih =>
    rw [loop] at h
    conv_lhs => rw [loop]
    conv_rhs => rw [loop]
    cases hstep : step s with
    | inl t =>
      rw [hstep] at h
      exact ih h
    | inr b => rfl

/-- What the rounds lead to is the result, whatever the bound that is not reached. -/
theorem loop_eq_of_leads {n : ℕ} {s t : σ} {b : β} (hst : Leads step s t) (ht : step t = .inr b)
    (h : (loop step n s).isSome) : loop step n s = some b := by
  have hend : ∃ m, loop step m s = some b := by
    clear h
    induction hst using Relation.ReflTransGen.head_induction_on with
    | refl => exact ⟨1, by rw [loop, ht]⟩
    | head hstep _ ih =>
      obtain ⟨m, hm⟩ := ih
      exact ⟨m + 1, by rw [loop, hstep]; exact hm⟩
  have hmono : ∀ {k : ℕ} (d : ℕ), (loop step k s).isSome → loop step (k + d) s = loop step k s := by
    intro k d hk
    induction d with
    | zero => rfl
    | succ d ih => rw [← Nat.add_assoc, loop_succ_of_isSome (by rw [ih]; exact hk), ih]
  obtain ⟨m, hm⟩ := hend
  rcases Nat.le_total n m with hle | hle
  · obtain ⟨d, rfl⟩ := Nat.exists_eq_add_of_le hle
    rw [← hmono d h, hm]
  · obtain ⟨d, rfl⟩ := Nat.exists_eq_add_of_le hle
    rw [hmono d (by rw [hm]; rfl), hm]

/-- What every round keeps holds at the end. -/
theorem loop_invariant {Inv : σ → Prop} {Q : β → Prop} (hstep : ∀ s t, Inv s → step s = .inl t → Inv t)
    (hexit : ∀ s b, Inv s → step s = .inr b → Q b) {n : ℕ} {s : σ} {b : β} (hs : Inv s)
    (h : loop step n s = some b) : Q b := by
  induction n generalizing s with
  | zero => cases h
  | succ n ih =>
    rw [loop] at h
    cases hround : step s with
    | inl t =>
      rw [hround] at h
      exact ih (hstep s t hs hround) h
    | inr b' =>
      rw [hround] at h
      exact hexit s b hs (Option.some.inj h ▸ hround)

end Chatroom.Lib
