import Mathlib.Data.List.Basic
import Mathlib.Tactic.Common

/-!
# Machines, runs and invariants

A machine has a partial step function: an action that is not enabled has no successor. `Run ok` are the runs
whose steps all meet the condition `ok` in the state they are taken in; an invariant that every such step
keeps holds in every state such a run reaches (`Run.invariant`). `exec` computes the run of a list of
actions without a condition.
-/

namespace Chatroom.Lib

/-- A state machine with labelled, partial steps. -/
structure Machine (σ α : Type*) where
  step : σ → α → Option σ

namespace Machine

variable {σ α : Type*} (M : Machine σ α)

/-- Runs every step of which meets `ok`. -/
inductive Run (ok : σ → α → Prop) : σ → List α → σ → Prop where
  | nil (s : σ) : Run ok s [] s
  | cons {s t u : σ} {a : α} {l : List α} :
      ok s a → M.step s a = some t → Run ok t l u → Run ok s (a :: l) u

/-- The state after a list of actions, if each was enabled. -/
def exec : σ → List α → Option σ
  | s, [] => some s
  | s, a :: l => (M.step s a).bind fun t => exec t l

variable {M} {ok : σ → α → Prop}

/-- **What every step keeps, every run keeps.** -/
theorem Run.invariant {Inv : σ → Prop}
    (hstep : ∀ s a t, ok s a → M.step s a = some t → Inv s → Inv t)
    {s t : σ} {l : List α} (h : M.Run ok s l t) : Inv s → Inv t := by
  induction h with
  | nil s => exact id
  | cons hok hst _ ih => exact fun hs => ih (hstep _ _ _ hok hst hs)

theorem Run.mono {ok' : σ → α → Prop} (hok : ∀ s a, ok s a → ok' s a) {s t : σ} {l : List α}
    (h : M.Run ok s l t) : M.Run ok' s l t := by
  induction h with
  | nil s => exact .nil s
  | cons ha hst _ ih => exact .cons (hok _ _ ha) hst ih

theorem Run.append {s t u : σ} {l l' : List α} (h : M.Run ok s l t) (h' : M.Run ok t l' u) :
    M.Run ok s (l ++ l') u := by
  induction h with
  | nil s => exact h'
  | cons ha hst _ ih => exact .cons ha hst (ih h')

theorem run_of_exec_of {s t : σ} {l : List α} (hok : ∀ a ∈ l, ∀ s, ok s a) (h : M.exec s l = some t) :
    M.Run ok s l t := by
  induction l generalizing s with
  | nil =>
    obtain rfl : s = t := Option.some.inj h
    exact .nil s
  | cons a l ih =>
    obtain ⟨u, hu, ht⟩ := Option.bind_eq_some_iff.1 h
    exact .cons (hok a (by simp) s) hu (ih (fun b hb => hok b (by simp [hb])) ht)

theorem run_of_exec {s t : σ} {l : List α} (h : M.exec s l = some t) : M.Run (fun _ _ => True) s l t :=
  run_of_exec_of (fun _ _ _ => trivial) h

/-- `exec`, as far as the actions meet `ok`. -/
def execIf (M : Machine σ α) (ok : σ → α → Prop) [∀ s a, Decidable (ok s a)] : σ → List α → Option σ
  | s, [] => some s
  | s, a :: l => if ok s a then (M.step s a).bind fun t => M.execIf ok t l else none

theorem run_of_execIf [∀ s a, Decidable (ok s a)] {s t : σ} {l : List α} (h : M.execIf ok s l = some t) :
    M.Run ok s l t := by
  induction l generalizing s with
  | nil =>
    obtain rfl : s = t := Option.some.inj h
    exact .nil s
  | cons a l ih =>
    rw [execIf] at h
    split at h
    case isTrue hok =>
      obtain ⟨u, hu, ht⟩ := Option.bind_eq_some_iff.1 h
      exact .cons hok hu (ih ht)
    case isFalse => cases h

/-- The machine that also keeps a log of its steps. -/
def logged {β : Type*} (M : Machine σ α) (events : σ → α → List β) : Machine (σ × List β) α where
  step s a := (M.step s.1 a).map fun t => (t, s.2 ++ events s.1 a)

end Machine

/-! ## Threads in a list -/

/-- When one thread of a list moves on, what is collected from the others stays where it is. -/
theorem exists_flatMap_set {τ β : Type*} {threads : List τ} {i : ℕ} {a : τ} (h : threads[i]? = some a)
    (f : τ → List β) :
    ∃ p q, threads.flatMap f = p ++ f a ++ q ∧ ∀ b, (threads.set i b).flatMap f = p ++ f b ++ q := by
  obtain ⟨hi, rfl⟩ := List.getElem?_eq_some_iff.1 h
  refine ⟨(threads.take i).flatMap f, (threads.drop (i + 1)).flatMap f, ?_, ?_⟩
  · rw [List.append_assoc, ← List.flatMap_cons, ← List.flatMap_append, ← List.drop_eq_getElem_cons hi,
      List.take_append_drop]
  · intro b
    rw [List.set_eq_take_append_cons_drop, if_pos hi]
    simp

end Chatroom.Lib
