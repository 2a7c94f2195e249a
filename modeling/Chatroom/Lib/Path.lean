import Mathlib.Data.List.Basic
import Mathlib.Tactic.Common

/-!
# Paths, resolved name by name

What a path leads to when each of its components is taken as it stands: no links are followed. A directory is the list
of the names on the way to it from the root, whose parent is the root itself.

A path that is `normal` goes up first and then down; `resolve_eq` says that this is all there is to a path.
-/

namespace Chatroom.Lib

/-- A component of a path. -/
inductive Component (α : Type*) where
  /-- an empty component, or `.` -/
  | stay
  /-- `..` -/
  | up
  | name (a : α)
  deriving DecidableEq

namespace Path

variable {α : Type*} {dir names : List α} {path : List (Component α)}

def step (dir : List α) : Component α → List α
  | .stay => dir
  | .up => dir.dropLast
  | .name a => dir ++ [a]

/-- Where a path leads from a directory. -/
def resolve (dir : List α) (path : List (Component α)) : List α := path.foldl step dir

/-- One more component of a path that goes up `n` times and then down along `names`. -/
def normalStep : ℕ × List α → Component α → ℕ × List α
  | p, .stay => p
  | (n, []), .up => (n + 1, [])
  | (n, a :: names), .up => (n, (a :: names).dropLast)
  | (n, names), .name a => (n, names ++ [a])

/-- How often a path goes up, and the names along which it then goes down, when each name is cancelled by the `..` that
follows it. -/
def normal (path : List (Component α)) : ℕ × List α := path.foldl normalStep (0, [])

theorem resolve_append (dir : List α) (path path' : List (Component α)) :
    resolve dir (path ++ path') = resolve (resolve dir path) path' := List.foldl_append

theorem step_normal (dir : List α) (p : ℕ × List α) (c : Component α) :
    step (dir.take (dir.length - p.1) ++ p.2) c =
      dir.take (dir.length - (normalStep p c).1) ++ (normalStep p c).2 := by
  obtain ⟨n, names⟩ := p
  cases c with
  | stay => rfl
  | name a => simp [step, normalStep]
  | up =>
    cases names with
    | nil =>
      rw [step, normalStep, List.append_nil, List.append_nil, List.dropLast_eq_take, List.take_take, List.length_take]
      congr 1
      omega
    | cons a names => rw [step, normalStep, List.dropLast_append_of_ne_nil (by simp)]

/-- **A path goes up, then down.** -/
theorem resolve_eq (dir : List α) (path : List (Component α)) :
    resolve dir path = dir.take (dir.length - (normal path).1) ++ (normal path).2 := by
  have hrun : ∀ p : ℕ × List α, resolve (dir.take (dir.length - p.1) ++ p.2) path =
      dir.take (dir.length - (path.foldl normalStep p).1) ++ (path.foldl normalStep p).2 := by
    induction path with
    | nil => exact fun p => rfl
    | cons c path ih =>
      intro p
      rw [resolve, List.foldl_cons, step_normal]
      exact ih (normalStep p c)
  have hstart := hrun (0, [])
  rwa [Nat.sub_zero, List.take_length, List.append_nil] at hstart

/-- A path leads to a name in the directory when the names it goes down are those it has gone up, and one more. -/
theorem resolve_eq_concat_iff (dir : List α) (path : List (Component α)) (a : α) :
    resolve dir path = dir ++ [a] ↔ (normal path).2 = dir.drop (dir.length - (normal path).1) ++ [a] := by
  rw [resolve_eq]
  conv_lhs => rhs; rw [← List.take_append_drop (dir.length - (normal path).1) dir, List.append_assoc]
  rw [List.append_cancel_left_eq]

end Path

end Chatroom.Lib
