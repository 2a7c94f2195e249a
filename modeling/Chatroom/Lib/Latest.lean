import Mathlib.Data.List.Basic
import Mathlib.Data.List.Sort
import Mathlib.Order.Basic

/-!
# The rows with the greatest keys

A query that orders rows by a key, greatest first, may list rows with one key in any order. Whatever it does with them,
its first `count` rows are the last `count` rows of the table, backwards, exactly when each of those has a greater key
than the rows before it, or is the same (`take_eq_iff`).
-/

namespace Chatroom.Lib

variable {α κ : Type*} [LinearOrder κ] (key : α → κ)

/-- The greatest keys first. -/
def Desc (l : List α) : Prop := l.Pairwise fun a b => key b ≤ key a

/-- Each of the last `count` rows has a greater key than those before it, or is the same row. -/
def Later (count : ℕ) (rows : List α) : Prop :=
  ∀ before x after, rows = before ++ x :: after → after.length < count → ∀ y ∈ before, key y < key x ∨ y = x

theorem desc_mergeSort (l : List α) : Desc key (l.mergeSort fun a b => decide (key b ≤ key a)) := by
  have htrans : ∀ a b c : α, decide (key b ≤ key a) = true → decide (key c ≤ key b) = true →
      decide (key c ≤ key a) = true := by
    intro a b c hab hbc
    simp only [decide_eq_true_eq] at *
    exact hbc.trans hab
  have htotal : ∀ a b : α, (decide (key b ≤ key a) || decide (key a ≤ key b)) = true := by
    intro a b
    simpa using le_total (key b) (key a)
  exact (List.pairwise_mergeSort htrans htotal l).imp of_decide_eq_true

variable {key}

theorem later_zero (rows : List α) : Later key 0 rows := fun _ _ _ _ h => absurd h (Nat.not_lt_zero _)

theorem later_nil (count : ℕ) : Later key count ([] : List α) := fun _ _ _ h => by simp at h

theorem later_concat {count : ℕ} {rows : List α} {x : α} :
    Later key (count + 1) (rows ++ [x]) ↔ (∀ y ∈ rows, key y < key x ∨ y = x) ∧ Later key count rows := by
  constructor
  · refine fun h => ⟨h rows x [] rfl (Nat.succ_pos _), fun before z after heq hlt => ?_⟩
    exact h before z (after ++ [x]) (by simp [heq]) (by simpa using hlt)
  · rintro ⟨hx, h⟩ before z after heq hlt
    rcases List.eq_nil_or_concat' after with rfl | ⟨after, w, rfl⟩
    · obtain ⟨rfl, rfl⟩ : rows = before ∧ x = z := by simpa using heq
      exact hx
    · rw [← List.cons_append, ← List.append_assoc] at heq
      obtain ⟨rfl, -⟩ := List.append_inj' heq rfl
      exact h before z after rfl (by simpa using hlt)

/-- What has to come first has a greater key than the other rows. -/
theorem forall_take_succ_iff {count : ℕ} {rows front : List α} {x : α} :
    (∀ l : List α, l.Perm (x :: rows) → Desc key l → l.take (count + 1) = x :: front) ↔
      (∀ y ∈ rows, key y < key x ∨ y = x) ∧ ∀ l : List α, l.Perm rows → Desc key l → l.take count = front := by
  constructor
  · intro h
    have hle : ∀ y ∈ rows, key y ≤ key x := by
      intro y hy
      have hsorted := desc_mergeSort key (x :: rows)
      have hperm := List.mergeSort_perm (x :: rows) fun a b => decide (key b ≤ key a)
      have htake := h _ hperm hsorted
      cases hl : (x :: rows).mergeSort fun a b => decide (key b ≤ key a) with
      | nil => simp [hl] at htake
      | cons z l =>
        rw [hl] at hsorted hperm htake
        obtain rfl : z = x := (List.cons.inj htake).1
        exact (List.pairwise_cons.1 hsorted).1 y (hperm.cons_inv.mem_iff.2 hy)
    refine ⟨fun y hy => ?_, fun l hl hdesc => ?_⟩
    · rcases (hle y hy).lt_or_eq with hlt | heq
      · exact .inl hlt
      · -- a list that has `y` first
        obtain ⟨before, after, rfl⟩ := List.append_of_mem hy
        have hsort := List.mergeSort_perm (x :: (before ++ after)) fun a b => decide (key b ≤ key a)
        have hperm := (hsort.cons y).trans ((List.Perm.swap x y _).trans (List.perm_middle.symm.cons x))
        have htake := h _ hperm (List.pairwise_cons.2 ⟨fun z hz => ?_, desc_mergeSort key _⟩)
        · exact .inr (List.cons.inj htake).1
        · rw [heq]
          rcases List.mem_cons.1 (hsort.mem_iff.1 hz) with rfl | hz
          · exact le_rfl
          · refine hle z ?_
            rcases List.mem_append.1 hz with hz | hz <;> simp [hz]
    · have hx := h (x :: l) (hl.cons x) (List.pairwise_cons.2 ⟨fun y hy => hle y (hl.mem_iff.1 hy), hdesc⟩)
      exact (List.cons.inj hx).2
  · rintro ⟨hlater, h⟩ l hl hdesc
    cases l with
    | nil => simpa using hl.length_eq
    | cons y l =>
      obtain ⟨hy, hdesc⟩ := List.pairwise_cons.1 hdesc
      obtain rfl : y = x := by
        by_contra hyx
        have hmem : y ∈ rows := (List.mem_cons.1 (hl.mem_iff.1 (by simp))).resolve_left hyx
        have hxl : x ∈ l := (List.mem_cons.1 (hl.mem_iff.2 (by simp))).resolve_left (Ne.symm hyx)
        rcases hlater y hmem with hlt | heq
        · exact absurd (hy x hxl) (not_le.2 hlt)
        · exact hyx heq
      rw [List.take_succ_cons, h l hl.cons_inv hdesc]

/-- **The first rows of every such list are the last ones, backwards,** exactly when those come later. -/
theorem take_eq_iff {count : ℕ} {rows : List α} :
    (∀ l : List α, l.Perm rows → Desc key l → l.take count = rows.reverse.take count) ↔ Later key count rows := by
  induction count generalizing rows with
  | zero => simp [later_zero]
  | succ count ih =>
    rcases List.eq_nil_or_concat' rows with rfl | ⟨rows, x, rfl⟩
    · simp [later_nil]
    · rw [later_concat, ← ih, List.reverse_append]
      have hrows : ∀ l : List α, l.Perm (rows ++ [x]) ↔ l.Perm (x :: rows) :=
        fun l => (List.perm_append_singleton x rows).congr_right l
      simp only [hrows, List.reverse_singleton, List.singleton_append, List.take_succ_cons, forall_take_succ_iff]

end Chatroom.Lib
