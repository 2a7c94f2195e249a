import Mathlib.Data.Sum.Basic
import Mathlib.Order.Filter.AtTopBot.Basic
import Mathlib.Tactic.Common

/-!
# Loops that ask

A `while` whose body makes one call and goes on with the answer, whatever it is. What answers there can be may depend
on when and where it is asked (`Conforms`). Such a loop ends if a measure never grows and shrinks again and again
(`ends_of_variant`); and two loops whose states are related end alike (`terminates_iff_of_simulates`).
-/

namespace Chatroom.Lib

open Filter

/-- A loop over states `σ` that is answered with `α` and left with `β`. -/
structure AskLoop (σ α β : Type*) where
  /-- what the loop is left with when its condition is false -/
  exit : σ → Option β
  /-- the body: the next state, or an exit from within -/
  body : σ → α → σ ⊕ β

namespace AskLoop

variable {σ σ' α β : Type*} (L : AskLoop σ α β) (answers : ℕ → α)

/-- The condition is tested. -/
def test (s : σ) : σ ⊕ β := (L.exit s).elim (.inl s) .inr

/-- The body is run, and the condition is tested again. -/
def round (a : α) : σ ⊕ β → σ ⊕ β
  | .inl s => (L.body s a).elim L.test .inr
  | .inr b => .inr b

/-- Where the loop is when it has been answered `k` times: at its next question, or at its end. -/
def after (s : σ) : ℕ → σ ⊕ β
  | 0 => L.test s
  | k + 1 => L.round (answers k) (after s k)

/-- The loop comes to an end. -/
def Ends (s : σ) : Prop := ∃ k b, L.after answers s k = .inr b

variable {L} {answers} {s t u : σ} {a : α} {b : β} {k : ℕ}

theorem after_succ : L.after answers s (k + 1) = L.round (answers k) (L.after answers s k) := rfl

/-! ## One round -/

theorem test_eq_inl : L.test s = .inl t ↔ s = t ∧ L.exit s = none := by
  unfold test
  cases L.exit s <;> simp

theorem test_eq_inr : L.test s = .inr b ↔ L.exit s = some b := by
  unfold test
  cases L.exit s <;> simp

theorem round_eq_inl {p : σ ⊕ β} : L.round a p = .inl u ↔
    ∃ t, p = .inl t ∧ L.body t a = .inl u ∧ L.exit u = none := by
  cases p with
  | inr b => simp [round]
  | inl t =>
    cases hbody : L.body t a with
    | inl v =>
      simp only [round, hbody, Sum.elim_inl, test_eq_inl, Sum.inl.injEq, exists_eq_left']
      constructor
      · rintro ⟨rfl, hexit⟩
        exact ⟨rfl, hexit⟩
      · rintro ⟨rfl, hexit⟩
        exact ⟨rfl, hexit⟩
    | inr b => simp [round, hbody]

theorem exit_of_after (h : L.after answers s k = .inl t) : L.exit t = none := by
  cases k with
  | zero =>
    obtain ⟨rfl, hexit⟩ := test_eq_inl.1 h
    exact hexit
  | succ k =>
    obtain ⟨-, -, -, hexit⟩ := round_eq_inl.1 h
    exact hexit

theorem not_ends_iff : ¬ L.Ends answers s ↔ ∀ k, ∃ t, L.after answers s k = .inl t := by
  constructor
  · intro h k
    cases hk : L.after answers s k with
    | inl t => exact ⟨t, rfl⟩
    | inr b => exact absurd ⟨k, b, hk⟩ h
  · rintro h ⟨k, b, hk⟩
    obtain ⟨t, ht⟩ := h k
    rw [ht] at hk
    cases hk

/-! ## Variants -/

/-- **A loop ends if a measure of its state never grows and shrinks infinitely often.** -/
theorem ends_of_variant (m : σ → ℕ)
    (hle : ∀ k t u, L.after answers s k = .inl t → L.after answers s (k + 1) = .inl u → m u ≤ m t)
    (hlt : ∃ᶠ k in atTop, ∀ t u, L.after answers s k = .inl t → L.after answers s (k + 1) = .inl u → m u < m t) :
    L.Ends answers s := by
  by_contra hnever
  choose t ht using not_ends_iff.1 hnever
  have hanti : Antitone fun k => m (t k) := antitone_nat_of_succ_le fun k => hle k _ _ (ht k) (ht (k + 1))
  -- it shrinks `n` times, for every `n`
  have hshrinks : ∀ n, ∃ k, m (t k) + n ≤ m (t 0) := by
    intro n
    induction n with
    | zero => exact ⟨0, le_rfl⟩
    | succ n ih =>
      obtain ⟨k, hk⟩ := ih
      obtain ⟨j, hj, hshrink⟩ := frequently_atTop.1 hlt k
      have hkj : m (t j) ≤ m (t k) := hanti hj
      have hjj : m (t (j + 1)) < m (t j) := hshrink _ _ (ht j) (ht (j + 1))
      exact ⟨j + 1, by omega⟩
  obtain ⟨k, hk⟩ := hshrinks (m (t 0) + 1)
  omega

/-! ## Answers that there can be -/

/-- Every question is answered as it can be, there and then. -/
def Conforms (L : AskLoop σ α β) (C : ℕ → σ → α → Prop) (answers : ℕ → α) (s : σ) : Prop :=
  ∀ k t, L.after answers s k = .inl t → C k t (answers k)

/-- The loop ends, whatever it is answered. -/
def Terminates (L : AskLoop σ α β) (C : ℕ → σ → α → Prop) (fair : (ℕ → α) → Prop) (s : σ) : Prop :=
  ∀ answers, L.Conforms C answers s → fair answers → L.Ends answers s

/-- The states of the loops are related as long as they are asked for what can be answered. -/
structure Simulates (L : AskLoop σ α β) (L' : AskLoop σ' α β) (R : σ → σ' → Prop) (C : ℕ → σ → α → Prop)
    (C' : ℕ → σ' → α → Prop) : Prop where
  exit : ∀ s s', R s s' → L.exit s = L'.exit s'
  answer : ∀ k s s' a, R s s' → (C k s a ↔ C' k s' a)
  body : ∀ k s s' a, R s s' → L.exit s = none → C k s a → Sum.LiftRel R Eq (L.body s a) (L'.body s' a)

section Simulates

variable {L' : AskLoop σ' α β} {R : σ → σ' → Prop} {C : ℕ → σ → α → Prop} {C' : ℕ → σ' → α → Prop} {s' : σ'}

theorem liftRel_test (hexit : L.exit s = L'.exit s') (h : R s s') : Sum.LiftRel R Eq (L.test s) (L'.test s') := by
  unfold test
  rw [hexit]
  cases L'.exit s' with
  | none => exact .inl h
  | some b => exact .inr rfl

theorem Simulates.round (hsim : Simulates L L' R C C') {p : σ ⊕ β} {p' : σ' ⊕ β} (h : Sum.LiftRel R Eq p p')
    (hexit : ∀ t, p = .inl t → L.exit t = none) (hanswer : ∀ t, p = .inl t → C k t a) :
    Sum.LiftRel R Eq (L.round a p) (L'.round a p') := by
  cases h with
  | inr hb => exact .inr hb
  | @inl t t' ht =>
    have hbody := hsim.body k t t' a ht (hexit t rfl) (hanswer t rfl)
    simp only [AskLoop.round]
    generalize L.body t a = q, L'.body t' a = q' at hbody
    cases hbody with
    | inl hu => exact liftRel_test (hsim.exit _ _ hu) hu
    | inr hb => exact .inr hb

theorem Simulates.after (hsim : Simulates L L' R C C') (h : R s s') (hconf : L.Conforms C answers s) (k : ℕ) :
    Sum.LiftRel R Eq (L.after answers s k) (L'.after answers s' k) := by
  induction k with
  | zero => exact liftRel_test (hsim.exit s s' h) h
  | succ k ih => exact hsim.round ih (fun t ht => exit_of_after ht) fun t ht => hconf k t ht

/-- Until the first answer that there cannot be, the loops run alike. -/
theorem Simulates.after_of_conforms (hsim : Simulates L L' R C C') (h : R s s') (hconf : L'.Conforms C' answers s')
    (k : ℕ) : Sum.LiftRel R Eq (L.after answers s k) (L'.after answers s' k) := by
  induction k with
  | zero => exact liftRel_test (hsim.exit s s' h) h
  | succ k ih =>
    refine hsim.round ih (fun t ht => exit_of_after ht) (k := k) fun t ht => ?_
    rw [ht] at ih
    generalize hp : L'.after answers s' k = p at ih
    cases ih with
    | inl ht' => exact (hsim.answer k _ _ _ ht').2 (hconf k _ hp)

theorem Simulates.conforms_iff (hsim : Simulates L L' R C C') (h : R s s') :
    L.Conforms C answers s ↔ L'.Conforms C' answers s' := by
  constructor
  · intro hconf k t' ht'
    have hrel := hsim.after h hconf k
    rw [ht'] at hrel
    generalize hp : L.after answers s k = p at hrel
    cases hrel with
    | inl ht => exact (hsim.answer k _ _ _ ht).1 (hconf k _ hp)
  · intro hconf k t ht
    have hrel := hsim.after_of_conforms h hconf k
    rw [ht] at hrel
    generalize hp : L'.after answers s' k = p at hrel
    cases hrel with
    | inl ht' => exact (hsim.answer k _ _ _ ht').2 (hconf k _ hp)

/-- **Loops with related states end alike.** -/
theorem terminates_iff_of_simulates (hsim : Simulates L L' R C C') (h : R s s') {fair : (ℕ → α) → Prop} :
    L.Terminates C fair s ↔ L'.Terminates C' fair s' := by
  have hends : ∀ answers, L.Conforms C answers s → (L.Ends answers s ↔ L'.Ends answers s') := by
    intro answers hconf
    refine exists_congr fun k => ?_
    have hrel := hsim.after h hconf k
    generalize L.after answers s k = p, L'.after answers s' k = p' at hrel
    cases hrel with
    | inl => simp
    | inr hb => simp [hb]
  constructor
  · intro hterm answers hconf hfair
    have hconf' := (hsim.conforms_iff h).2 hconf
    exact (hends answers hconf').1 (hterm answers hconf' hfair)
  · intro hterm answers hconf hfair
    exact (hends answers hconf).2 (hterm answers ((hsim.conforms_iff h).1 hconf) hfair)

end Simulates

end AskLoop

end Chatroom.Lib
