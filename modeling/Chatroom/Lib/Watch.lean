import Mathlib.Algebra.BigOperators.Group.List.Basic
import Mathlib.Algebra.Order.Ring.Nat
import Chatroom.Lib.Pool

/-!
# Programs watched by an automaton

An automaton reads the commands of a program as they are called. `Watched` is the weakest precondition for that: in
each state of the automaton only certain commands and exceptions may come. It is proved once for a program, and what
is left of the program at any time is watched from the state that the automaton is in then.

With a number for a state that says how much the program still has to give (`Owes`), what the tasks and the threads
of a pool owe together is balanced against what the steps of the pool give (`Pool.owes_step`).
-/

namespace Chatroom.Lib

/-- An automaton over the commands of a program. -/
structure Watch {C : Type} (A : C → Type) (ε S : Type) where
  /-- the commands that may be called in a state -/
  allowed : C → S → Prop
  /-- the state after a command -/
  next : C → S → S
  /-- the answers that are considered -/
  answers : (c : C) → A c → Prop
  /-- the exceptions that may be thrown in a state -/
  thrown : ε → S → Prop

namespace Program

variable {C : Type} {A : C → Type} {ε S α β : Type} (W : Watch A ε S)

/-- The automaton comes to no command and no exception that it does not allow, and `post` holds of what is returned
and of the state in which it is returned. -/
def Watched : Program A ε α → S → (α → S → Prop) → Prop
  | ret a, s, post => post a s
  | throw e, s, _ => W.thrown e s
  | call c next, s, post => W.allowed c s ∧ ∀ a, W.answers c a → (next a).Watched (W.next c s) post

section Watched

variable {W} {s : S} {post : α → S → Prop}

@[simp] theorem watched_ret {a : α} : (ret a : Program A ε α).Watched W s post ↔ post a s := .rfl

@[simp] theorem watched_throw {e : ε} : (throw e : Program A ε α).Watched W s post ↔ W.thrown e s := .rfl

@[simp] theorem watched_call {c : C} {next : A c → Program A ε α} : (call c next).Watched W s post ↔
    W.allowed c s ∧ ∀ a, W.answers c a → (next a).Watched W (W.next c s) post := .rfl

@[simp] theorem watched_perform {c : C} {post : A c → S → Prop} : (perform c : Program A ε (A c)).Watched W s post ↔
    W.allowed c s ∧ ∀ a, W.answers c a → post a (W.next c s) := .rfl

@[simp] theorem watched_bind {p : Program A ε α} {f : α → Program A ε β} {post : β → S → Prop} :
    (p >>= f).Watched W s post ↔ p.Watched W s fun a t => (f a).Watched W t post := by
  induction p generalizing s with
  | ret a => rfl
  | throw e => rfl
  | call c next ih => exact and_congr_right fun _ => forall_congr' fun a => imp_congr_right fun _ => ih a

@[simp] theorem watched_ite {b : Prop} [Decidable b] {p q : Program A ε α} :
    (if b then p else q).Watched W s post ↔ (b → p.Watched W s post) ∧ (¬b → q.Watched W s post) := by
  by_cases h : b <;> simp [h]

theorem Watched.mono {p : Program A ε α} {post' : α → S → Prop} (h : p.Watched W s post)
    (hpost : ∀ a t, post a t → post' a t) : p.Watched W s post' := by
  induction p generalizing s with
  | ret a => exact hpost a s h
  | throw e => exact h
  | call c next ih => exact ⟨h.1, fun a ha => ih a (h.2 a ha)⟩

/-- Commands that leave the automaton where it is. -/
theorem watched_of_safe {p : Program A ε α} {P : C → Prop} {Q : α → Prop} (h : p.Safe P W.answers Q)
    (hP : ∀ c, P c → W.allowed c s ∧ W.next c s = s) (hthrown : ∀ e, W.thrown e s) (hpost : ∀ a, Q a → post a s) :
    p.Watched W s post := by
  induction p with
  | ret a => exact hpost a h
  | throw e => exact hthrown e
  | call c next ih =>
    obtain ⟨hallowed, hnext⟩ := hP c h.1
    refine ⟨hallowed, fun a ha => ?_⟩
    rw [hnext]
    exact ih a (h.2 a ha)

end Watched

/-! ## What a program still has to give -/

variable (f : C → ℕ)

/-- A command gives `f c`; no more may be given than is owed, and all of it is given in the end. -/
def debt : Watch A ε ℕ := ⟨fun c n => f c ≤ n, fun c n => n - f c, fun _ _ => True, fun _ n => n = 0⟩

section

variable {c : C} {n : ℕ}

@[simp] theorem debt_allowed : (debt f : Watch A ε ℕ).allowed c n ↔ f c ≤ n := .rfl

@[simp] theorem debt_next : (debt f : Watch A ε ℕ).next c n = n - f c := rfl

@[simp] theorem debt_answers {a : A c} : (debt f : Watch A ε ℕ).answers c a := trivial

@[simp] theorem debt_thrown {e : ε} : (debt f : Watch A ε ℕ).thrown e n ↔ n = 0 := .rfl

end

/-- Whatever it is answered, the commands that the program calls give `n` in all. -/
def Owes (p : Program A ε α) (n : ℕ) : Prop := p.Watched (debt f) n fun _ m => m = 0

variable {f}

theorem owes_zero_of_safe {p : Program A ε α} {post : α → Prop}
    (h : p.Safe (fun c => f c = 0) (fun _ _ => True) post) : p.Owes f 0 := by
  refine watched_of_safe h (fun c hc => ?_) (fun _ => rfl) fun _ _ => rfl
  exact ⟨hc.le, Nat.zero_sub _⟩

theorem Owes.eq_zero {p : Program A ε α} {n : ℕ} (h : p.Owes f n) (hp : ∀ c next, p ≠ .call c next) : n = 0 := by
  cases p with
  | ret a => exact h
  | throw e => exact h
  | call c next => exact absurd rfl (hp c next)

end Program

/-! ## What a pool owes -/

namespace Pool

open Program

variable {C : Type} {A : C → Type} {ε σ ℓ : Type} (f : C → ℕ)

/-- What threads owe together. -/
inductive Owing : List (Thread A ε ℓ) → ℕ → Prop
  | nil : Owing [] 0
  | cons {th : Thread A ε ℓ} {ths : List (Thread A ε ℓ)} {n m : ℕ} :
      th.rest.Owes f n → Owing ths m → Owing (th :: ths) (n + m)

variable {f}

theorem owing_cons {th : Thread A ε ℓ} {ths : List (Thread A ε ℓ)} {k : ℕ} (h : Owing f (th :: ths) k) :
    ∃ n m, th.rest.Owes f n ∧ Owing f ths m ∧ k = n + m := by
  cases h with
  | cons hth hths => exact ⟨_, _, hth, hths, rfl⟩

theorem Owing.perm {ths ths' : List (Thread A ε ℓ)} (hperm : ths.Perm ths') {n : ℕ} (h : Owing f ths n) :
    Owing f ths' n := by
  induction hperm generalizing n with
  | nil => exact h
  | cons th _ ih =>
    obtain ⟨n, m, hth, hths, rfl⟩ := owing_cons h
    exact .cons hth (ih hths)
  | swap th th' ths =>
    obtain ⟨n, k, hth, hrest, rfl⟩ := owing_cons h
    obtain ⟨n', m, hth', hths, rfl⟩ := owing_cons hrest
    rw [Nat.add_left_comm]
    exact .cons hth' (.cons hth hths)
  | trans _ _ ih ih' => exact ih' (ih h)

variable (f) (demand : ℓ → ℕ) (ok : ℓ → Prop)

/-- The tasks of the queue, which are all `ok`, and the threads owe `n` together. -/
def Owes (s : Pool A ε σ ℓ) (n : ℕ) : Prop :=
  (∀ t ∈ s.queue, ok t.1) ∧ ∃ m, Owing f s.threads m ∧ n = (s.queue.map fun t => demand t.1).sum + m

/-- The task that comes with an action. -/
def Action.task : Action ℓ → List ℓ
  | .enqueue task => [task]
  | .spawn task => [task]
  | _ => []

variable {f demand ok} {body : ℓ → Program A ε Unit} {exec : (c : C) → σ → A c × σ}

theorem owes_start (n : ℕ) (s : σ) : (start n s : Pool A ε σ ℓ).Owes f demand ok 0 := by
  refine ⟨by simp [start], 0, ?_, by simp [start]⟩
  rw [threads_start]
  exact .nil

/-- **Nothing is lost**: what is owed after a step and what the step gives is what was owed before, and what comes
in. -/
theorem owes_step (hbody : ∀ task, ok task → (body task).Owes f (demand task)) {s t : Pool A ε σ ℓ} {a : Action ℓ}
    (hst : step body exec s a = some t) (hok : ∀ task ∈ a.task, ok task) {n : ℕ} (h : s.Owes f demand ok n) :
    ∃ m, t.Owes f demand ok m ∧ m + ((s.performed a).map f).sum = n + (a.task.map demand).sum := by
  obtain ⟨hqueue, k, howing, rfl⟩ := h
  cases takes_of_step body exec hst with
  | enqueue task hshared hthreads hq =>
    refine ⟨((t.queue.map fun t => demand t.1).sum + k), ⟨fun x hx => ?_, k, hthreads ▸ howing, rfl⟩, ?_⟩
    · rw [hq, List.mem_append, List.mem_singleton] at hx
      rcases hx with hx | rfl
      · exact hqueue x hx
      · exact hok task (List.mem_singleton_self _)
    · simp [hq, performed, Action.task]
      omega
  | dequeue i j task hshared hthreads hq =>
    have htask : ok task := hqueue (task, j) (hq ▸ List.mem_cons_self ..)
    refine ⟨_, ⟨fun x hx => hqueue x (hq ▸ List.mem_cons_of_mem _ hx), _,
      (Owing.cons (hbody task htask) howing).perm hthreads.symm, rfl⟩, ?_⟩
    simp [hq, performed, Action.task]
    omega
  | spawn task hshared hthreads hq =>
    refine ⟨_, ⟨hq ▸ hqueue, _, (Owing.cons (hbody task (hok task (List.mem_singleton_self _))) howing).perm
      hthreads.symm, rfl⟩, ?_⟩
    simp [hq, performed, Action.task]
    omega
  | call th others c next hth hrest hthreads hthreads' hshared hq =>
    obtain ⟨n, m, howes, hothers, rfl⟩ := owing_cons (howing.perm hthreads)
    rw [hrest] at howes
    obtain ⟨hle, hnext⟩ := howes
    have hle : f c ≤ n := hle
    have hth' : ({ th with rest := next (exec c s.shared).1 } : Thread A ε ℓ).rest.Owes f (n - f c) :=
      hnext _ trivial
    have htask : a.task = [] := by
      cases a with
      | enqueue | spawn => cases hth
      | _ => rfl
    refine ⟨_, ⟨hq ▸ hqueue, _, (Owing.cons hth' hothers).perm hthreads'.symm, rfl⟩, ?_⟩
    rw [performed_of_call hth hrest, htask, hq]
    simp only [List.map_cons, List.map_nil, List.sum_cons, List.sum_nil]
    omega
  | finish th others hth hrest hthreads hthreads' hshared hq =>
    obtain ⟨n, m, howes, hothers, rfl⟩ := owing_cons (howing.perm hthreads)
    obtain rfl := howes.eq_zero hrest
    have htask : a.task = [] := by
      cases a with
      | enqueue | spawn => cases hth
      | _ => rfl
    refine ⟨_, ⟨hq ▸ hqueue, _, hothers.perm hthreads'.symm, rfl⟩, ?_⟩
    rw [performed_of_not_call hth hrest, htask, hq]
    simp only [List.map_nil, List.sum_nil]
    omega

/-! ## What is owed can be given -/

end Pool

end Chatroom.Lib
