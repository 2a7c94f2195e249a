import Mathlib.Algebra.GroupWithZero.Nat
import Mathlib.Data.List.Enum
import Mathlib.Data.List.Nodup
import Chatroom.Lib.Machine

/-!
# `threadpool`

The worker loop and the destructor (`threadpool.cc`) and `enqueue` (`threadpool.h`). A step is what one thread
does in one critical section or in one call on the condition variable: `enqueue` emplaces under the lock and
calls `notify_one` after it has given the lock back, a worker evaluates the predicate of `wait` under the lock
and blocks, returns or takes the front of the queue, the destructor sets `stop`, notifies all and joins one
worker after the other. A blocked worker may also wake up without a notification.

A task carries its number in the order of arrival. `runs_once` says what holds in every reachable state: tasks
are taken in that order, nobody runs a task twice and none is lost, and while a task is queued somebody is on
the way to it.
-/

namespace Chatroom

open Lib

namespace Threadpool

inductive Worker (α : Type) where
  /-- at the top of the loop, before it takes the lock -/
  | entering
  /-- blocked in `wait` -/
  | waiting
  /-- unblocked, before it has the lock again -/
  | woken
  | running (task : α × ℕ)
  /-- the thread function has returned -/
  | returned

inductive Destructor where
  | alive
  /-- `stop` is set, `notify_all` not yet called -/
  | stopping
  /-- the next thread to join -/
  | joining (i : ℕ)

end Threadpool

structure Threadpool (α : Type) where
  workers : List (Threadpool.Worker α)
  tasks : List (α × ℕ)
  stop : Bool
  /-- the calls of `enqueue` between their unlock and their `notify_one` -/
  notifying : ℕ
  destructor : Threadpool.Destructor
  /-- the tasks that were emplaced, in the order of their calls -/
  accepted : List α
  /-- the tasks of the calls that threw -/
  refused : List α
  started : List (α × ℕ)
  finished : List (α × ℕ)

namespace Threadpool

variable {α : Type}

inductive Action (α : Type) where
  /-- the locked part of `enqueue` -/
  | enqueue (task : α)
  /-- `notify_one`, with the worker that it unblocks -/
  | notifyOne (target : Option ℕ)
  /-- worker `i` takes the lock and evaluates the predicate -/
  | check (i : ℕ)
  /-- worker `i` returns from its task -/
  | finish (i : ℕ)
  /-- worker `i` wakes up without a notification -/
  | wakeUp (i : ℕ)
  | setStop
  | notifyAll
  | join

/-- The constructor with `n` threads. -/
def init (n : ℕ) : Threadpool α where
  workers := List.replicate n .entering
  tasks := []
  stop := false
  notifying := 0
  destructor := .alive
  accepted := []
  refused := []
  started := []
  finished := []

def Worker.isWaiting : Worker α → Bool
  | .waiting => true
  | _ => false

def enqueue (s : Threadpool α) (task : α) : Threadpool α :=
  if s.stop then { s with refused := s.refused ++ [task] }
  else { s with
    tasks := s.tasks ++ [(task, s.accepted.length)]
    accepted := s.accepted ++ [task]
    notifying := s.notifying + 1 }

/-- The locked part of the worker loop, from the evaluation of the predicate on. -/
def check (s : Threadpool α) (i : ℕ) : Threadpool α :=
  if s.stop || !s.tasks.isEmpty then
    match s.tasks with
    | [] => { s with workers := s.workers.set i .returned }
    | task :: tasks => { s with
        tasks, workers := s.workers.set i (.running task), started := s.started ++ [task] }
  else { s with workers := s.workers.set i .waiting }

def step (s : Threadpool α) : Action α → Option (Threadpool α)
  | .enqueue task => some (s.enqueue task)
  | .notifyOne target =>
    match s.notifying, target with
    | 0, _ => none
    | k + 1, none => if s.workers.any Worker.isWaiting then none else some { s with notifying := k }
    | k + 1, some i =>
      match s.workers[i]? with
      | some .waiting => some { s with workers := s.workers.set i .woken, notifying := k }
      | _ => none
  | .check i =>
    match s.workers[i]? with
    | some .entering => some (s.check i)
    | some .woken => some (s.check i)
    | _ => none
  | .finish i =>
    match s.workers[i]? with
    | some (.running task) =>
      some { s with workers := s.workers.set i .entering, finished := s.finished ++ [task] }
    | _ => none
  | .wakeUp i =>
    match s.workers[i]? with
    | some .waiting => some { s with workers := s.workers.set i .woken }
    | _ => none
  | .setStop =>
    match s.destructor with
    | .alive => some { s with stop := true, destructor := .stopping }
    | _ => none
  | .notifyAll =>
    match s.destructor with
    | .stopping => some { s with
        workers := s.workers.map fun w => if w.isWaiting then .woken else w
        destructor := .joining 0 }
    | _ => none
  | .join =>
    match s.destructor with
    | .joining i =>
      match s.workers[i]? with
      | some .returned => some { s with destructor := .joining (i + 1) }
      | _ => none
    | _ => none

end Threadpool

def threadpool (α : Type) : Machine (Threadpool α) (Threadpool.Action α) := ⟨Threadpool.step⟩

namespace Threadpool

variable {α : Type}

/-! ## What a step does -/

/-- The successors of a state, with the place of the worker that moves. -/
inductive Moves (s : Threadpool α) : Action α → Threadpool α → Prop where
  | refuse (task : α) : s.stop = true → Moves s (.enqueue task) { s with refused := s.refused ++ [task] }
  | accept (task : α) : s.stop = false → Moves s (.enqueue task) { s with
      tasks := s.tasks ++ [(task, s.accepted.length)]
      accepted := s.accepted ++ [task]
      notifying := s.notifying + 1 }
  | notifyNone (k : ℕ) : s.notifying = k + 1 → (∀ w ∈ s.workers, w ≠ .waiting) →
      Moves s (.notifyOne none) { s with notifying := k }
  | notifyOne (i k : ℕ) (p q : List (Worker α)) : s.notifying = k + 1 → s.workers = p ++ .waiting :: q →
      Moves s (.notifyOne (some i)) { s with workers := p ++ .woken :: q, notifying := k }
  | block (i : ℕ) (w : Worker α) (p q : List (Worker α)) : s.workers = p ++ w :: q →
      w = .entering ∨ w = .woken → s.stop = false → s.tasks = [] →
      Moves s (.check i) { s with workers := p ++ .waiting :: q }
  | leave (i : ℕ) (w : Worker α) (p q : List (Worker α)) : s.workers = p ++ w :: q →
      w = .entering ∨ w = .woken → s.stop = true → s.tasks = [] →
      Moves s (.check i) { s with workers := p ++ .returned :: q }
  | take (i : ℕ) (w : Worker α) (p q : List (Worker α)) (task : α × ℕ) (tasks : List (α × ℕ)) :
      s.workers = p ++ w :: q → w = .entering ∨ w = .woken → s.tasks = task :: tasks →
      Moves s (.check i) { s with
        tasks, workers := p ++ .running task :: q, started := s.started ++ [task] }
  | finish (i : ℕ) (p q : List (Worker α)) (task : α × ℕ) : s.workers = p ++ .running task :: q →
      Moves s (.finish i) { s with workers := p ++ .entering :: q, finished := s.finished ++ [task] }
  | wakeUp (i : ℕ) (p q : List (Worker α)) : s.workers = p ++ .waiting :: q →
      Moves s (.wakeUp i) { s with workers := p ++ .woken :: q }
  | setStop : s.destructor = .alive → Moves s .setStop { s with stop := true, destructor := .stopping }
  | notifyAll : s.destructor = .stopping → Moves s .notifyAll { s with
      workers := s.workers.map fun w => if w.isWaiting then .woken else w
      destructor := .joining 0 }
  | join (i : ℕ) : s.destructor = .joining i → s.workers[i]? = some .returned →
      Moves s .join { s with destructor := .joining (i + 1) }

theorem exists_workers_set {s : Threadpool α} {i : ℕ} {w : Worker α} (h : s.workers[i]? = some w) :
    ∃ p q, s.workers = p ++ w :: q ∧ ∀ w', s.workers.set i w' = p ++ w' :: q := by
  obtain ⟨hi, rfl⟩ := List.getElem?_eq_some_iff.1 h
  refine ⟨s.workers.take i, s.workers.drop (i + 1), ?_, fun w' => ?_⟩
  · rw [← List.drop_eq_getElem_cons hi, List.take_append_drop]
  · rw [List.set_eq_take_append_cons_drop, if_pos hi]

theorem moves_check {s : Threadpool α} {i : ℕ} {w : Worker α} (h : s.workers[i]? = some w)
    (hw : w = .entering ∨ w = .woken) : Moves s (.check i) (s.check i) := by
  obtain ⟨p, q, hpq, hset⟩ := exists_workers_set h
  unfold check
  split
  · rename_i hpred
    split
    · rename_i htasks
      have hstop : s.stop = true := by simpa [htasks] using hpred
      rw [hset]
      exact .leave i w p q hpq hw hstop htasks
    · rename_i task tasks htasks
      rw [hset]
      exact .take i w p q task tasks hpq hw htasks
  · rename_i hpred
    simp only [Bool.or_eq_true, not_or, Bool.not_eq_true, Bool.not_eq_false', List.isEmpty_iff] at hpred
    rw [hset]
    exact .block i w p q hpq hw hpred.1 hpred.2

/-- **What a step does.** -/
theorem moves_of_step {s t : Threadpool α} {a : Action α} (h : (threadpool α).step s a = some t) :
    Moves s a t := by
  cases a with
  | enqueue task =>
    obtain rfl := Option.some.inj h
    unfold enqueue
    split
    · exact .refuse task (by assumption)
    · exact .accept task (by simpa using ‹¬ s.stop = true›)
  | notifyOne target =>
    simp only [threadpool, step] at h
    split at h
    · cases h
    · rename_i k hk
      split at h
      · cases h
      · rename_i hany
        obtain rfl := Option.some.inj h
        refine .notifyNone k hk fun w hw he => hany ?_
        exact List.any_eq_true.2 ⟨w, hw, by rw [he]; rfl⟩
    · rename_i k i hk
      split at h
      · rename_i hw
        obtain rfl := Option.some.inj h
        obtain ⟨p, q, hpq, hset⟩ := exists_workers_set hw
        rw [hset]
        exact .notifyOne i k p q hk hpq
      · cases h
  | check i =>
    simp only [threadpool, step] at h
    split at h
    · rename_i hw
      obtain rfl := Option.some.inj h
      exact moves_check hw (.inl rfl)
    · rename_i hw
      obtain rfl := Option.some.inj h
      exact moves_check hw (.inr rfl)
    · cases h
  | finish i =>
    simp only [threadpool, step] at h
    split at h
    · rename_i task hw
      obtain rfl := Option.some.inj h
      obtain ⟨p, q, hpq, hset⟩ := exists_workers_set hw
      rw [hset]
      exact .finish i p q task hpq
    · cases h
  | wakeUp i =>
    simp only [threadpool, step] at h
    split at h
    · rename_i hw
      obtain rfl := Option.some.inj h
      obtain ⟨p, q, hpq, hset⟩ := exists_workers_set hw
      rw [hset]
      exact .wakeUp i p q hpq
    · cases h
  | setStop =>
    simp only [threadpool, step] at h
    split at h
    · rename_i hd
      obtain rfl := Option.some.inj h
      exact .setStop hd
    · cases h
  | notifyAll =>
    simp only [threadpool, step] at h
    split at h
    · rename_i hd
      obtain rfl := Option.some.inj h
      exact .notifyAll hd
    · cases h
  | join =>
    simp only [threadpool, step] at h
    split at h
    · rename_i i hd
      split at h
      · rename_i hw
        obtain rfl := Option.some.inj h
        exact .join i hd hw
      · cases h
    · cases h

/-! ## The invariant -/

def Worker.task : Worker α → List (α × ℕ)
  | .running task => [task]
  | _ => []

/-- The tasks that the workers are running. -/
def running (s : Threadpool α) : List (α × ℕ) := s.workers.flatMap Worker.task

theorem running_eq {s : Threadpool α} {p q : List (Worker α)} {w : Worker α} (h : s.workers = p ++ w :: q) :
    s.running = p.flatMap Worker.task ++ (w.task ++ q.flatMap Worker.task) := by
  rw [running, h, List.flatMap_append, List.flatMap_cons]

theorem task_of_unblocked {w : Worker α} (h : w = .entering ∨ w = .woken) : w.task = [] := by
  obtain rfl | rfl := h <;> rfl

theorem ne_returned_of_unblocked {w : Worker α} (h : w = .entering ∨ w = .woken) : w ≠ .returned := by
  obtain rfl | rfl := h <;> exact fun h => by cases h

structure Inv (n : ℕ) (s : Threadpool α) : Prop where
  size : s.workers.length = n
  order : s.started ++ s.tasks = s.accepted.zipIdx
  held : (s.finished ++ s.running).Perm s.started
  /-- a queued task has a notification or a worker on the way -/
  awake : s.tasks ≠ [] → 0 < s.notifying ∨ ∃ w ∈ s.workers, w ≠ .waiting
  left : ∀ w ∈ s.workers, w = .returned → s.stop = true ∧ s.tasks = []
  stopped : s.stop = false → s.destructor = .alive
  /-- once all are notified nobody blocks any more -/
  roused : ∀ i, s.destructor = .joining i → ∀ w ∈ s.workers, w ≠ .waiting
  joined : ∀ i, s.destructor = .joining i → i ≤ n ∧ ∀ w ∈ s.workers.take i, w = .returned

theorem inv_init (n : ℕ) : Inv n (init n : Threadpool α) where
  size := List.length_replicate
  order := rfl
  held := by
    have hnil : (List.replicate n Worker.entering).flatMap Worker.task = ([] : List (α × ℕ)) := by
      rw [List.flatMap_eq_nil_iff]
      rintro w hw
      rw [List.eq_of_mem_replicate hw]
      rfl
    simp only [init, running, hnil]
    exact .refl _
  awake h := absurd rfl h
  left w hw he := by
    rw [List.eq_of_mem_replicate hw] at he
    cases he
  stopped _ := rfl
  roused _ h := by cases h
  joined _ h := by cases h

/-- A move between two places with the same task. -/
theorem Inv.held_set {n : ℕ} {s t : Threadpool α} (h : Inv n s) {p q : List (Worker α)} {w w' : Worker α}
    (hs : s.workers = p ++ w :: q) (ht : t.workers = p ++ w' :: q) (htask : w'.task = w.task) :
    (s.finished ++ t.running).Perm s.started := by
  rw [running_eq ht, htask, ← running_eq hs]
  exact h.held

/-- The workers that are joined do not move. -/
theorem joined_set {p q : List (Worker α)} {w w' : Worker α} (hw : w ≠ .returned) {i : ℕ}
    (h : ∀ x ∈ (p ++ w :: q).take i, x = .returned) : ∀ x ∈ (p ++ w' :: q).take i, x = .returned := by
  have hi : i ≤ p.length := by
    by_contra hlt
    refine hw (h w ?_)
    rw [List.take_append, List.mem_append]
    right
    rw [show i - p.length = (i - p.length - 1) + 1 by omega, List.take_succ_cons]
    exact List.mem_cons_self
  rw [List.take_append_of_le_length hi] at h ⊢
  exact h

/-- What is left to show when one worker moves: it was not one that had returned, and the new place of it keeps
the invariant. -/
theorem Inv.set_worker {n : ℕ} {s t : Threadpool α} (h : Inv n s) {p q : List (Worker α)} {w w' : Worker α}
    (hs : s.workers = p ++ w :: q) (ht : t.workers = p ++ w' :: q) (hw : w ≠ .returned)
    (hstop : t.stop = s.stop) (hdtor : t.destructor = s.destructor)
    (order : t.started ++ t.tasks = t.accepted.zipIdx)
    (held : (t.finished ++ t.running).Perm t.started)
    (awake : t.tasks ≠ [] → 0 < t.notifying ∨ w' ≠ .waiting)
    (left : (s.tasks = [] → t.tasks = []) ∧ (w' = .returned → t.stop = true ∧ t.tasks = []))
    (blocks : w' = .waiting → s.stop = false) : Inv n t where
  size := by
    have := h.size
    rw [hs] at this
    rw [ht]
    simpa using this
  order := order
  held := held
  awake htasks := by
    obtain hn | hw' := awake htasks
    · exact .inl hn
    · exact .inr ⟨w', by rw [ht]; simp, hw'⟩
  left x hx he := by
    rw [ht] at hx
    by_cases hx' : x = w'
    · exact left.2 (hx' ▸ he)
    · have hmem : x ∈ s.workers := by
        rw [hs]
        simp only [List.mem_append, List.mem_cons] at hx ⊢
        grind
      obtain ⟨h₁, h₂⟩ := h.left x hmem he
      exact ⟨hstop ▸ h₁, left.1 h₂⟩
  stopped hf := by
    rw [hdtor]
    exact h.stopped (hstop ▸ hf)
  roused i hi x hx := by
    rw [hdtor] at hi
    rw [ht] at hx
    by_cases hx' : x = w'
    · intro he
      have := h.stopped (blocks (hx' ▸ he))
      rw [hi] at this
      cases this
    · refine h.roused i hi x ?_
      rw [hs]
      simp only [List.mem_append, List.mem_cons] at hx ⊢
      grind
  joined i hi := by
    rw [hdtor] at hi
    obtain ⟨h₁, h₂⟩ := h.joined i hi
    rw [hs] at h₂
    rw [ht]
    exact ⟨h₁, joined_set hw h₂⟩

theorem ne_waiting_of_mem_roused {ws : List (Worker α)} {w : Worker α}
    (hw : w ∈ ws.map fun w => if w.isWaiting then .woken else w) : w ≠ .waiting := by
  rintro rfl
  obtain ⟨w, -, he⟩ := List.mem_map.1 hw
  cases w <;> cases he

/-- `notify_all` takes no task from a worker. -/
theorem flatMap_task_roused (ws : List (Worker α)) :
    (ws.map fun w => if w.isWaiting then .woken else w).flatMap Worker.task = ws.flatMap Worker.task := by
  rw [List.flatMap_map]
  refine List.flatMap_congr fun w _ => ?_
  cases w <;> rfl

theorem Inv.notifyAll {n : ℕ} (hn : 0 < n) {s : Threadpool α} (h : Inv n s) (hd : s.destructor = .stopping) :
    Inv n { s with workers := s.workers.map fun w => if w.isWaiting then .woken else w, destructor := .joining 0 } where
  size := by simpa using h.size
  order := h.order
  held := by
    rw [running, flatMap_task_roused]
    exact h.held
  awake _ := by
    obtain ⟨w, hw⟩ := List.exists_mem_of_length_pos (h.size ▸ hn)
    have hmem := List.mem_map_of_mem (f := fun w => if w.isWaiting then Worker.woken else w) hw
    exact .inr ⟨_, hmem, ne_waiting_of_mem_roused hmem⟩
  left w hw he := by
    subst he
    obtain ⟨w, hw, he⟩ := List.mem_map.1 hw
    refine h.left w hw ?_
    cases w <;> first | rfl | cases he
  stopped hf := by
    rw [h.stopped hf] at hd
    cases hd
  roused _ _ _ hw := ne_waiting_of_mem_roused hw
  joined := by
    rintro i ⟨⟩
    exact ⟨Nat.zero_le n, by simp⟩

theorem Inv.join {n : ℕ} {s : Threadpool α} (h : Inv n s) {i : ℕ} (hd : s.destructor = .joining i)
    (hw : s.workers[i]? = some .returned) : Inv n { s with destructor := .joining (i + 1) } := by
  refine { h with
    stopped := fun hf => by rw [h.stopped hf] at hd; cases hd
    roused := fun _ _ => h.roused i hd
    joined := ?_ }
  rintro j ⟨⟩
  obtain ⟨hi, hw'⟩ := List.getElem?_eq_some_iff.1 hw
  refine ⟨h.size ▸ hi, fun w hmem => ?_⟩
  rw [List.take_succ_eq_append_getElem hi, List.mem_append, List.mem_singleton] at hmem
  obtain hmem | rfl := hmem
  · exact (h.joined i hd).2 w hmem
  · exact hw'

theorem Inv.moves {n : ℕ} (hn : 0 < n) {s t : Threadpool α} {a : Action α} (h : Inv n s) (hm : Moves s a t) :
    Inv n t := by
  cases hm with
  | refuse task hstop => exact { h with }
  | accept task hstop =>
    refine { h with
      order := ?_
      awake := fun _ => .inl (Nat.succ_pos _)
      left := fun w hw he => ?_ }
    · rw [List.zipIdx_append, ← List.append_assoc, h.order]
      simp
    · rw [(h.left w hw he).1] at hstop
      cases hstop
  | notifyNone k hk hnone =>
    refine { h with awake := fun _ => .inr ?_ }
    obtain ⟨w, hw⟩ := List.exists_mem_of_length_pos (h.size ▸ hn)
    exact ⟨w, hw, hnone w hw⟩
  | notifyOne i k p q hk hs =>
    exact h.set_worker hs rfl (by simp) rfl rfl h.order (h.held_set hs rfl rfl) (fun _ => .inr (by simp))
      ⟨id, by simp⟩ (by simp)
  | block i w p q hs hw hstop htasks =>
    exact h.set_worker hs rfl (ne_returned_of_unblocked hw) rfl rfl h.order
      (h.held_set hs rfl (task_of_unblocked hw).symm) (fun hne => absurd htasks hne) ⟨id, by simp⟩
      (fun _ => hstop)
  | leave i w p q hs hw hstop htasks =>
    exact h.set_worker hs rfl (ne_returned_of_unblocked hw) rfl rfl h.order
      (h.held_set hs rfl (task_of_unblocked hw).symm) (fun hne => absurd htasks hne)
      ⟨id, fun _ => ⟨hstop, htasks⟩⟩ (by simp)
  | take i w p q task tasks hs hw htasks =>
    refine h.set_worker hs rfl (ne_returned_of_unblocked hw) rfl rfl ?_ ?_ (fun _ => .inr (by simp))
      ⟨fun he => ?_, by simp⟩ (by simp)
    · rw [List.append_assoc, List.singleton_append, ← htasks]
      exact h.order
    · have hheld := h.held
      rw [running_eq hs, task_of_unblocked hw, List.nil_append, ← List.append_assoc] at hheld
      rw [running_eq rfl, ← List.append_assoc]
      exact (List.perm_middle.trans (hheld.cons task)).trans (List.perm_append_singleton task s.started).symm
    · rw [htasks] at he
      cases he
  | finish i p q task hs =>
    refine h.set_worker hs rfl (by simp) rfl rfl h.order ?_ (fun _ => .inr (by simp)) ⟨id, by simp⟩ (by simp)
    have hheld := h.held
    rw [running_eq hs] at hheld
    have hmid : (task :: (p.flatMap Worker.task ++ q.flatMap Worker.task)).Perm
        (p.flatMap Worker.task ++ task :: q.flatMap Worker.task) := List.perm_middle.symm
    rw [running_eq rfl, List.append_assoc]
    exact (hmid.append_left s.finished).trans hheld
  | wakeUp i p q hs =>
    exact h.set_worker hs rfl (by simp) rfl rfl h.order (h.held_set hs rfl rfl) (fun _ => .inr (by simp))
      ⟨id, by simp⟩ (by simp)
  | setStop hd =>
    refine { h with
      left := fun w hw he => ⟨rfl, (h.left w hw he).2⟩
      stopped := fun hf => by cases hf
      roused := fun i hi => by cases hi
      joined := fun i hi => by cases hi }
  | notifyAll hd => exact h.notifyAll hn hd
  | join i hd hw => exact h.join hd hw

/-! ## Once for each task -/

section Facts

variable {n : ℕ} {s : Threadpool α}

/-- Nobody runs a task, and none is queued: all that were accepted have been run. -/
theorem Inv.finished_perm (h : Inv n s) (htasks : s.tasks = []) (hidle : ∀ w ∈ s.workers, w.task = []) :
    s.finished.Perm s.accepted.zipIdx := by
  have hheld := h.held
  have hrunning : s.running = [] := List.flatMap_eq_nil_iff.2 hidle
  rw [hrunning, List.append_nil] at hheld
  rw [← h.order, htasks, List.append_nil]
  exact hheld

theorem Inv.nodup (h : Inv n s) : (s.finished ++ s.running).Nodup := by
  have hz : s.accepted.zipIdx.Nodup := by
    refine List.Nodup.of_map Prod.snd ?_
    rw [List.zipIdx_map_snd]
    exact List.nodup_range'
  rw [← h.order] at hz
  exact h.held.nodup_iff.2 (List.nodup_append.1 hz).1

/-- When all are joined, all have returned. -/
theorem Inv.finished_of_joined (hn : 0 < n) (h : Inv n s) (hd : s.destructor = .joining n) :
    s.finished.Perm s.accepted.zipIdx := by
  have hall : ∀ w ∈ s.workers, w = .returned := by
    have := (h.joined n hd).2
    rwa [List.take_of_length_le (Nat.le_of_eq h.size)] at this
  obtain ⟨w, hw⟩ := List.exists_mem_of_length_pos (h.size ▸ hn)
  refine h.finished_perm (h.left w hw (hall w hw)).2 fun w hw => ?_
  rw [hall w hw]
  rfl

/-- No task is queued with every worker blocked and no notification to come. -/
theorem Inv.not_lost (h : Inv n s) :
    ¬ (s.tasks ≠ [] ∧ (∀ w ∈ s.workers, w = .waiting) ∧ s.notifying = 0) := by
  rintro ⟨htasks, hblocked, hnone⟩
  obtain hn | ⟨w, hw, hne⟩ := h.awake htasks
  · omega
  · exact hne (hblocked w hw)

theorem stopped_of_moves {t : Threadpool α} {a : Action α} (hm : Moves s a t) (hstop : s.stop = true) :
    t.stop = true ∧ t.accepted = s.accepted := by
  cases hm with
  | accept task hf =>
    rw [hstop] at hf
    cases hf
  | setStop => exact ⟨rfl, rfl⟩
  | _ => exact ⟨hstop, rfl⟩

/-- Once `stop` is set no task is accepted. -/
theorem accepted_of_stop {l : List (Action α)} {t : Threadpool α}
    (h : (threadpool α).Run (fun _ _ => True) s l t) (hstop : s.stop = true) : t.accepted = s.accepted := by
  have hstep : ∀ u a v, True → (threadpool α).step u a = some v → u.stop = true ∧ u.accepted = s.accepted →
      v.stop = true ∧ v.accepted = s.accepted := by
    rintro u a v - hv ⟨h₁, h₂⟩
    obtain ⟨h₃, h₄⟩ := stopped_of_moves (moves_of_step hv) h₁
    exact ⟨h₃, h₄.trans h₂⟩
  exact (h.invariant hstep ⟨hstop, rfl⟩).2

end Facts

/-! ## Progress -/

/-- What the pool does by itself: no call of `enqueue`, no destruction, no spurious wakeup. -/
def Action.Internal : Action α → Prop
  | .enqueue _ | .wakeUp _ | .setStop => False
  | _ => True

def Worker.weight : Worker α → ℕ
  | .entering | .woken => 1
  | .running _ => 2
  | .waiting | .returned => 0

def Destructor.weight (n : ℕ) : Destructor → ℕ
  | .alive => 0
  | .stopping => 2 * n + 1
  | .joining i => n - i

/-- How many steps the pool can still take by itself, at most. -/
def remaining (s : Threadpool α) : ℕ :=
  3 * s.tasks.length + 2 * s.notifying + (s.workers.map Worker.weight).sum +
    s.destructor.weight s.workers.length

theorem weight_notifyAll (l : List (Worker α)) :
    ((l.map fun w => if w.isWaiting then Worker.woken else w).map Worker.weight).sum ≤
      (l.map Worker.weight).sum + l.length := by
  induction l with
  | nil => exact Nat.le_refl _
  | cons w l ih =>
    have hw : (if w.isWaiting then Worker.woken else w).weight ≤ w.weight + 1 := by
      cases w <;> simp [Worker.isWaiting, Worker.weight]
    simp only [List.map_cons, List.sum_cons, List.length_cons]
    omega

/-- Every step that the pool takes by itself brings it nearer to its end. -/
theorem remaining_lt {s t : Threadpool α} {a : Action α} (ha : a.Internal) (hm : Moves s a t) :
    t.remaining < s.remaining := by
  have hwork : ∀ {w : Worker α}, w = .entering ∨ w = .woken → w.weight = 1 := by
    rintro w (rfl | rfl) <;> rfl
  cases hm with
  | refuse | accept | wakeUp | setStop => exact ha.elim
  | notifyNone k hk _ => simp only [remaining, hk]; omega
  | notifyOne i k p q hk hs =>
    simp only [remaining, hs, hk, List.map_append, List.map_cons, List.sum_append, List.sum_cons,
      List.length_append, List.length_cons, Worker.weight]
    omega
  | block i w p q hs hw =>
    simp only [remaining, hs, List.map_append, List.map_cons, List.sum_append, List.sum_cons,
      List.length_append, List.length_cons, hwork hw]
    simp only [Worker.weight]
    omega
  | leave i w p q hs hw =>
    simp only [remaining, hs, List.map_append, List.map_cons, List.sum_append, List.sum_cons,
      List.length_append, List.length_cons, hwork hw]
    simp only [Worker.weight]
    omega
  | take i w p q task tasks hs hw htasks =>
    simp only [remaining, hs, htasks, List.map_append, List.map_cons, List.sum_append, List.sum_cons,
      List.length_append, List.length_cons, hwork hw]
    simp only [Worker.weight]
    omega
  | finish i p q task hs =>
    simp only [remaining, hs, List.map_append, List.map_cons, List.sum_append, List.sum_cons,
      List.length_append, List.length_cons, Worker.weight]
    omega
  | notifyAll hd =>
    have := weight_notifyAll s.workers
    simp only [remaining, hd, Destructor.weight, List.length_map]
    omega
  | join i hd hw =>
    obtain ⟨hi, -⟩ := List.getElem?_eq_some_iff.1 hw
    simp only [remaining, hd, Destructor.weight]
    omega

/-- Where the pool can do nothing by itself, all accepted tasks have been run, and the destructor has not begun
or has joined all workers. -/
theorem Inv.of_quiet {n : ℕ} {s : Threadpool α} (h : Inv n s)
    (hquiet : ∀ a : Action α, a.Internal → (threadpool α).step s a = none) :
    s.finished.Perm s.accepted.zipIdx ∧ (s.destructor = .alive ∨ s.destructor = .joining n) := by
  have hat : ∀ w ∈ s.workers, w = .waiting ∨ w = .returned := by
    intro w hw
    obtain ⟨i, hi⟩ := List.mem_iff_getElem?.1 hw
    have hcheck := hquiet (.check i) trivial
    have hfinish := hquiet (.finish i) trivial
    simp only [threadpool, step, hi] at hcheck hfinish
    cases w with
    | entering => cases hcheck
    | woken => cases hcheck
    | running task => cases hfinish
    | waiting => exact .inl rfl
    | returned => exact .inr rfl
  have hnotify : s.notifying = 0 := by
    by_contra hpos
    obtain ⟨k, hk⟩ := Nat.exists_eq_succ_of_ne_zero hpos
    have hnone := hquiet (.notifyOne none) trivial
    simp only [threadpool, step, hk] at hnone
    split at hnone
    · rename_i hany
      obtain ⟨w, hw, he⟩ := List.any_eq_true.1 hany
      obtain ⟨i, hi⟩ := List.mem_iff_getElem?.1 hw
      have hsome := hquiet (.notifyOne (some i)) trivial
      cases w <;> simp [threadpool, step, hk, hi, Worker.isWaiting] at hsome he
    · cases hnone
  have htasks : s.tasks = [] := by
    by_contra hne
    obtain hpos | ⟨w, hw, hw'⟩ := h.awake hne
    · omega
    · exact hne (h.left w hw ((hat w hw).resolve_left hw')).2
  refine ⟨h.finished_perm htasks fun w hw => ?_, ?_⟩
  · obtain rfl | rfl := hat w hw <;> rfl
  · cases hd : s.destructor with
    | alive => exact .inl rfl
    | stopping =>
      have := hquiet .notifyAll trivial
      simp [threadpool, step, hd] at this
    | joining i =>
      refine .inr (congrArg Destructor.joining ?_)
      by_contra hne
      have hi : i < s.workers.length := by
        have := (h.joined i hd).1
        rw [h.size]
        omega
      have hw := List.getElem_mem hi
      have hret := (hat _ hw).resolve_left (h.roused i hd _ hw)
      have := hquiet .join trivial
      simp [threadpool, step, hd, List.getElem?_eq_getElem hi, hret] at this

/-- **The pool runs every accepted task once.** In every state that a pool of at least one worker reaches: tasks
are taken in the order of their calls of `enqueue`, each that was taken is being run or has been run, once;
after the joins all accepted tasks have been run; after `stop` no task is accepted; no task is queued while all
workers are blocked and no notification is to come. What the pool does by itself ends, and then all accepted
tasks have been run. -/
theorem runs_once {n : ℕ} (hn : 0 < n) {l : List (Action α)} {s : Threadpool α}
    (h : (threadpool α).Run (fun _ _ => True) (init n) l s) :
    s.started ++ s.tasks = s.accepted.zipIdx ∧
    (s.finished ++ s.running).Nodup ∧ (s.finished ++ s.running).Perm s.started ∧
    (s.destructor = .joining n → s.finished.Perm s.accepted.zipIdx) ∧
    (∀ l' t, (threadpool α).Run (fun _ _ => True) s l' t → s.stop = true → t.accepted = s.accepted) ∧
    ¬ (s.tasks ≠ [] ∧ (∀ w ∈ s.workers, w = .waiting) ∧ s.notifying = 0) ∧
    (∀ a t, a.Internal → (threadpool α).step s a = some t → t.remaining < s.remaining) ∧
    ((∀ a : Action α, a.Internal → (threadpool α).step s a = none) →
      s.finished.Perm s.accepted.zipIdx ∧ (s.destructor = .alive ∨ s.destructor = .joining n)) := by
  have hinv : Inv n s :=
    h.invariant (fun _ _ _ _ hst hi => hi.moves hn (moves_of_step hst)) (inv_init n)
  exact ⟨hinv.order, hinv.nodup, hinv.held, hinv.finished_of_joined hn, fun _ _ => accepted_of_stop,
    hinv.not_lost, fun _ _ ha hst => remaining_lt ha (moves_of_step hst), hinv.of_quiet⟩

/-- Two workers, one of them already blocked when the task comes, and the destructor. -/
theorem runs_once_two :
    ∃ s : Threadpool Unit, s.destructor = .joining 2 ∧ s.finished.Perm [((), 0)] := by
  have hrun := Machine.run_of_exec (M := threadpool Unit) (s := init 2)
    (l := [.check 1, .enqueue (), .setStop, .check 0, .notifyOne (some 1), .notifyAll, .finish 0, .check 1,
      .check 0, .join, .join]) rfl
  exact ⟨_, rfl, (runs_once (by decide) hrun).2.2.2.1 rfl⟩

end Threadpool

end Chatroom
