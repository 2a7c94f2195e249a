import Mathlib.Data.List.Range
import Chatroom.Lib.Machine
import Chatroom.Lib.Program

/-!
# A pool of workers over one queue

Tasks are enqueued from outside; an idle worker takes the first of the queue and runs its program, one
command at a time, while other workers and the threads outside the pool (`loops`) run theirs. A task has its
number in the order of arrival, and the log says when each was taken from the queue and when it was finished.

Whatever the number of workers, tasks are taken in the order of arrival (`inOrder_of_run`), though a worker may be
overtaken between taking a task and the first command of its program. With one worker they run one after the other and
leave the state that running them to the end in that order leaves, up to what the threads outside the pool change
(`single_of_run`).
-/

namespace Chatroom.Lib

/-- What a thread was started for, and what is left of it. -/
structure Thread {C : Type} (A : C → Type) (ε ℓ : Type) where
  task : ℓ
  rest : Program A ε Unit

inductive Event where
  | taken (k : ℕ)
  | finished (k : ℕ)
  deriving DecidableEq

structure Pool {C : Type} (A : C → Type) (ε σ ℓ : Type) where
  shared : σ
  arrivals : List ℓ
  queue : List (ℓ × ℕ)
  workers : List (Option (ℕ × Thread A ε ℓ))
  loops : List (Thread A ε ℓ)
  log : List Event

namespace Pool

inductive Action (ℓ : Type) where
  | enqueue (task : ℓ)
  /-- worker `i` takes a task -/
  | dequeue (i : ℕ)
  /-- worker `i` performs a command, or returns from its task -/
  | work (i : ℕ)
  /-- a thread outside the pool comes to run `task` -/
  | spawn (task : ℓ)
  | loop (i : ℕ)

variable {C : Type} {A : C → Type} {ε σ ℓ : Type}

def start (n : ℕ) (s : σ) : Pool A ε σ ℓ := ⟨s, [], [], List.replicate n none, [], []⟩

/-- The threads that are running. -/
def threads (s : Pool A ε σ ℓ) : List (Thread A ε ℓ) :=
  (s.workers.flatMap fun w => (w.map Prod.snd).toList) ++ s.loops

@[simp] theorem threads_start (n : ℕ) (s : σ) : (start n s : Pool A ε σ ℓ).threads = [] := by
  simp [threads, start, List.flatMap_replicate]

variable (body : ℓ → Program A ε Unit) (exec : (c : C) → σ → A c × σ)

def step (s : Pool A ε σ ℓ) : Action ℓ → Option (Pool A ε σ ℓ)
  | .enqueue task =>
    some { s with arrivals := s.arrivals ++ [task], queue := s.queue ++ [(task, s.arrivals.length)] }
  | .dequeue i =>
    match s.workers[i]?, s.queue with
    | some none, (task, k) :: queue =>
      some { s with
        queue, workers := s.workers.set i (some (k, ⟨task, body task⟩)), log := s.log ++ [.taken k] }
    | _, _ => none
  | .work i =>
    match s.workers[i]? with
    | some (some (k, th)) =>
      match th.rest with
      | .call c next =>
        some { s with
          shared := (exec c s.shared).2
          workers := s.workers.set i (some (k, { th with rest := next (exec c s.shared).1 })) }
      | _ => some { s with workers := s.workers.set i none, log := s.log ++ [.finished k] }
    | _ => none
  | .spawn task => some { s with loops := s.loops ++ [⟨task, body task⟩] }
  | .loop i =>
    match s.loops[i]? with
    | some th =>
      match th.rest with
      | .call c next =>
        some { s with
          shared := (exec c s.shared).2
          loops := s.loops.set i { th with rest := next (exec c s.shared).1 } }
      | _ => none
    | none => none

def machine : Machine (Pool A ε σ ℓ) (Action ℓ) := ⟨step body exec⟩

/-! ## What a step can do -/

/-- The steps, one for each branch that has a successor. -/
inductive Steps (s : Pool A ε σ ℓ) : Action ℓ → Pool A ε σ ℓ → Prop
  | enqueue (task : ℓ) : Steps s (.enqueue task)
      { s with arrivals := s.arrivals ++ [task], queue := s.queue ++ [(task, s.arrivals.length)] }
  | dequeue {i k : ℕ} {task : ℓ} {queue : List (ℓ × ℕ)} (hidle : s.workers[i]? = some none)
      (hqueue : s.queue = (task, k) :: queue) : Steps s (.dequeue i)
      { s with
        queue, workers := s.workers.set i (some (k, ⟨task, body task⟩)), log := s.log ++ [.taken k] }
  | call {i k : ℕ} {th : Thread A ε ℓ} {c : C} {next : A c → Program A ε Unit}
      (hbusy : s.workers[i]? = some (some (k, th))) (hrest : th.rest = .call c next) : Steps s (.work i)
      { s with
        shared := (exec c s.shared).2
        workers := s.workers.set i (some (k, { th with rest := next (exec c s.shared).1 })) }
  | finish {i k : ℕ} {th : Thread A ε ℓ} (hbusy : s.workers[i]? = some (some (k, th)))
      (hrest : ∀ c next, th.rest ≠ .call c next) : Steps s (.work i)
      { s with workers := s.workers.set i none, log := s.log ++ [.finished k] }
  | spawn (task : ℓ) : Steps s (.spawn task) { s with loops := s.loops ++ [⟨task, body task⟩] }
  | loop {i : ℕ} {th : Thread A ε ℓ} {c : C} {next : A c → Program A ε Unit} (hth : s.loops[i]? = some th)
      (hrest : th.rest = .call c next) : Steps s (.loop i)
      { s with
        shared := (exec c s.shared).2
        loops := s.loops.set i { th with rest := next (exec c s.shared).1 } }

theorem steps_of_step {s t : Pool A ε σ ℓ} {a : Action ℓ} (h : step body exec s a = some t) :
    Steps body exec s a t := by
  cases a with
  | enqueue task =>
    obtain rfl := Option.some.inj h
    exact .enqueue task
  | dequeue i =>
    simp only [step] at h
    split at h
    case h_1 task k queue hidle hqueue =>
      obtain rfl := Option.some.inj h
      exact .dequeue hidle hqueue
    case h_2 => cases h
  | work i =>
    simp only [step] at h
    split at h
    case h_1 k th hbusy =>
      split at h
      case h_1 c next hrest =>
        obtain rfl := Option.some.inj h
        exact .call hbusy hrest
      case h_2 hrest =>
        obtain rfl := Option.some.inj h
        exact .finish hbusy hrest
    case h_2 => cases h
  | spawn task =>
    obtain rfl := Option.some.inj h
    exact .spawn task
  | loop i =>
    simp only [step] at h
    split at h
    case h_1 th hth =>
      split at h
      case h_1 c next hrest =>
        obtain rfl := Option.some.inj h
        exact .loop hth hrest
      case h_2 => cases h
    case h_2 => cases h

/-- What a step does to the state and to the running threads. -/
inductive Moves (s t : Pool A ε σ ℓ) : Prop where
  | enqueue (hshared : t.shared = s.shared) (hthreads : t.threads = s.threads)
  | start (task : ℓ) (hshared : t.shared = s.shared) (hthreads : t.threads.Perm (⟨task, body task⟩ :: s.threads))
  | call (th : Thread A ε ℓ) (others : List (Thread A ε ℓ)) (c : C) (next : A c → Program A ε Unit)
      (hrest : th.rest = .call c next) (hthreads : s.threads.Perm (th :: others))
      (hthreads' : t.threads.Perm ({ th with rest := next (exec c s.shared).1 } :: others))
      (hshared : t.shared = (exec c s.shared).2)
  | finish (th : Thread A ε ℓ) (others : List (Thread A ε ℓ)) (hrest : ∀ c next, th.rest ≠ .call c next)
      (hthreads : s.threads.Perm (th :: others)) (hthreads' : t.threads.Perm others)
      (hshared : t.shared = s.shared)

theorem threads_set_worker {s : Pool A ε σ ℓ} {i : ℕ} {w : Option (ℕ × Thread A ε ℓ)}
    (h : s.workers[i]? = some w) : ∃ others, s.threads.Perm ((w.map Prod.snd).toList ++ others) ∧
      ∀ w', (((s.workers.set i w').flatMap fun w => (w.map Prod.snd).toList) ++ s.loops).Perm
        ((w'.map Prod.snd).toList ++ others) := by
  obtain ⟨p, q, hpq, hset⟩ := exists_flatMap_set h fun w => (w.map Prod.snd).toList
  refine ⟨p ++ q ++ s.loops, ?_, fun w' => ?_⟩
  · rw [threads, hpq, List.append_assoc p, List.append_assoc p, List.append_assoc p, List.append_assoc]
    exact List.perm_append_comm_assoc _ _ _
  · rw [hset, List.append_assoc p, List.append_assoc p, List.append_assoc p, List.append_assoc]
    exact List.perm_append_comm_assoc _ _ _

theorem threads_set_loop {s : Pool A ε σ ℓ} {i : ℕ} {th : Thread A ε ℓ} (h : s.loops[i]? = some th) :
    ∃ others, s.threads.Perm (th :: others) ∧
      ∀ th', ((s.workers.flatMap fun w => (w.map Prod.snd).toList) ++ s.loops.set i th').Perm
        (th' :: others) := by
  obtain ⟨hi, rfl⟩ := List.getElem?_eq_some_iff.1 h
  refine ⟨(s.workers.flatMap fun w => (w.map Prod.snd).toList) ++ (s.loops.take i ++ s.loops.drop (i + 1)),
    ?_, fun th' => ?_⟩
  · have hloops : s.loops = s.loops.take i ++ s.loops[i] :: s.loops.drop (i + 1) := by
      rw [← List.drop_eq_getElem_cons hi, List.take_append_drop]
    rw [threads]
    nth_rewrite 1 [hloops]
    rw [← List.append_assoc, ← List.append_assoc]
    exact List.perm_middle
  · rw [List.set_eq_take_append_cons_drop, if_pos hi, ← List.append_assoc, ← List.append_assoc]
    exact List.perm_middle

/-- The command that a step performs, if it performs one. -/
def performed (s : Pool A ε σ ℓ) (a : Action ℓ) : List C :=
  let rest : Option (Program A ε Unit) := match a with
    | .work i => s.workers[i]?.join.map fun w => w.2.rest
    | .loop i => s.loops[i]?.map Thread.rest
    | _ => none
  match rest with
  | some (.call c _) => [c]
  | _ => []

/-- The thread that takes the step, if one does. -/
def performer (s : Pool A ε σ ℓ) : Action ℓ → Option (Thread A ε ℓ)
  | .work i => s.workers[i]?.join.map Prod.snd
  | .loop i => s.loops[i]?
  | _ => none

theorem performed_of_call {s : Pool A ε σ ℓ} {a : Action ℓ} {th : Thread A ε ℓ} {c : C}
    {next : A c → Program A ε Unit} (hth : s.performer a = some th) (hrest : th.rest = .call c next) :
    s.performed a = [c] := by
  cases a with
  | enqueue | dequeue | spawn => cases hth
  | work i =>
    obtain ⟨w, hw, rfl⟩ := Option.map_eq_some_iff.1 hth
    rw [performed, hw, Option.map_some, hrest]
  | loop i =>
    rw [performed, show s.loops[i]? = some th from hth, Option.map_some, hrest]

theorem performed_of_not_call {s : Pool A ε σ ℓ} {a : Action ℓ} {th : Thread A ε ℓ} (hth : s.performer a = some th)
    (hrest : ∀ c next, th.rest ≠ .call c next) : s.performed a = [] := by
  have hnone : ∀ p : Program A ε Unit, (∀ c next, p ≠ .call c next) →
      (match some p with
        | some (.call c _) => [c]
        | _ => []) = ([] : List C) := by
    intro p hp
    cases p with
    | call c next => exact absurd rfl (hp c next)
    | ret | throw => rfl
  cases a with
  | enqueue | dequeue | spawn => cases hth
  | work i =>
    obtain ⟨w, hw, rfl⟩ := Option.map_eq_some_iff.1 hth
    rw [performed, hw]
    exact hnone _ hrest
  | loop i =>
    rw [performed, show s.loops[i]? = some th from hth]
    exact hnone _ hrest

/-- What a step does to the state, to the queue and to the running threads, and which thread takes it. -/
inductive Takes (s t : Pool A ε σ ℓ) : Action ℓ → Prop where
  | enqueue (task : ℓ) (hshared : t.shared = s.shared) (hthreads : t.threads = s.threads)
      (hqueue : t.queue = s.queue ++ [(task, s.arrivals.length)]) : Takes s t (.enqueue task)
  | dequeue (i k : ℕ) (task : ℓ) (hshared : t.shared = s.shared)
      (hthreads : t.threads.Perm (⟨task, body task⟩ :: s.threads)) (hqueue : s.queue = (task, k) :: t.queue) :
      Takes s t (.dequeue i)
  | spawn (task : ℓ) (hshared : t.shared = s.shared) (hthreads : t.threads.Perm (⟨task, body task⟩ :: s.threads))
      (hqueue : t.queue = s.queue) : Takes s t (.spawn task)
  | call {a : Action ℓ} (th : Thread A ε ℓ) (others : List (Thread A ε ℓ)) (c : C) (next : A c → Program A ε Unit)
      (hth : s.performer a = some th) (hrest : th.rest = .call c next) (hthreads : s.threads.Perm (th :: others))
      (hthreads' : t.threads.Perm ({ th with rest := next (exec c s.shared).1 } :: others))
      (hshared : t.shared = (exec c s.shared).2) (hqueue : t.queue = s.queue) : Takes s t a
  | finish {a : Action ℓ} (th : Thread A ε ℓ) (others : List (Thread A ε ℓ)) (hth : s.performer a = some th)
      (hrest : ∀ c next, th.rest ≠ .call c next) (hthreads : s.threads.Perm (th :: others))
      (hthreads' : t.threads.Perm others) (hshared : t.shared = s.shared) (hqueue : t.queue = s.queue) : Takes s t a

theorem takes_of_step {s t : Pool A ε σ ℓ} {a : Action ℓ} (h : step body exec s a = some t) :
    Takes body exec s t a := by
  cases steps_of_step body exec h with
  | enqueue task => exact .enqueue task rfl rfl rfl
  | dequeue hidle hqueue =>
    obtain ⟨others, hthreads, hset⟩ := threads_set_worker hidle
    exact .dequeue _ _ _ rfl ((hset _).trans (hthreads.symm.cons _)) hqueue
  | @call i k th c next hbusy hrest =>
    obtain ⟨others, hthreads, hset⟩ := threads_set_worker hbusy
    have hth : s.performer (.work i) = some th := by rw [performer, hbusy, Option.join_some, Option.map_some]
    exact .call th others c next hth hrest hthreads (hset _) rfl rfl
  | @finish i k th hbusy hrest =>
    obtain ⟨others, hthreads, hset⟩ := threads_set_worker hbusy
    have hth : s.performer (.work i) = some th := by rw [performer, hbusy, Option.join_some, Option.map_some]
    exact .finish th others hth hrest hthreads (hset _) rfl rfl
  | spawn task =>
    refine .spawn task rfl ?_ rfl
    rw [threads, ← List.append_assoc]
    exact List.perm_append_singleton _ _
  | loop hth hrest =>
    obtain ⟨others, hthreads, hset⟩ := threads_set_loop hth
    exact .call _ others _ _ hth hrest hthreads (hset _) rfl rfl

/-- What a step does to the state and to the running threads, and the command it performs. -/
inductive Performs (s t : Pool A ε σ ℓ) : List C → Prop where
  | enqueue (hshared : t.shared = s.shared) (hthreads : t.threads = s.threads) : Performs s t []
  | start (task : ℓ) (hshared : t.shared = s.shared) (hthreads : t.threads.Perm (⟨task, body task⟩ :: s.threads)) :
      Performs s t []
  | call (th : Thread A ε ℓ) (others : List (Thread A ε ℓ)) (c : C) (next : A c → Program A ε Unit)
      (hrest : th.rest = .call c next) (hthreads : s.threads.Perm (th :: others))
      (hthreads' : t.threads.Perm ({ th with rest := next (exec c s.shared).1 } :: others))
      (hshared : t.shared = (exec c s.shared).2) : Performs s t [c]
  | finish (th : Thread A ε ℓ) (others : List (Thread A ε ℓ)) (hrest : ∀ c next, th.rest ≠ .call c next)
      (hthreads : s.threads.Perm (th :: others)) (hthreads' : t.threads.Perm others)
      (hshared : t.shared = s.shared) : Performs s t []

theorem performs_of_step {s t : Pool A ε σ ℓ} {a : Action ℓ} (h : step body exec s a = some t) :
    Performs body exec s t (s.performed a) := by
  cases takes_of_step body exec h with
  | enqueue task hshared hthreads => exact .enqueue hshared hthreads
  | dequeue i k task hshared hthreads | spawn task hshared hthreads => exact .start task hshared hthreads
  | call th others c next hth hrest hthreads hthreads' hshared =>
    rw [performed_of_call hth hrest]
    exact .call th others c next hrest hthreads hthreads' hshared
  | finish th others hth hrest hthreads hthreads' hshared =>
    rw [performed_of_not_call hth hrest]
    exact .finish th others hrest hthreads hthreads' hshared

theorem moves_of_step {s t : Pool A ε σ ℓ} {a : Action ℓ} (h : step body exec s a = some t) :
    Moves body exec s t := by
  have hperforms := performs_of_step body exec h
  generalize s.performed a = cs at hperforms
  cases hperforms with
  | enqueue hshared hthreads => exact .enqueue hshared hthreads
  | start task hshared hthreads => exact .start task hshared hthreads
  | call th others c next hrest hthreads hthreads' hshared =>
    exact .call th others c next hrest hthreads hthreads' hshared
  | finish th others hrest hthreads hthreads' hshared => exact .finish th others hrest hthreads hthreads' hshared

/-! ## Threads that are bound to call a command -/

section Bound

/-- One of the threads, with a task of which `p` holds, is bound to call the command. -/
def Bound (p : ℓ → Prop) (ths : List (Thread A ε ℓ)) (c : C) : Prop := ∃ th ∈ ths, p th.task ∧ th.rest.WillCall c

variable {p : ℓ → Prop} {ths ths' others : List (Thread A ε ℓ)} {th : Thread A ε ℓ} {c : C}

theorem Bound.mono (h : Bound p ths c) (hths : ∀ th ∈ ths, th ∈ ths') : Bound p ths' c := by
  obtain ⟨th, hth, hp, hwill⟩ := h
  exact ⟨th, hths th hth, hp, hwill⟩

theorem Bound.finish (h : Bound p ths c) (hrest : ∀ d next, th.rest ≠ .call d next) (hths : ths.Perm (th :: others))
    (hths' : ths'.Perm others) : Bound p ths' c := by
  obtain ⟨th', hth', hp, hwill⟩ := h
  rcases List.mem_cons.1 (hths.mem_iff.1 hth') with rfl | hth'
  · cases hth : th'.rest with
    | ret | throw =>
      rw [hth] at hwill
      exact hwill.elim
    | call d next => exact absurd hth (hrest d next)
  · exact ⟨th', hths'.mem_iff.2 hth', hp, hwill⟩

variable {d : C} {next : A d → Program A ε Unit} {a : A d}
  (hths' : ths'.Perm ({ th with rest := next a } :: others))

include hths' in
theorem bound_of_willCall (hp : p th.task) (h : (next a).WillCall c) : Bound p ths' c :=
  ⟨_, hths'.mem_iff.2 (List.mem_cons_self ..), hp, h⟩

include hths' in
/-- A thread stays bound until it calls the command. -/
theorem Bound.call (h : Bound p ths c) (hrest : th.rest = .call d next) (hths : ths.Perm (th :: others))
    (hne : d ≠ c) : Bound p ths' c := by
  obtain ⟨th', hth', hp, hwill⟩ := h
  rcases List.mem_cons.1 (hths.mem_iff.1 hth') with rfl | hth'
  · rw [hrest] at hwill
    exact bound_of_willCall hths' hp (hwill.next hne a)
  · exact ⟨th', hths'.mem_iff.2 (List.mem_cons_of_mem _ hth'), hp, hwill⟩

end Bound

/-- What the programs of the tasks cannot call, no thread comes to call. -/
theorem safe_of_run {P : ℓ → C → Prop}
    (hbody : ∀ task, (body task).Safe (P task) (fun _ _ => True) fun _ => True) {ok : Pool A ε σ ℓ → Action ℓ → Prop}
    {n : ℕ} {s₀ : σ} {t : Pool A ε σ ℓ} {l : List (Action ℓ)} (h : (machine body exec).Run ok (start n s₀) l t) :
    ∀ th ∈ t.threads, th.rest.Safe (P th.task) (fun _ _ => True) fun _ => True := by
  have hstep : ∀ s a t, ok s a → (machine body exec).step s a = some t →
      (∀ th ∈ s.threads, th.rest.Safe (P th.task) (fun _ _ => True) fun _ => True) →
      ∀ th ∈ t.threads, th.rest.Safe (P th.task) (fun _ _ => True) fun _ => True := by
    intro s a t _ hst hs
    cases moves_of_step body exec hst with
    | enqueue _ hthreads => rwa [hthreads]
    | start task _ hthreads =>
      intro th hth
      rcases List.mem_cons.1 (hthreads.mem_iff.1 hth) with rfl | hth
      · exact hbody task
      · exact hs th hth
    | call th others c next hrest hthreads hthreads' _ =>
      intro th' hth'
      rcases List.mem_cons.1 (hthreads'.mem_iff.1 hth') with rfl | hth'
      · have hth := hs th (hthreads.mem_iff.2 (List.mem_cons_self ..))
        rw [hrest] at hth
        exact hth.2 _ trivial
      · exact hs th' (hthreads.mem_iff.2 (List.mem_cons_of_mem _ hth'))
    | finish th others _ hthreads hthreads' _ =>
      intro th' hth'
      exact hs th' (hthreads.mem_iff.2 (List.mem_cons_of_mem _ (hthreads'.mem_iff.1 hth')))
  have hstart : ∀ th ∈ (start n s₀ : Pool A ε σ ℓ).threads,
      th.rest.Safe (P th.task) (fun _ _ => True) fun _ => True := by
    simp
  exact h.invariant hstep hstart

/-- The shared state satisfies `I`, and what is left of the threads is safe. -/
def Keeps (P : C → Prop) (Q : (c : C) → A c → Prop) (I : σ → Prop) (s : Pool A ε σ ℓ) : Prop :=
  I s.shared ∧ ∀ th ∈ s.threads, th.rest.Safe P Q fun _ => True

/-- **An invariant of the shared state is kept by all interleavings**, when every command that satisfies `P` keeps it
and answers according to `Q`. Of the state before the command, `T` is known as well. -/
theorem keeps_step {P : C → Prop} {Q : (c : C) → A c → Prop} {I T : σ → Prop}
    (hbody : ∀ task, (body task).Safe P Q fun _ => True)
    (hexec : ∀ c s, P c → T s → I s → Q c (exec c s).1 ∧ I (exec c s).2) {s t : Pool A ε σ ℓ} {a : Action ℓ}
    (hT : T s.shared) (hst : step body exec s a = some t) (hs : Keeps P Q I s) : Keeps P Q I t := by
  obtain ⟨hshared, hsafe⟩ := hs
  cases moves_of_step body exec hst with
  | enqueue heq hthreads => exact ⟨heq ▸ hshared, by rwa [hthreads]⟩
  | start task heq hthreads =>
    refine ⟨heq ▸ hshared, fun th hth => ?_⟩
    rcases List.mem_cons.1 (hthreads.mem_iff.1 hth) with rfl | hth
    · exact hbody task
    · exact hsafe th hth
  | call th others c next hrest hthreads hthreads' heq =>
    have hth := hsafe th (hthreads.mem_iff.2 (List.mem_cons_self ..))
    rw [hrest] at hth
    obtain ⟨hanswer, hI⟩ := hexec c s.shared hth.1 hT hshared
    refine ⟨heq ▸ hI, fun th' hth' => ?_⟩
    rcases List.mem_cons.1 (hthreads'.mem_iff.1 hth') with rfl | hth'
    · exact hth.2 _ hanswer
    · exact hsafe th' (hthreads.mem_iff.2 (List.mem_cons_of_mem _ hth'))
  | finish th others _ hthreads hthreads' heq =>
    exact ⟨heq ▸ hshared, fun th' hth' =>
      hsafe th' (hthreads.mem_iff.2 (List.mem_cons_of_mem _ (hthreads'.mem_iff.1 hth')))⟩

/-! ## Tasks are taken in the order of arrival -/

/-- The tasks that were taken, in order. -/
def starts (log : List Event) : List ℕ :=
  log.filterMap fun e => match e with
    | .taken k => some k
    | .finished _ => none

/-- The first `m` tasks were taken, one after the other, and the queue holds the others. -/
structure InOrder (s : Pool A ε σ ℓ) (m : ℕ) : Prop where
  starts : starts s.log = List.range m
  queue : s.queue = s.arrivals.zipIdx.drop m
  le : m ≤ s.arrivals.length

theorem inOrder_start (n : ℕ) (s : σ) : InOrder (start n s : Pool A ε σ ℓ) 0 := ⟨rfl, rfl, le_rfl⟩

theorem InOrder.enqueue {s : Pool A ε σ ℓ} {m : ℕ} (h : InOrder s m) (task : ℓ) :
    InOrder { s with arrivals := s.arrivals ++ [task], queue := s.queue ++ [(task, s.arrivals.length)] } m := by
  refine ⟨h.starts, ?_, ?_⟩
  · have hle : m ≤ s.arrivals.zipIdx.length := by simpa using h.le
    rw [List.zipIdx_append, List.drop_append_of_le_length hle, ← h.queue]
    simp
  · have hle := h.le
    simp only [List.length_append, List.length_singleton]
    omega

/-- The task taken from the queue is the next one to arrive. -/
theorem InOrder.head {s : Pool A ε σ ℓ} {m k : ℕ} {task : ℓ} {queue : List (ℓ × ℕ)} (h : InOrder s m)
    (hqueue : s.queue = (task, k) :: queue) :
    k = m ∧ s.arrivals[m]? = some task ∧ queue = s.arrivals.zipIdx.drop (m + 1) := by
  have hdrop : s.arrivals.zipIdx.drop m = (task, k) :: queue := h.queue.symm.trans hqueue
  have hget : s.arrivals.zipIdx[m]? = some (task, k) := by
    rw [← List.head?_drop, hdrop, List.head?_cons]
  have htail : queue = s.arrivals.zipIdx.drop (m + 1) := by
    rw [← List.tail_drop, hdrop, List.tail_cons]
  rw [List.getElem?_zipIdx, Option.map_eq_some_iff] at hget
  obtain ⟨task', htask, heq⟩ := hget
  obtain ⟨rfl, rfl⟩ := Prod.mk.inj heq
  exact ⟨by omega, htask, htail⟩

theorem InOrder.dequeue {s : Pool A ε σ ℓ} {m k : ℕ} {task : ℓ} {queue : List (ℓ × ℕ)} (h : InOrder s m)
    (hqueue : s.queue = (task, k) :: queue) (workers : List (Option (ℕ × Thread A ε ℓ))) :
    InOrder { s with queue, workers, log := s.log ++ [.taken k] } (m + 1) := by
  obtain ⟨rfl, htask, htail⟩ := h.head hqueue
  refine ⟨?_, htail, ?_⟩
  · have hstarts := h.starts
    simp only [Pool.starts] at hstarts
    simp [Pool.starts, List.filterMap_append, hstarts, List.range_succ]
  · exact (List.getElem?_eq_some_iff.1 htask).1

theorem InOrder.finish {s : Pool A ε σ ℓ} {m : ℕ} (h : InOrder s m) (k : ℕ)
    (workers : List (Option (ℕ × Thread A ε ℓ))) :
    InOrder { s with workers, log := s.log ++ [.finished k] } m := by
  refine ⟨?_, h.queue, h.le⟩
  have hstarts := h.starts
  simp only [Pool.starts] at hstarts
  simp [Pool.starts, List.filterMap_append, hstarts]

theorem inOrder_step {s t : Pool A ε σ ℓ} {a : Action ℓ} (h : step body exec s a = some t) {m : ℕ}
    (hs : InOrder s m) : ∃ m', InOrder t m' := by
  cases steps_of_step body exec h with
  | enqueue task => exact ⟨m, hs.enqueue task⟩
  | dequeue _ hqueue => exact ⟨m + 1, hs.dequeue hqueue _⟩
  | finish _ _ => exact ⟨m, hs.finish _ _⟩
  | call _ _ | spawn _ | loop _ _ => exact ⟨m, hs.starts, hs.queue, hs.le⟩

/-- **First come, first taken**, for every number of workers and every scheduling of them. -/
theorem inOrder_of_run {ok : Pool A ε σ ℓ → Action ℓ → Prop} {n : ℕ} {s₀ : σ} {t : Pool A ε σ ℓ}
    {l : List (Action ℓ)} (h : (machine body exec).Run ok (start n s₀) l t) : ∃ m, InOrder t m := by
  have hstep : ∀ s a t, ok s a → (machine body exec).step s a = some t → (∃ m, InOrder s m) →
      ∃ m, InOrder t m := by
    rintro s a t - hst ⟨m, hm⟩
    exact inOrder_step body exec hst hm
  exact h.invariant hstep ⟨0, inOrder_start n s₀⟩

/-! ## One worker -/

/-- The log of `m` tasks, each finished before the next is taken. -/
def oneByOne (m : ℕ) : List Event := (List.range m).flatMap fun k => [.taken k, .finished k]

theorem oneByOne_succ (m : ℕ) : oneByOne (m + 1) = oneByOne m ++ [.taken m, .finished m] := by
  simp [oneByOne, List.range_succ]

theorem finished_mem_oneByOne {k m : ℕ} (h : k < m) : .finished k ∈ oneByOne m :=
  List.mem_flatMap.2 ⟨k, List.mem_range.2 h, by simp⟩

/-- In such a log, whatever is taken later than `k` is taken after `k` has finished. -/
theorem finished_of_prefix {m k k' : ℕ} {a : List Event} (h : a ++ [.taken k'] <+: oneByOne m) (hk : k < k') :
    .finished k ∈ a := by
  induction m with
  | zero =>
    have hnil : a ++ [.taken k'] = [] := List.prefix_nil.1 h
    simp at hnil
  | succ m ih =>
    have hsucc : oneByOne (m + 1) = (oneByOne m ++ [.taken m]) ++ [.finished m] := by
      rw [oneByOne_succ, List.append_assoc]
      rfl
    rw [hsucc, List.prefix_concat_iff, List.prefix_concat_iff] at h
    rcases h with heq | heq | hpre
    · exact absurd (List.append_inj_right' heq rfl) (by simp)
    · obtain rfl : k' = m := by simpa using List.append_inj_right' heq rfl
      rw [List.append_inj_left' heq rfl]
      exact finished_mem_oneByOne hk
    · exact ih hpre

/-- The log when the worker is idle after `m` tasks, or runs the last of them. -/
def LogOf (log : List Event) (m : ℕ) : Option (ℕ × Thread A ε ℓ) → Prop
  | none => log = oneByOne m
  | some (k, _) => m = k + 1 ∧ log = oneByOne k ++ [.taken k]

theorem LogOf.finished {log a b : List Event} {m k k' : ℕ} {w : Option (ℕ × Thread A ε ℓ)} (h : LogOf log m w)
    (hlog : log = a ++ .taken k' :: b) (hk : k < k') : .finished k ∈ a := by
  have hpre : ∃ m, log <+: oneByOne m := by
    cases w with
    | none => exact ⟨m, [], (List.append_nil _).trans h⟩
    | some p =>
      obtain ⟨-, h⟩ := h
      refine ⟨p.1 + 1, [.finished p.1], ?_⟩
      rw [h, oneByOne_succ, List.append_assoc]
      rfl
  obtain ⟨m, hpre⟩ := hpre
  have hstart : a ++ [.taken k'] <+: log := ⟨b, by rw [hlog, List.append_assoc, List.singleton_append]⟩
  exact finished_of_prefix (hstart.trans hpre) hk

/-- All tasks run to the end, in order. -/
def runAll (tasks : List ℓ) (s : σ) : σ := tasks.foldl (fun s task => ((body task).run exec s).2) s

theorem runAll_take_succ {tasks : List ℓ} {m : ℕ} {task : ℓ} (h : tasks[m]? = some task) (s : σ) :
    runAll body exec (tasks.take (m + 1)) s =
      ((body task).run exec (runAll body exec (tasks.take m) s)).2 := by
  rw [List.take_add_one, h, runAll, List.foldl_append]
  rfl

/-- The state when the worker has returned from its task. -/
def settled (w : Option (ℕ × Thread A ε ℓ)) (s : σ) : σ :=
  match w with
  | some (_, th) => (th.rest.run exec s).2
  | none => s

section Single

/- The commands of the pool's tasks satisfy `P`, and programs of such commands keep states related by `R`; those
of the threads outside satisfy `L` and leave a state that is related. -/
variable (P L : C → Prop) (R : σ → σ → Prop)

/-- Tasks and threads call the commands that they may call. -/
def Permitted (_ : Pool A ε σ ℓ) : Action ℓ → Prop
  | .enqueue task => (body task).Safe P (fun _ _ => True) fun _ => True
  | .spawn task => (body task).Safe L (fun _ _ => True) fun _ => True
  | _ => True

/-- The invariant of a run with one worker: `m` tasks were taken. -/
structure Single (s₀ : σ) (s : Pool A ε σ ℓ) (m : ℕ) (w : Option (ℕ × Thread A ε ℓ)) : Prop where
  inOrder : InOrder s m
  workers : s.workers = [w]
  log : LogOf s.log m w
  state : R (runAll body exec (s.arrivals.take m) s₀) (settled exec w s.shared)
  permitted : ∀ task ∈ s.arrivals, (body task).Safe P (fun _ _ => True) fun _ => True
  worker : ∀ k th, w = some (k, th) → th.rest.Safe P (fun _ _ => True) fun _ => True
  loops : ∀ th ∈ s.loops, th.rest.Safe L (fun _ _ => True) fun _ => True

variable {P L R}

theorem single_start (hrefl : ∀ s, R s s) (s₀ : σ) :
    Single body exec P L R s₀ (start 1 s₀ : Pool A ε σ ℓ) 0 none where
  inOrder := inOrder_start 1 s₀
  workers := rfl
  log := rfl
  state := hrefl s₀
  permitted := by simp [start]
  worker := by simp
  loops := by simp [start]

variable (htrans : ∀ s t u, R s t → R t u → R s u)
  (hP : ∀ (p : Program A ε Unit) s t, p.Safe P (fun _ _ => True) (fun _ => True) → R s t →
    R (p.run exec s).2 (p.run exec t).2)
  (hL : ∀ c s, L c → R s (exec c s).2)

include hP in
theorem settled_congr {w : Option (ℕ × Thread A ε ℓ)}
    (hw : ∀ k th, w = some (k, th) → th.rest.Safe P (fun _ _ => True) fun _ => True) {s t : σ} (h : R s t) :
    R (settled exec w s) (settled exec w t) := by
  cases w with
  | none => exact h
  | some b => exact hP _ s t (hw b.1 b.2 rfl) h

theorem Single.enqueue {s₀ : σ} {s : Pool A ε σ ℓ} {m : ℕ} {w : Option (ℕ × Thread A ε ℓ)}
    (hs : Single body exec P L R s₀ s m w) {task : ℓ}
    (htask : (body task).Safe P (fun _ _ => True) fun _ => True) : Single body exec P L R s₀
      { s with arrivals := s.arrivals ++ [task], queue := s.queue ++ [(task, s.arrivals.length)] } m w := by
  have htake : (s.arrivals ++ [task]).take m = s.arrivals.take m := List.take_append_of_le_length hs.inOrder.le
  refine ⟨hs.inOrder.enqueue task, hs.workers, hs.log, ?_, ?_, hs.worker, hs.loops⟩
  · rw [htake]
    exact hs.state
  · intro task' hmem
    rcases List.mem_append.1 hmem with hmem | hmem
    · exact hs.permitted task' hmem
    · rw [List.mem_singleton.1 hmem]
      exact htask

include hP in
/-- The idle worker takes the next task. -/
theorem Single.dequeue {s₀ : σ} {s : Pool A ε σ ℓ} {m k : ℕ} (hs : Single body exec P L R s₀ s m none) {task : ℓ}
    {queue : List (ℓ × ℕ)} (hqueue : s.queue = (task, k) :: queue) : Single body exec P L R s₀
      { s with queue, workers := [some (k, ⟨task, body task⟩)], log := s.log ++ [.taken k] } (k + 1)
      (some (k, ⟨task, body task⟩)) := by
  obtain ⟨rfl, htask, -⟩ := hs.inOrder.head hqueue
  have hlog : s.log = oneByOne k := hs.log
  have hbody := hs.permitted task (List.mem_of_getElem? htask)
  refine ⟨hs.inOrder.dequeue hqueue _, rfl, ⟨rfl, ?_⟩, ?_, hs.permitted, ?_, hs.loops⟩
  · rw [hlog]
  · show R (runAll body exec (s.arrivals.take (k + 1)) s₀) _
    rw [runAll_take_succ body exec htask]
    exact hP _ _ _ hbody hs.state
  · rintro _ _ heq
    obtain ⟨-, rfl⟩ := Prod.mk.inj (Option.some.inj heq)
    exact hbody

theorem Single.call {s₀ : σ} {s : Pool A ε σ ℓ} {m k : ℕ} {th : Thread A ε ℓ}
    (hs : Single body exec P L R s₀ s m (some (k, th))) {c : C} {next : A c → Program A ε Unit}
    (hrest : th.rest = .call c next) : Single body exec P L R s₀
      { s with
        shared := (exec c s.shared).2, workers := [some (k, { th with rest := next (exec c s.shared).1 })] } m
      (some (k, { th with rest := next (exec c s.shared).1 })) := by
  have hstate := hs.state
  have hsafe := hs.worker k th rfl
  rw [hrest] at hsafe
  refine ⟨⟨hs.inOrder.starts, hs.inOrder.queue, hs.inOrder.le⟩, rfl, hs.log, ?_, hs.permitted, ?_, hs.loops⟩
  · simp only [settled, hrest, Program.run_call] at hstate
    exact hstate
  · rintro _ _ heq
    obtain ⟨-, rfl⟩ := Prod.mk.inj (Option.some.inj heq)
    exact hsafe.2 _ trivial

theorem Single.finish {s₀ : σ} {s : Pool A ε σ ℓ} {m k : ℕ} {th : Thread A ε ℓ}
    (hs : Single body exec P L R s₀ s m (some (k, th))) (hrest : ∀ c next, th.rest ≠ .call c next) :
    Single body exec P L R s₀ { s with workers := [none], log := s.log ++ [.finished k] } (k + 1) none := by
  obtain ⟨rfl, hlog⟩ := hs.log
  have hstate := hs.state
  refine ⟨hs.inOrder.finish k _, rfl, ?_, ?_, hs.permitted, by simp, hs.loops⟩
  · show s.log ++ [.finished k] = oneByOne (k + 1)
    rw [hlog, oneByOne_succ, List.append_assoc]
    rfl
  · have hret : (th.rest.run exec s.shared).2 = s.shared := by
      cases hth : th.rest with
      | ret a => rfl
      | throw e => rfl
      | call c next => exact absurd hth (hrest c next)
    simp only [settled, hret] at hstate
    exact hstate

theorem Single.spawn {s₀ : σ} {s : Pool A ε σ ℓ} {m : ℕ} {w : Option (ℕ × Thread A ε ℓ)}
    (hs : Single body exec P L R s₀ s m w) {task : ℓ}
    (htask : (body task).Safe L (fun _ _ => True) fun _ => True) :
    Single body exec P L R s₀ { s with loops := s.loops ++ [⟨task, body task⟩] } m w := by
  refine ⟨⟨hs.inOrder.starts, hs.inOrder.queue, hs.inOrder.le⟩, hs.workers, hs.log, hs.state, hs.permitted,
    hs.worker, ?_⟩
  intro th hmem
  rcases List.mem_append.1 hmem with hmem | hmem
  · exact hs.loops th hmem
  · rw [List.mem_singleton.1 hmem]
    exact htask

include htrans hP hL in
/-- A thread outside the pool changes the state, and the rest of the worker's task keeps the two related. -/
theorem Single.loop {s₀ : σ} {s : Pool A ε σ ℓ} {m i : ℕ} {w : Option (ℕ × Thread A ε ℓ)}
    (hs : Single body exec P L R s₀ s m w) {th : Thread A ε ℓ} (hth : s.loops[i]? = some th) {c : C}
    {next : A c → Program A ε Unit} (hrest : th.rest = .call c next) : Single body exec P L R s₀
      { s with
        shared := (exec c s.shared).2, loops := s.loops.set i { th with rest := next (exec c s.shared).1 } } m w := by
  have hsafe := hs.loops th (List.mem_of_getElem? hth)
  rw [hrest] at hsafe
  refine ⟨⟨hs.inOrder.starts, hs.inOrder.queue, hs.inOrder.le⟩, hs.workers, hs.log, ?_, hs.permitted, hs.worker, ?_⟩
  · exact htrans _ _ _ hs.state (settled_congr exec hP hs.worker (hL c s.shared hsafe.1))
  · intro th' hmem
    rcases List.mem_or_eq_of_mem_set hmem with hmem | rfl
    · exact hs.loops th' hmem
    · exact hsafe.2 _ trivial

/-- The only worker is the first. -/
theorem Single.worker_eq {s₀ : σ} {s : Pool A ε σ ℓ} {m i : ℕ} {w w' : Option (ℕ × Thread A ε ℓ)}
    (hs : Single body exec P L R s₀ s m w) (h : s.workers[i]? = some w') :
    w = w' ∧ ∀ w'', s.workers.set i w'' = [w''] := by
  rw [hs.workers] at h ⊢
  obtain ⟨hi, rfl⟩ := List.getElem?_eq_some_iff.1 h
  obtain rfl : i = 0 := Nat.lt_one_iff.1 hi
  exact ⟨rfl, fun _ => rfl⟩

include htrans hP hL in
theorem single_step {s₀ : σ} {s t : Pool A ε σ ℓ} {a : Action ℓ} (h : step body exec s a = some t)
    (hok : Permitted body P L s a) {m : ℕ} {w : Option (ℕ × Thread A ε ℓ)}
    (hs : Single body exec P L R s₀ s m w) : ∃ m' w', Single body exec P L R s₀ t m' w' := by
  cases steps_of_step body exec h with
  | enqueue task => exact ⟨m, w, hs.enqueue body exec hok⟩
  | dequeue hidle hqueue =>
    obtain ⟨rfl, hset⟩ := hs.worker_eq body exec hidle
    rw [hset]
    exact ⟨_, _, hs.dequeue body exec hP hqueue⟩
  | call hbusy hrest =>
    obtain ⟨rfl, hset⟩ := hs.worker_eq body exec hbusy
    rw [hset]
    exact ⟨_, _, hs.call body exec hrest⟩
  | finish hbusy hrest =>
    obtain ⟨rfl, hset⟩ := hs.worker_eq body exec hbusy
    rw [hset]
    exact ⟨_, _, hs.finish body exec hrest⟩
  | spawn task => exact ⟨m, w, hs.spawn body exec hok⟩
  | loop hth hrest => exact ⟨m, w, hs.loop body exec htrans hP hL hth hrest⟩

include htrans hP hL in
/-- **One worker runs the tasks one after the other**, and the state is the one that running them to the end
in order of arrival leaves, when it has returned from the last. -/
theorem single_of_run (hrefl : ∀ s, R s s) {s₀ : σ} {t : Pool A ε σ ℓ} {l : List (Action ℓ)}
    (h : (machine body exec).Run (Permitted body P L) (start 1 s₀) l t) :
    ∃ m w, Single body exec P L R s₀ t m w := by
  have hstep : ∀ s a t, Permitted body P L s a → (machine body exec).step s a = some t →
      (∃ m w, Single body exec P L R s₀ s m w) → ∃ m w, Single body exec P L R s₀ t m w := by
    rintro s a t hok hst ⟨m, w, hs⟩
    exact single_step body exec htrans hP hL hst hok hs
  exact h.invariant hstep ⟨0, none, single_start body exec hrefl s₀⟩

end Single

end Pool

end Chatroom.Lib
