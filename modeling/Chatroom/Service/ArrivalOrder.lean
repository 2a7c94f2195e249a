import Chatroom.Service.Attribution

/-!
# In which order requests take effect

The workers take the handlers from the queue in the order in which `onJsonMessage` enqueued them. They do not wait
for each other: between taking a handler and running it a worker may be overtaken, and the next handler is taken
before this one has returned. With one worker each handler has returned before the next is taken, and what the
handlers leave is what they leave when they are run in that order.
-/

namespace Chatroom.Service

open Lib

/-- The states differ in nothing but `m_connStatusMap`. -/
def UpToConnStatus (w w' : World) : Prop := ∃ m, w' = { w with connStatusMap := m }

/-- The command does not look at `m_connStatusMap`. -/
def IgnoresConnStatus (c : Cmd) : Prop := c ≠ .sweepConnStatus

/-- The command changes nothing but `m_connStatusMap`. -/
def SetsConnStatus (c : Cmd) : Prop :=
  (∃ conn status, c = .setConnStatus conn status) ∨ ∃ conn, c = .eraseConnStatus conn

/-- The loops hand over requests and set the status of their connections. -/
def Dispatch (_ : Threads) : Pool.Action Activity → Prop
  | .enqueue (.request _ _ _ _) => True
  | .enqueue _ => False
  | .spawn (.connStatus _ _) => True
  | .spawn (.removeConnStatus _) => True
  | .spawn _ => False
  | _ => True

theorem upToConnStatus_refl (w : World) : UpToConnStatus w w := ⟨w.connStatusMap, rfl⟩

theorem upToConnStatus_trans (u v w : World) (huv : UpToConnStatus u v) (hvw : UpToConnStatus v w) :
    UpToConnStatus u w := by
  obtain ⟨m, rfl⟩ := huv
  obtain ⟨m', rfl⟩ := hvw
  exact ⟨m', rfl⟩

variable {env : Environment}

theorem exec_congr_connStatus (c : Cmd) (w w' : World) (hc : IgnoresConnStatus c) (h : UpToConnStatus w w') :
    (exec env c w).1 = (exec env c w').1 ∧ UpToConnStatus (exec env c w).2 (exec env c w').2 := by
  obtain ⟨m, rfl⟩ := h
  cases c <;> first | exact ⟨rfl, _, rfl⟩ | exact absurd rfl hc

theorem exec_setsConnStatus (c : Cmd) (w : World) (hc : SetsConnStatus c) :
    UpToConnStatus w (exec env c w).2 := by
  rcases hc with ⟨conn, status, rfl⟩ | ⟨conn, rfl⟩ <;> exact ⟨_, rfl⟩

theorem permitted_of_dispatch (s : Threads) (a : Pool.Action Activity) (h : Dispatch s a) :
    Pool.Permitted Activity.body IgnoresConnStatus SetsConnStatus s a := by
  cases a with
  | enqueue task =>
    cases task with
    | request conn msgid js time =>
      exact (within_getHandler msgid conn js time).mono (fun _ hc => hc.noSweep) (fun _ _ h => h) fun _ h => h
    | _ => exact absurd h id
  | spawn task =>
    cases task with
    | connStatus conn status => exact ⟨.inl ⟨conn, status, rfl⟩, fun _ _ => trivial⟩
    | removeConnStatus conn => exact ⟨.inr ⟨conn, rfl⟩, fun _ _ => trivial⟩
    | _ => exact absurd h id
  | _ => trivial

/-- Of two messages of one connection, the handler of the first has returned before the handler of the second
is taken from the queue. -/
def InTurn (s : Threads) : Prop :=
  ∀ k k' conn msgid msgid' js js' time time', k < k' →
    s.arrivals[k]? = some (.request conn msgid js time) →
    s.arrivals[k']? = some (.request conn msgid' js' time') →
    ∀ a b, s.log = a ++ .taken k' :: b → .finished k ∈ a

/-- **Handlers are taken from the queue in the order of arrival**, for every number of workers and every scheduling,
and with one worker that is the order of the effects: each has returned before the next is taken, and when none is
running, the tables, the Redis lists and the messages sent are those of running the handlers in that order. -/
theorem arrival_order {n : ℕ} {w : World} {l : List (Pool.Action Activity)} {s : Threads}
    (h : (server env).Run (fun _ _ => True) (Pool.start n w) l s) :
    (∃ m, Pool.InOrder s m) ∧
      (n = 1 → InTurn s ∧ ∃ m worker, s.workers = [worker] ∧ Pool.InOrder s m ∧
        ((server env).Run Dispatch (Pool.start n w) l s → worker = none →
          UpToConnStatus (Pool.runAll Activity.body (exec env) (s.arrivals.take m) w) s.shared)) := by
  refine ⟨Pool.inOrder_of_run _ _ h, ?_⟩
  rintro rfl
  -- the log is that of one worker, whatever is run and whatever the loops do
  have hpermitted : ∀ s a, True → Pool.Permitted Activity.body (fun _ => True) (fun _ => True) (s : Threads) a := by
    intro s a _
    cases a <;> first | exact Program.safe_true _ | trivial
  obtain ⟨m, worker, hlog⟩ : ∃ m worker, Pool.Single Activity.body (exec env) (fun _ => True) (fun _ => True)
      (fun _ _ => True) w s m worker :=
    Pool.single_of_run _ _ (fun _ _ _ _ _ => trivial) (fun _ _ _ _ _ => trivial) (fun _ _ _ => trivial)
      (fun _ => trivial) (h.mono hpermitted)
  refine ⟨?_, m, worker, hlog.workers, hlog.inOrder, fun hdispatch hidle => ?_⟩
  · intro k k' conn msgid msgid' js js' time time' hk _ _ a b hab
    exact hlog.log.finished hab hk
  · obtain ⟨m', worker', hsingle⟩ := Pool.single_of_run _ _ upToConnStatus_trans
      (fun p s t hp hst => (hp.run_congr (exec env) exec_congr_connStatus hst).2) exec_setsConnStatus
      upToConnStatus_refl (hdispatch.mono permitted_of_dispatch)
    obtain rfl : worker = worker' := by
      simpa using hlog.workers.symm.trans hsingle.workers
    obtain rfl : m = m' := by
      simpa using congrArg List.length (hlog.inOrder.starts.symm.trans hsingle.inOrder.starts)
    have hstate := hsingle.state
    rw [hidle] at hstate
    exact hstate

/-- Bob logs in and writes to ann, and a loop sets the status of his connection in between. -/
def bobInTurn : List (Pool.Action Activity) :=
  bobLogsIn ++ .spawn (.connStatus 1 true) :: .loop 0 ::
    handled 1 .privateChat [("id", .num 3), ("msg", .str "hi"), ("from_name", .str "bob")] 5

theorem arrival_order_bob : ∃ s,
    (server .still).exec (Pool.start 1 (boot .still (World.init annAndBob))) bobInTurn = some s ∧ InTurn s ∧
      ∃ m, UpToConnStatus (Pool.runAll Activity.body (exec .still) (s.arrivals.take m)
        (boot .still (World.init annAndBob))) s.shared := by
  obtain ⟨s, hs, hidle⟩ : ∃ s, (server .still).exec (Pool.start 1 (boot .still (World.init annAndBob)))
      bobInTurn = some s ∧ s.workers = [none] := ⟨_, rfl, rfl⟩
  obtain ⟨-, hsingle⟩ := arrival_order (Machine.run_of_exec hs)
  obtain ⟨hturn, m, worker, hworkers, -, hstate⟩ := hsingle rfl
  have hdispatch : ∀ a ∈ bobInTurn, ∀ s, Dispatch s a := by
    simp [bobInTurn, bobLogsIn, handled, Dispatch]
  refine ⟨s, hs, hturn, m, hstate (Machine.run_of_exec_of hdispatch hs) ?_⟩
  simpa using hworkers.symm.trans hidle

/-- Bob writes twice; the second worker is done with the second message before the first has cached the
first. -/
def overtake : List (Pool.Action Activity) :=
  let write := fun text => .enqueue (.request 1 EnMsgType.privateChat.code
    (.obj [("id", .num 3), ("msg", .str text), ("from_name", .str "bob")]) "")
  bobLogsIn ++ write "one" :: write "two" :: .dequeue 0 :: .dequeue 1 ::
    (List.replicate 5 (.work 1) ++ List.replicate 5 (.work 0))

theorem second_overtakes_first :
    ∃ s, (server .still).exec (Pool.start 2 (boot .still (World.init annAndBob))) overtake = some s ∧
      ¬ InTurn s ∧ (s.shared.redis .privateChat).map History.ChatRecord.message = ["two", "one"] := by
  refine ⟨_, rfl, ?_, rfl⟩
  intro h
  have hmem := h 1 2 1 _ _ _ _ _ _ (by decide) rfl rfl [.taken 0, .finished 0, .taken 1]
    [.finished 2, .finished 1] rfl
  simp at hmem

end Chatroom.Service
