import Chatroom.Service.Heartbeat

/-!
# The server under watch

The server with the event loops of its connections step by step, the codec's file transfers and `m_connMutex`, and a
record of what was heard from whom since the last check. Whatever the steps are, there is one check at a time, and it
closes those that its first loop has collected (`Disciplined`).
-/

namespace Chatroom.Service

open Lib Pool

/-- Where the event loop of a connection stands. -/
inductive LoopPc where
  /-- before `onConnection` -/
  | absent
  /-- `onConnection` at `setConnStatus` -/
  | connected
  | idle
  /-- `onJsonMessage` at `setConnStatus` -/
  | status (msgid : ℤ) (js : Json) (time : String)
  /-- `onJsonMessage` at `m_threadpool.enqueue` -/
  | enqueue (msgid : ℤ) (js : Json) (time : String)
  /-- SEND_FILE at `removeConnStatus` -/
  | removeStatus
  /-- SEND_FILE_END at `addConnStatus` -/
  | addStatus
  /-- `onConnection` was called for the end of the connection -/
  | gone

/-- What the loop comes to next: that the connection is up, or what the codec finds in the buffer. -/
inductive Input where
  | up
  | message (msgid : ℤ) (js : Json) (time : String)
  /-- SEND_FILE, and whether its file opens -/
  | sendFile (opens : Bool)
  | sendFileEnd
  /-- bytes of a file, the last of it or not -/
  | bytes (last : Bool)

structure Watching where
  threads : Threads
  loop : Conn → LoopPc
  /-- the connections in `m_fileTransferStates` -/
  uploads : Conn → Bool
  /-- a message was processed, or bytes of a file received, since the last check -/
  heard : Conn → Bool
  /-- the same between the last two checks -/
  heardBefore : Conn → Bool
  /-- `connectionsToDelete` of the last check -/
  connectionsToDelete : List Conn

namespace Watching

inductive Event where
  /-- a step of the threads; `spawn` starts a check, or `onConnection` for a connection that is down -/
  | pool (a : Pool.Action Activity)
  /-- the loop of the connection comes to its next input -/
  | read (conn : Conn) (input : Input)
  /-- the loop goes on -/
  | go (conn : Conn)

variable (env : Environment)

def start (n : ℕ) (w : World) : Watching :=
  ⟨Pool.start n (boot env w), fun _ => .absent, fun _ => false, fun _ => false, fun _ => false, []⟩

/-! ## `m_connMutex` -/

/-- The thread is in a section that `m_connMutex` protects: `checkIfConnAlive`, or the first part of `clientClose`. -/
def holdsMutex (th : Thread Ans Fault Activity) : Bool :=
  match th.task, th.rest with
  | .heartbeat, .call .sweepConnStatus _ => false
  | .heartbeat, .call _ _ => true
  | .down _, .call (.eraseConnStatus _) _ => true
  | .down _, .call (.eraseConnUser _) _ => true
  | .down _, .call (.eraseUserConn _) _ => true
  | _, _ => false

/-- The thread is before such a section. -/
def needsMutex (th : Thread Ans Fault Activity) : Bool :=
  match th.task, th.rest with
  | .heartbeat, .call .sweepConnStatus _ => true
  | .down _, .call (.findConnUser _) _ => true
  | _, _ => false

def locked (s : Watching) : Bool := s.threads.threads.any holdsMutex

/-- A check is running. -/
def isChecking (th : Thread Ans Fault Activity) : Bool :=
  match th.task with
  | .heartbeat => holdsMutex th
  | _ => false

def checking (s : Watching) : Bool := s.threads.threads.any isChecking

/-! ## Steps -/

def isHeartbeat (th : Thread Ans Fault Activity) : Bool :=
  match th.task with
  | .heartbeat => th.rest.running
  | _ => false

/-- The checks are callbacks of one timer, the end of a connection is one of its own loop, and tasks come from
`onJsonMessage`. -/
def allowed (s : Watching) : Pool.Action Activity → Bool
  | .enqueue _ => false
  | .spawn .heartbeat => !s.threads.threads.any isHeartbeat
  | .spawn (.down conn) =>
    match s.loop conn with
    | .idle => true
    | _ => false
  | .spawn _ => false
  | .dequeue _ => true
  | .work i => (s.threads.performer (.work i)).all fun th => !(needsMutex th && s.locked)
  | .loop i => (s.threads.performer (.loop i)).all fun th => !(needsMutex th && s.locked)

def isSweep : Cmd → Bool
  | .sweepConnStatus => true
  | _ => false

/-- Where the loops stand after a step of the threads. -/
def loopAfter (s : Watching) : Pool.Action Activity → Conn → LoopPc
  | .spawn (.down conn) => Function.update s.loop conn .gone
  | _ => s.loop

def sweeps (s : Watching) (a : Pool.Action Activity) : Bool := (s.threads.performed a).any isSweep

def stepPool (s : Watching) (a : Pool.Action Activity) (threads : Threads) : Watching :=
  { s with
    threads
    loop := s.loopAfter a
    heard := if s.sweeps a then fun _ => false else s.heard
    heardBefore := if s.sweeps a then s.heard else s.heardBefore
    connectionsToDelete := if s.sweeps a then s.threads.shared.silent else s.connectionsToDelete }

def setLoop (s : Watching) (conn : Conn) (pc : LoopPc) : Watching :=
  { s with loop := Function.update s.loop conn pc }

def hear (s : Watching) (conn : Conn) : Watching := { s with heard := Function.update s.heard conn true }

def setUpload (s : Watching) (conn : Conn) (b : Bool) : Watching :=
  { s with uploads := Function.update s.uploads conn b }

/-- `JsonCodec::onMessage`, up to the first function of `Service` that it calls. -/
def stepRead (s : Watching) (conn : Conn) (input : Input) : Option Watching :=
  match s.loop conn, input with
  | .absent, .up => some (s.setLoop conn .connected)
  | .idle, .bytes last => if s.uploads conn then some ((s.hear conn).setUpload conn (!last)) else none
  | .idle, .sendFile true =>
    if s.uploads conn then none else some (((s.hear conn).setUpload conn true).setLoop conn .removeStatus)
  | .idle, .sendFile false => if s.uploads conn then none else some (s.hear conn)
  | .idle, .sendFileEnd => if s.uploads conn then none else some (s.setLoop conn .addStatus)
  | .idle, .message msgid js time =>
    if s.uploads conn || msgid = EnMsgType.sendFile.code || msgid = EnMsgType.sendFileEnd.code then none
    else some (s.setLoop conn (.status msgid js time))
  | _, _ => none

/-- A function of `Service` that the loop calls and that is one access to `m_connStatusMap`. -/
def perform (s : Watching) (p : Task Unit) : Watching :=
  { s with threads := { s.threads with shared := (p.run (exec env) s.threads.shared).2 } }

def stepGo (s : Watching) (conn : Conn) : Option Watching :=
  match s.loop conn with
  | .connected => if s.locked then none else some ((s.perform env (setConnStatus conn true)).setLoop conn .idle)
  | .status msgid js time =>
    if s.locked then none
    else some (((s.perform env (setConnStatus conn true)).hear conn).setLoop conn (.enqueue msgid js time))
  | .enqueue msgid js time =>
    ((server env).step s.threads (.enqueue (.request conn msgid js time))).map fun threads =>
      { s with threads }.setLoop conn .idle
  | .removeStatus => if s.locked then none else some ((s.perform env (removeConnStatus conn)).setLoop conn .idle)
  | .addStatus =>
    if s.locked then none else some (((s.perform env (addConnStatus conn)).hear conn).setLoop conn .idle)
  | _ => none

def step (s : Watching) : Event → Option Watching
  | .pool a => if s.allowed a then ((server env).step s.threads a).map (s.stepPool a) else none
  | .read conn input => s.stepRead conn input
  | .go conn => s.stepGo env conn

def machine : Machine Watching Event := ⟨step env⟩

/-! ## What the threads can call -/

/-- Nobody but the heartbeat takes a flag back. -/
def SetsTrue (c : Cmd) : Prop := ∀ d b, c = .setConnStatus d b → b = true

/-- The second loop of `checkIfConnAlive` closes the connections that the first has collected. -/
def Drops (conns : List Conn) (c : Cmd) : Prop := c ≠ .sweepConnStatus ∧ ∀ d, c = .forceClose d → d ∈ conns

section Programs

variable {conn}

theorem setsTrue_login (conn : Conn) (js : Json) (time : String) :
    (login conn js time).Safe SetsTrue (fun _ _ => True) fun _ => True := by
  refine (ofLogin_login conn js time).mono (fun c hc => ?_) (fun _ _ h => h) fun _ h => h
  rintro d b rfl
  cases hc
  rfl

/-- What is not about the flags sets none. -/
theorem setsTrue_of_area {areas : List Area} (hstatus : Area.status ∉ areas) {c : Cmd}
    (hc : ∀ x, c.area = some x → x ∈ areas) : SetsTrue c := by
  rintro d b rfl
  exact absurd (hc .status rfl) hstatus

theorem setsTrue_body {a : Activity} (ha : ∀ conn status, a ≠ .connStatus conn status) :
    a.body.Safe SetsTrue (fun _ _ => True) fun _ => True := by
  cases a with
  | request conn msgid js time =>
    by_cases hlogin : msgid = EnMsgType.loginMsg.code
    · subst hlogin
      exact setsTrue_login conn js time
    · exact (confined_getHandler hlogin).safe
        (fun c hc => setsTrue_of_area (status_not_mem_areasOf hlogin) hc.area) js time
  | connStatus conn status => exact absurd rfl (ha conn status)
  | removeConnStatus conn => exact ⟨nofun, fun _ _ => trivial⟩
  | down conn =>
    refine Program.safe_bind.2 ⟨nofun, fun it _ => ?_⟩
    cases it with
    | none => exact ⟨nofun, fun _ _ => ⟨nofun, fun _ _ => trivial⟩⟩
    | some userId =>
      refine ⟨nofun, fun _ _ => ⟨nofun, fun _ _ => ⟨nofun, fun _ _ => ⟨nofun, fun _ _ => ?_⟩⟩⟩⟩
      show Program.Safe _ _ (if userId ≠ -1 then setOffline userId else pure ()) _
      rw [Program.safe_ite]
      exact ⟨fun _ => ⟨nofun, fun _ _ => ⟨nofun, fun _ _ => ⟨nofun, fun _ _ => trivial⟩⟩⟩,
        fun _ => ⟨nofun, fun _ _ => trivial⟩⟩
  | heartbeat =>
    -- a status is only set in the name of a connection
    refine (Activity.ofConn_body .heartbeat).mono (fun c hc => ?_) (fun _ _ h => h) fun _ h => h
    rintro d b rfl
    cases hc

theorem drops_dropConn {conns : List Conn} {d : Conn} (hd : d ∈ conns) :
    (dropConn d).Safe (Drops conns) (fun _ _ => True) fun _ => True :=
  (safe_dropConn d).mono (fun _ hc => ⟨hc.2.1, fun e he => hc.2.2 e he ▸ hd⟩) (fun _ _ _ => trivial) fun _ h => h

/-- The rest of a check, when the first loop is done. -/
theorem drops_checkIfConnAlive (conns : List Conn) :
    (forM conns dropConn : Task Unit).Safe (Drops conns) (fun _ _ => True) fun _ => True :=
  Program.safe_forM (fun _ hd => drops_dropConn hd) trivial

/-- What has nothing left to call can call nothing. -/
theorem safe_of_not_running {P : Cmd → Prop} {p : Task Unit} (h : p.running = false) :
    p.Safe P (fun _ _ => True) fun _ => True := by
  cases p with
  | ret | throw => trivial
  | call c next => cases h

end Programs

/-! ## The threads -/

/-- What holds of the threads and of the queue, whatever is asked of the steps. -/
structure Disciplined (s : Watching) : Prop where
  queue : ∀ x ∈ s.threads.queue, ∃ d msgid js time, x.1 = .request d msgid js time
  ofConn : ∀ th ∈ s.threads.threads, th.rest.Safe (Cmd.OfConn th.task) (fun _ _ => True) fun _ => True
  setsTrue : ∀ th ∈ s.threads.threads, th.rest.Safe SetsTrue (fun _ _ => True) fun _ => True
  checks : ∀ th ∈ s.threads.threads, th.task = .heartbeat → th.rest = checkIfConnAlive ∨
    th.rest.Safe (Drops s.connectionsToDelete) (fun _ _ => True) fun _ => True
  one : s.threads.threads.countP isHeartbeat ≤ 1

namespace Disciplined

variable {env : Environment} {s t : Watching}

theorem congr (h : Disciplined s) (hqueue : t.threads.queue = s.threads.queue)
    (hthreads : t.threads.threads = s.threads.threads) (hconns : t.connectionsToDelete = s.connectionsToDelete) :
    Disciplined t := by
  constructor
  · rw [hqueue]
    exact h.queue
  · rw [hthreads]
    exact h.ofConn
  · rw [hthreads]
    exact h.setsTrue
  · rw [hthreads, hconns]
    exact h.checks
  · rw [hthreads]
    exact h.one

/-- A thread comes. -/
theorem start_task (h : Disciplined s) {task : Activity}
    (hthreads : t.threads.threads.Perm (⟨task, task.body⟩ :: s.threads.threads))
    (hqueue : ∀ x ∈ t.threads.queue, x ∈ s.threads.queue) (hconns : t.connectionsToDelete = s.connectionsToDelete)
    (hstatus : ∀ conn status, task ≠ .connStatus conn status)
    (hone : task = .heartbeat → s.threads.threads.any isHeartbeat = false) : Disciplined t := by
  constructor
  · exact fun x hx => h.queue x (hqueue x hx)
  · intro th hth
    rcases List.mem_cons.1 (hthreads.mem_iff.1 hth) with rfl | hth
    · exact task.ofConn_body
    · exact h.ofConn th hth
  · intro th hth
    rcases List.mem_cons.1 (hthreads.mem_iff.1 hth) with rfl | hth
    · exact setsTrue_body hstatus
    · exact h.setsTrue th hth
  · intro th hth htask
    rcases List.mem_cons.1 (hthreads.mem_iff.1 hth) with rfl | hth
    · obtain rfl : task = .heartbeat := htask
      exact .inl rfl
    · rw [hconns]
      exact h.checks th hth htask
  · have hone' := h.one
    rw [hthreads.countP_eq, List.countP_cons]
    by_cases htask : task = .heartbeat
    · have hnone : s.threads.threads.countP isHeartbeat = 0 := by
        rw [List.countP_eq_zero]
        intro th hth hheartbeat
        have hany := List.any_eq_false.1 (hone htask) th hth
        exact hany hheartbeat
      split <;> omega
    · have hnot : isHeartbeat ⟨task, task.body⟩ = false := by
        cases task <;> first | rfl | exact absurd rfl htask
      simp only [hnot, Bool.false_eq_true, if_false]
      omega

variable {th : Thread Ans Fault Activity} {others : List (Thread Ans Fault Activity)}

theorem finish (h : Disciplined s) (hthreads : s.threads.threads.Perm (th :: others))
    (hthreads' : t.threads.threads.Perm others) (hqueue : t.threads.queue = s.threads.queue)
    (hconns : t.connectionsToDelete = s.connectionsToDelete) : Disciplined t := by
  have hmem : ∀ th' ∈ t.threads.threads, th' ∈ s.threads.threads :=
    fun th' hth' => hthreads.mem_iff.2 (List.mem_cons_of_mem _ (hthreads'.mem_iff.1 hth'))
  constructor
  · rw [hqueue]
    exact h.queue
  · exact fun th' hth' => h.ofConn th' (hmem th' hth')
  · exact fun th' hth' => h.setsTrue th' (hmem th' hth')
  · rw [hconns]
    exact fun th' hth' => h.checks th' (hmem th' hth')
  · have hone := h.one
    rw [hthreads.countP_eq, List.countP_cons] at hone
    rw [hthreads'.countP_eq]
    omega

/-- A thread calls a command. -/
theorem call {c : Cmd} {next : Ans c → Task Unit} (h : Disciplined s) (hrest : th.rest = .call c next)
    (hthreads : s.threads.threads.Perm (th :: others))
    (hthreads' : t.threads.threads.Perm ({ th with rest := next (exec env c s.threads.shared).1 } :: others))
    (hqueue : t.threads.queue = s.threads.queue)
    (hconns : t.connectionsToDelete =
      if isSweep c then s.threads.shared.silent else s.connectionsToDelete) : Disciplined t := by
  have hmem : th ∈ s.threads.threads := hthreads.mem_iff.2 (List.mem_cons_self ..)
  have hothers : ∀ th' ∈ others, th' ∈ s.threads.threads :=
    fun th' hth' => hthreads.mem_iff.2 (List.mem_cons_of_mem _ hth')
  have hofConn := h.ofConn th hmem
  have hsetsTrue := h.setsTrue th hmem
  rw [hrest] at hofConn hsetsTrue
  constructor
  · rw [hqueue]
    exact h.queue
  · intro th' hth'
    rcases List.mem_cons.1 (hthreads'.mem_iff.1 hth') with rfl | hth'
    · exact hofConn.2 _ trivial
    · exact h.ofConn th' (hothers th' hth')
  · intro th' hth'
    rcases List.mem_cons.1 (hthreads'.mem_iff.1 hth') with rfl | hth'
    · exact hsetsTrue.2 _ trivial
    · exact h.setsTrue th' (hothers th' hth')
  · intro th' hth' htask
    by_cases hsweep : c = .sweepConnStatus
    · subst hsweep
      have hheartbeat : th.task = .heartbeat := hofConn.1
      rw [hconns, isSweep, if_pos rfl]
      rcases List.mem_cons.1 (hthreads'.mem_iff.1 hth') with rfl | hth'
      · -- the first loop has collected who was silent
        rcases h.checks th hmem hheartbeat with hbody | hdrops
        · rw [hrest] at hbody
          cases hbody
          exact .inr (drops_checkIfConnAlive _)
        · rw [hrest] at hdrops
          exact absurd rfl hdrops.1.1
      · -- and no other check is running
        have hone := h.one
        have hself : isHeartbeat th = true := by simp [isHeartbeat, hheartbeat, hrest, Program.running]
        rw [hthreads.countP_eq, List.countP_cons, hself, if_pos rfl] at hone
        have hidle : th'.rest.running = false := by
          have hnot := List.countP_eq_zero.1 (by omega : others.countP isHeartbeat = 0) th' hth'
          simpa [isHeartbeat, htask] using hnot
        exact .inr (safe_of_not_running hidle)
    · have hnot : isSweep c = false := by
        cases c <;> first | rfl | exact absurd rfl hsweep
      rw [hconns, hnot, if_neg (by simp)]
      rcases List.mem_cons.1 (hthreads'.mem_iff.1 hth') with rfl | hth'
      · rcases h.checks th hmem htask with hbody | hdrops
        · rw [hrest] at hbody
          cases hbody
          exact absurd rfl hsweep
        · rw [hrest] at hdrops
          exact .inr (hdrops.2 _ trivial)
      · exact h.checks th' (hothers th' hth') htask
  · have hone := h.one
    have hrunning : isHeartbeat { th with rest := next (exec env c s.threads.shared).1 } = true →
        isHeartbeat th = true := by
      cases htask : th.task <;> simp [isHeartbeat, htask, hrest, Program.running]
    rw [hthreads.countP_eq, List.countP_cons] at hone
    rw [hthreads'.countP_eq, List.countP_cons]
    by_cases hnew : isHeartbeat { th with rest := next (exec env c s.threads.shared).1 } = true
    · rw [if_pos hnew]
      rwa [if_pos (hrunning hnew)] at hone
    · rw [if_neg hnew]
      omega

end Disciplined

/-! ## The steps -/

section Steps

variable {env : Environment} {s t : Watching}

theorem sweeps_of_call {a : Pool.Action Activity} {th : Thread Ans Fault Activity} {c : Cmd}
    {next : Ans c → Task Unit} (hth : s.threads.performer a = some th) (hrest : th.rest = .call c next) :
    s.sweeps a = isSweep c := by
  rw [sweeps, Pool.performed_of_call hth hrest]
  simp

theorem sweeps_of_not_call {a : Pool.Action Activity} {th : Thread Ans Fault Activity}
    (hth : s.threads.performer a = some th) (hrest : ∀ c next, th.rest ≠ .call c next) : s.sweeps a = false := by
  rw [sweeps, Pool.performed_of_not_call hth hrest]
  rfl

/-- A step that a thread takes is not one of a loop. -/
theorem loopAfter_of_performer {a : Pool.Action Activity} {th : Thread Ans Fault Activity}
    (hth : s.threads.performer a = some th) : s.loopAfter a = s.loop := by
  cases a with
  | enqueue | dequeue | spawn => cases hth
  | work | loop => rfl

/-- The steps, one for each branch that has a successor. -/
inductive Steps (env : Environment) (s : Watching) : Event → Watching → Prop
  | pool {a : Pool.Action Activity} {threads : Threads} (hallowed : s.allowed a = true)
      (hst : Pool.step Activity.body (exec env) s.threads a = some threads) :
      Steps env s (.pool a) (s.stepPool a threads)
  | up {d : Conn} (hloop : s.loop d = .absent) : Steps env s (.read d .up) (s.setLoop d .connected)
  | bytes {d : Conn} {last : Bool} (hloop : s.loop d = .idle) (hupload : s.uploads d = true) :
      Steps env s (.read d (.bytes last)) ((s.hear d).setUpload d (!last))
  | sendFile {d : Conn} (hloop : s.loop d = .idle) (hupload : s.uploads d = false) :
      Steps env s (.read d (.sendFile true)) (((s.hear d).setUpload d true).setLoop d .removeStatus)
  | refused {d : Conn} (hloop : s.loop d = .idle) (hupload : s.uploads d = false) :
      Steps env s (.read d (.sendFile false)) (s.hear d)
  | sendFileEnd {d : Conn} (hloop : s.loop d = .idle) (hupload : s.uploads d = false) :
      Steps env s (.read d .sendFileEnd) (s.setLoop d .addStatus)
  | message {d : Conn} {msgid : ℤ} {js : Json} {time : String} (hloop : s.loop d = .idle)
      (hupload : s.uploads d = false) :
      Steps env s (.read d (.message msgid js time)) (s.setLoop d (.status msgid js time))
  | connected {d : Conn} (hloop : s.loop d = .connected) (hfree : s.locked = false) :
      Steps env s (.go d) ((s.perform env (setConnStatus d true)).setLoop d .idle)
  | status {d : Conn} {msgid : ℤ} {js : Json} {time : String} (hloop : s.loop d = .status msgid js time)
      (hfree : s.locked = false) :
      Steps env s (.go d) (((s.perform env (setConnStatus d true)).hear d).setLoop d (.enqueue msgid js time))
  | enqueue {d : Conn} {msgid : ℤ} {js : Json} {time : String} {threads : Threads}
      (hloop : s.loop d = .enqueue msgid js time)
      (hst : Pool.step Activity.body (exec env) s.threads (.enqueue (.request d msgid js time)) = some threads) :
      Steps env s (.go d) ({ s with threads }.setLoop d .idle)
  | removeStatus {d : Conn} (hloop : s.loop d = .removeStatus) (hfree : s.locked = false) :
      Steps env s (.go d) ((s.perform env (removeConnStatus d)).setLoop d .idle)
  | addStatus {d : Conn} (hloop : s.loop d = .addStatus) (hfree : s.locked = false) :
      Steps env s (.go d) (((s.perform env (addConnStatus d)).hear d).setLoop d .idle)

theorem steps_of_read {d : Conn} {input : Input} (h : s.stepRead d input = some t) :
    Steps env s (.read d input) t := by
  unfold stepRead at h
  split at h
  case h_1 hloop =>
    obtain rfl := Option.some.inj h
    exact .up hloop
  case h_7 => cases h
  all_goals
    rename_i hloop
    split at h
  case h_2.isTrue hupload =>
    obtain rfl := Option.some.inj h
    exact .bytes hloop hupload
  case h_3.isFalse hupload =>
    obtain rfl := Option.some.inj h
    exact .sendFile hloop (eq_false_of_ne_true hupload)
  case h_4.isFalse hupload =>
    obtain rfl := Option.some.inj h
    exact .refused hloop (eq_false_of_ne_true hupload)
  case h_5.isFalse hupload =>
    obtain rfl := Option.some.inj h
    exact .sendFileEnd hloop (eq_false_of_ne_true hupload)
  case h_6.isFalse hupload =>
    obtain rfl := Option.some.inj h
    simp only [Bool.or_eq_true, not_or, Bool.not_eq_true] at hupload
    exact .message hloop hupload.1.1
  all_goals cases h

theorem steps_of_go {d : Conn} (h : s.stepGo env d = some t) : Steps env s (.go d) t := by
  unfold stepGo at h
  split at h
  case h_3 hloop =>
    obtain ⟨threads, hst, rfl⟩ := Option.map_eq_some_iff.1 h
    exact .enqueue hloop hst
  case h_6 => cases h
  all_goals
    rename_i hloop
    split at h
    case isTrue => cases h
    case isFalse hlocked =>
      have hfree := eq_false_of_ne_true hlocked
      obtain rfl := Option.some.inj h
      first
      | exact .connected hloop hfree
      | exact .status hloop hfree
      | exact .removeStatus hloop hfree
      | exact .addStatus hloop hfree

theorem steps_of_step {e : Event} (h : (machine env).step s e = some t) : Steps env s e t := by
  cases e with
  | pool a =>
    simp only [machine, step] at h
    split at h
    case isFalse => cases h
    case isTrue hallowed =>
      obtain ⟨threads, hthreads, rfl⟩ := Option.map_eq_some_iff.1 h
      exact .pool hallowed hthreads
  | read d input => exact steps_of_read h
  | go d => exact steps_of_go h

theorem disciplined_start (n : ℕ) (w : World) : Disciplined (start env n w) := by
  have hthreads : (start env n w).threads.threads = [] := Pool.threads_start ..
  refine ⟨?_, ?_, ?_, ?_, ?_⟩
  · intro x hx
    cases hx
  all_goals
    rw [hthreads]
    simp

theorem disciplined_step {e : Event} (hst : (machine env).step s e = some t) (h : Disciplined s) : Disciplined t := by
  cases steps_of_step hst with
  | @pool a threads hallowed hpool =>
    cases Pool.takes_of_step _ _ hpool with
    | enqueue task => cases hallowed
    | dequeue i k task hshared hperm hqueue =>
      obtain ⟨d, msgid, js, time, rfl⟩ := h.queue (task, k) (hqueue ▸ List.mem_cons_self ..)
      exact h.start_task hperm (fun x hx => hqueue ▸ List.mem_cons_of_mem _ hx) rfl (by simp) (by simp)
    | spawn task hshared hperm hqueue =>
      have hstatus : ∀ d status, task ≠ .connStatus d status := by
        rintro d status rfl
        cases hallowed
      have hone : task = .heartbeat → s.threads.threads.any isHeartbeat = false := by
        rintro rfl
        simpa [allowed] using hallowed
      exact h.start_task hperm (fun x hx => hqueue ▸ hx) rfl hstatus hone
    | call th others c next hth hrest hperm hperm' hshared hqueue =>
      refine h.call hrest hperm hperm' hqueue ?_
      rw [← sweeps_of_call hth hrest]
      rfl
    | finish th others hth hrest hperm hperm' hshared hqueue =>
      refine h.finish hperm hperm' hqueue ?_
      show (if s.sweeps a then _ else _) = _
      rw [sweeps_of_not_call hth hrest]
      rfl
  | @enqueue d msgid js time threads hloop hpool =>
    cases Pool.takes_of_step _ _ hpool with
    | enqueue task hshared hsame hqueue =>
      refine ⟨fun x hx => ?_, hsame ▸ h.ofConn, hsame ▸ h.setsTrue, hsame ▸ h.checks, hsame ▸ h.one⟩
      rcases List.mem_append.1 (hqueue ▸ hx : x ∈ s.threads.queue ++ _) with hx | hx
      · exact h.queue x hx
      · exact ⟨d, msgid, js, time, congrArg Prod.fst (List.mem_singleton.1 hx)⟩
    | call th others c next hth => cases hth
    | finish th others hth => cases hth
  | up | bytes | sendFile | refused | sendFileEnd | message | connected | status | removeStatus | addStatus =>
    exact h.congr rfl rfl rfl

end Steps

end Watching

end Chatroom.Service
