import Chatroom.Service.Connections
import Chatroom.Service.Session

/-!
# What is left of a connection that is closed

The server with the uploads of its codec, as connections open, send messages and files, and close: the event loop of
a connection runs its callbacks one after the other, `onConnection` of the connection that is down is the last, and the
handlers of its messages may still be queued or running then. When they have returned and two more heartbeat checks
have run, no map refers to the connection, if the steps were careful (`forgotten_of_run`); a file that was cut off, or
a handler that asks `m_connUserMap` too late, leaves an entry for good (`remembered`).
-/

namespace Chatroom.Service

open Lib Pool

structure Serving where
  threads : Threads
  /-- the connections in `m_fileTransferStates` -/
  uploads : Conn → Bool
  /-- the connections for which `onConnection` was called to say that they are down -/
  gone : Conn → Bool
  /-- the number of heartbeat checks so far -/
  checks : ℕ

namespace Serving

inductive Event where
  /-- a step of the threads; a connection's message, status or end comes from its own event loop -/
  | pool (a : Pool.Action Activity)
  /-- SEND_FILE enters the connection into `m_fileTransferStates` -/
  | beginUpload (conn : Conn)
  /-- the last byte, or SEND_FILE_END, erases it -/
  | endUpload (conn : Conn)

variable (env : Environment)

/-- No connection, no message, no thread; the constructor of `Server` has run on the tables of `w`. -/
def start (n : ℕ) (w : World) : Serving := ⟨Pool.start n (boot env w), fun _ => false, fun _ => false, 0⟩

/-- A function that the event loop of the connection called has not returned. -/
def busy (s : Serving) (conn : Conn) : Bool :=
  s.threads.loops.any fun th => decide (th.task.conn = some conn) && th.rest.running

/-- The event loop comes to the next event of the connection. -/
def ready (s : Serving) (conn : Conn) : Bool := !s.gone conn && !s.busy conn

def allowed (s : Serving) : Pool.Action Activity → Bool
  | .enqueue (.request conn _ _ _) => s.ready conn
  | .enqueue _ => false
  | .spawn (.request _ _ _ _) => false
  | .spawn (.connStatus conn _) => s.ready conn
  | .spawn (.removeConnStatus conn) => s.ready conn
  | .spawn (.down conn) => s.ready conn
  | _ => true

/-- The connection that goes down with a step. -/
def closes : Pool.Action Activity → Option Conn
  | .spawn (.down conn) => some conn
  | _ => none

def isCheck : Cmd → Bool
  | .sweepConnStatus => true
  | _ => false

def step (s : Serving) : Event → Option Serving
  | .pool a =>
    if s.allowed a then
      ((server env).step s.threads a).map fun threads =>
        { s with
          threads
          gone := fun conn => s.gone conn || decide (closes a = some conn)
          checks := s.checks + (s.threads.performed a).countP isCheck }
    else none
  | .beginUpload conn => if s.ready conn then some { s with uploads := Function.update s.uploads conn true } else none
  | .endUpload conn => if s.ready conn then some { s with uploads := Function.update s.uploads conn false } else none

def machine : Machine Serving Event := ⟨step env⟩

/-! ## What is asked of the steps -/

variable (conn : Conn)

/-- `clientClose` has looked for the user of the connection. -/
def Seen (s : Serving) : Prop :=
  s.gone conn = true ∧ ∀ th ∈ s.threads.threads, th.task = .down conn → th.rest ≠ (Activity.down conn).body

/-- What a command must not do to the connection, when the thread `th` calls it. -/
structure CarefulCall (s : Serving) (th : Thread Ans Fault Activity) (c : Cmd) : Prop where
  /-- `m_connUserMap[conn]` inserts nothing after `clientClose`, unless the heartbeat will erase it -/
  asks : c = .connUser conn → Seen conn s →
    s.threads.shared.connUserMap conn ≠ none ∨ s.threads.shared.connStatusMap.lookup conn ≠ none
  /-- `m_userConnMap` is given the connection for its user, or by the login that makes him its user -/
  enters : ∀ u, c = .setUserConn u conn →
    s.threads.shared.connUserMap conn = some u ∨ th.rest.WillCall (.setConnUser conn u)
  /-- two users do not log in on one connection -/
  logsIn : ∀ u, c = .setConnUser conn u → ∀ v, v ≠ u → s.threads.shared.userConnMap v ≠ some conn
  /-- the user of the connection is forgotten only when `m_userConnMap` has forgotten the connection, or
  `clientClose` goes on to erase it there -/
  leaves : c = .eraseConnUser conn → ∀ u, s.threads.shared.connUserMap conn = some u →
    s.threads.shared.userConnMap u = some conn → th.task = .down conn ∧ th.rest.WillCall (.eraseUserConn u)
  /-- after `clientClose` the status is erased only with the user, or while a login is about to enter it -/
  silences : c = .eraseConnStatus conn → Seen conn s → s.threads.shared.connUserMap conn = none ∨
    th.rest.WillCall (.eraseConnUser conn) ∨ ∃ th' ∈ s.threads.threads, th'.rest.WillCall (.setConnStatus conn true)

/-- What a step must not do to the connection: no file is cut off either. -/
structure Careful (s : Serving) (e : Event) : Prop where
  calls : ∀ a, e = .pool a → ∀ th, s.threads.performer a = some th → ∀ c next, th.rest = .call c next →
    CarefulCall conn s th c
  uploads : e = .pool (.spawn (.down conn)) → s.uploads conn = false

/-- `onConnection` has returned for the connection that is down, and so have the handlers of its messages. -/
structure Finished (s : Serving) : Prop where
  gone : s.gone conn = true
  queue : ∀ x ∈ s.threads.queue, x.1.conn ≠ some conn
  threads : ∀ th ∈ s.threads.threads, th.task.conn = some conn → th.rest.running = false

/-- No entry of a map has the connection as key or value. -/
structure Forgotten (s : Serving) : Prop where
  userConnMap : ∀ u, s.threads.shared.userConnMap u ≠ some conn
  connUserMap : s.threads.shared.connUserMap conn = none
  connStatusMap : s.threads.shared.connStatusMap.lookup conn = none
  fileTransferStates : s.uploads conn = false

/-! ## The invariant -/

/-- Who is mapped to the connection is its user, or about to be, or about to be erased; and when `clientClose` has
looked, a connection with a user has a status, or is about to be given one or to be erased. -/
structure Kept (s : Serving) : Prop where
  users : ∀ u, s.threads.shared.userConnMap u = some conn → s.threads.shared.connUserMap conn = some u ∨
    Bound (fun _ => True) s.threads.threads (.setConnUser conn u) ∨
    Bound (· = .down conn) s.threads.threads (.eraseUserConn u)
  status : ∀ u, s.threads.shared.connUserMap conn = some u → Seen conn s →
    s.threads.shared.connStatusMap.lookup conn ≠ none ∨
    Bound (fun _ => True) s.threads.threads (.setConnStatus conn true) ∨
    Bound (fun _ => True) s.threads.threads (.eraseConnUser conn)
  uploads : s.gone conn = true → s.uploads conn = false
  ofConn : ∀ th ∈ s.threads.threads, th.rest.Safe (Cmd.OfConn th.task) (fun _ _ => True) fun _ => True
  follows : ∀ th ∈ s.threads.threads, th.rest.Follows Cmd.Entails

variable {env conn} {s t : Serving}

theorem kept_start (n : ℕ) (w : World) : Kept conn (start env n w) := by
  have hthreads : (start env n w).threads.threads = [] := Pool.threads_start ..
  have hconn : (boot env w).connUserMap conn = none := congrFun (boot_connUserMap w) conn
  refine ⟨fun u hu => ?_, fun u hu => ?_, nofun, ?_, ?_⟩
  · exact .inl (((consistent_boot w).maps u conn).1 hu)
  · cases hconn.symm.trans hu
  · rw [hthreads]
    simp
  · rw [hthreads]
    simp

/-- `clientClose` looks for the user of the connection first, and erases the entry that it finds. -/
theorem body_down : ∃ next, (Activity.down conn).body = .call (.findConnUser conn) next ∧
    ∀ u, (next (some u)).WillCall (.eraseConnUser conn) :=
  ⟨_, rfl, fun _ => .inr fun _ => .inl rfl⟩

namespace Kept

theorem congr (h : Kept conn s) (hshared : t.threads.shared = s.threads.shared)
    (hthreads : t.threads.threads = s.threads.threads) (hgone : t.gone conn = s.gone conn)
    (huploads : t.gone conn = true → t.uploads conn = false) : Kept conn t := by
  refine ⟨?_, ?_, huploads, ?_, ?_⟩
  · rw [hshared, hthreads]
    exact h.users
  · rw [hshared, hthreads]
    exact fun u hu hseen => h.status u hu ⟨hgone ▸ hseen.1, hthreads ▸ hseen.2⟩
  · rw [hthreads]
    exact h.ofConn
  · rw [hthreads]
    exact h.follows

variable {th : Thread Ans Fault Activity} {others : List (Thread Ans Fault Activity)}

theorem start_task (h : Kept conn s) {task : Activity} (hshared : t.threads.shared = s.threads.shared)
    (hthreads : t.threads.threads.Perm (⟨task, task.body⟩ :: s.threads.threads))
    (hgone : t.gone conn = true → s.gone conn = true ∨ task = .down conn)
    (huploads : t.gone conn = true → t.uploads conn = false) : Kept conn t := by
  have hmem : ∀ th ∈ s.threads.threads, th ∈ t.threads.threads :=
    fun th hth => hthreads.mem_iff.2 (List.mem_cons_of_mem _ hth)
  refine ⟨fun u hu => ?_, fun u hu hseen => ?_, huploads, fun th hth => ?_, fun th hth => ?_⟩
  · rw [hshared] at hu ⊢
    exact (h.users u hu).imp_right (Or.imp (·.mono hmem) (·.mono hmem))
  · have hseen' : Seen conn s := by
      refine ⟨(hgone hseen.1).resolve_right ?_, fun th hth => hseen.2 th (hmem th hth)⟩
      rintro rfl
      exact hseen.2 _ (hthreads.mem_iff.2 (List.mem_cons_self ..)) rfl rfl
    rw [hshared] at hu ⊢
    exact (h.status u hu hseen').imp_right (Or.imp (·.mono hmem) (·.mono hmem))
  · rcases List.mem_cons.1 (hthreads.mem_iff.1 hth) with rfl | hth
    · exact task.ofConn_body
    · exact h.ofConn th hth
  · rcases List.mem_cons.1 (hthreads.mem_iff.1 hth) with rfl | hth
    · exact task.follows_body
    · exact h.follows th hth

theorem finish (h : Kept conn s) (hrest : ∀ c next, th.rest ≠ .call c next)
    (hthreads : s.threads.threads.Perm (th :: others)) (hthreads' : t.threads.threads.Perm others)
    (hshared : t.threads.shared = s.threads.shared) (hgone : t.gone conn = s.gone conn)
    (huploads : t.uploads conn = s.uploads conn) : Kept conn t := by
  have hbound : ∀ {p c}, Bound p s.threads.threads c → Bound p t.threads.threads c := fun hb =>
    hb.finish hrest hthreads hthreads'
  refine ⟨fun u hu => ?_, fun u hu hseen => ?_, ?_, fun th' hth' => ?_, fun th' hth' => ?_⟩
  · rw [hshared] at hu ⊢
    exact (h.users u hu).imp_right (Or.imp hbound hbound)
  · have hseen' : Seen conn s := by
      refine ⟨hgone ▸ hseen.1, fun th' hth' htask => ?_⟩
      rcases List.mem_cons.1 (hthreads.mem_iff.1 hth') with rfl | hth'
      · obtain ⟨next, hbody, -⟩ := @body_down conn
        rw [hbody]
        exact hrest _ _
      · exact hseen.2 th' (hthreads'.mem_iff.2 hth') htask
    rw [hshared] at hu ⊢
    exact (h.status u hu hseen').imp_right (Or.imp hbound hbound)
  · rw [hgone, huploads]
    exact h.uploads
  · exact h.ofConn th' (hthreads.mem_iff.2 (List.mem_cons_of_mem _ (hthreads'.mem_iff.1 hth')))
  · exact h.follows th' (hthreads.mem_iff.2 (List.mem_cons_of_mem _ (hthreads'.mem_iff.1 hth')))

section Call

variable {c : Cmd} {next : Ans c → Task Unit} (hrest : th.rest = .call c next)
  (hthreads : s.threads.threads.Perm (th :: others)) (hcareful : CarefulCall conn s th c)
  (hthreads' : t.threads.threads.Perm ({ th with rest := next (exec env c s.threads.shared).1 } :: others))
  (hshared : t.threads.shared = (exec env c s.threads.shared).2)

include hrest hthreads' in
/-- What the thread is bound to call after its command. -/
theorem bound_of_rest {p : Activity → Prop} {d : Cmd} (hp : p th.task) (hwill : th.rest.WillCall d) (hne : c ≠ d) :
    Bound p t.threads.threads d := by
  rw [hrest] at hwill
  exact bound_of_willCall hthreads' hp (hwill.next hne _)

include hrest hthreads hcareful hthreads' hshared in
theorem users_call (h : Kept conn s) {u : ℤ} (hu : t.threads.shared.userConnMap u = some conn) :
    t.threads.shared.connUserMap conn = some u ∨
      Bound (fun _ => True) t.threads.threads (.setConnUser conn u) ∨
      Bound (· = .down conn) t.threads.threads (.eraseUserConn u) := by
  rw [hshared] at hu ⊢
  rcases userConn_exec hu with rfl | ⟨hu, herase⟩
  · -- the connection is entered for `u`
    rcases hcareful.enters u rfl with huser | hlogin
    · exact .inl huser
    · exact .inr (.inl (bound_of_rest hrest hthreads' trivial hlogin nofun))
  · rcases h.users u hu with huser | hb | hb
    · have hstays : (exec env c s.threads.shared).2.connUserMap conn = some u ∨ c = .eraseConnUser conn ∨
          ∃ v, v ≠ u ∧ c = .setConnUser conn v := connUser_exec_of_some huser
      rcases hstays with huser' | rfl | ⟨v, hv, rfl⟩
      · exact .inl huser'
      · obtain ⟨htask, hclose⟩ := hcareful.leaves rfl u huser hu
        exact .inr (.inr (bound_of_rest hrest hthreads' htask hclose nofun))
      · exact absurd hu (hcareful.logsIn v rfl u (Ne.symm hv))
    · by_cases hc : c = .setConnUser conn u
      · subst hc
        exact .inl (Function.update_self ..)
      · exact .inr (.inl (hb.call hthreads' hrest hthreads hc))
    · exact .inr (.inr (hb.call hthreads' hrest hthreads herase))

include hthreads hthreads' in
/-- `clientClose` had looked before the command, or the command is its first. -/
theorem seen_or_body (hgone : t.gone conn = s.gone conn) (hseen : Seen conn t) :
    Seen conn s ∨ (th.task = .down conn ∧ th.rest = (Activity.down conn).body) := by
  by_contra hnot
  push Not at hnot
  refine hnot.1 ⟨hgone ▸ hseen.1, fun th' hth' htask => ?_⟩
  rcases List.mem_cons.1 (hthreads.mem_iff.1 hth') with rfl | hth'
  · exact hnot.2 htask
  · exact hseen.2 th' (hthreads'.mem_iff.2 (List.mem_cons_of_mem _ hth')) htask

include hrest hthreads hcareful hthreads' hshared in
theorem status_call (h : Kept conn s) (hgone : t.gone conn = s.gone conn) {u : ℤ}
    (hu : t.threads.shared.connUserMap conn = some u) (hseen : Seen conn t) :
    t.threads.shared.connStatusMap.lookup conn ≠ none ∨
      Bound (fun _ => True) t.threads.threads (.setConnStatus conn true) ∨
      Bound (fun _ => True) t.threads.threads (.eraseConnUser conn) := by
  have hfollows := h.follows th (hthreads.mem_iff.2 (List.mem_cons_self ..))
  rw [hrest] at hfollows
  have hstatus : s.threads.shared.connStatusMap.lookup conn ≠ none →
      t.threads.shared.connStatusMap.lookup conn ≠ none ∨ c = .eraseConnStatus conn := by
    rw [hshared]
    exact connStatus_exec_of_ne_none
  obtain ⟨close, hbody, hclose⟩ := @body_down conn
  rw [hshared] at hu
  rcases seen_or_body hthreads hthreads' hgone hseen with hseen' | ⟨-, hstart⟩
  · rcases connUser_exec hu with rfl | ⟨rfl, hnone⟩ | ⟨huser, herase⟩
    · exact .inr (.inl (bound_of_willCall hthreads' trivial ((hfollows _).1 _ rfl)))
    · have hentry := (hcareful.asks rfl hseen').resolve_left (absurd hnone)
      exact .inl ((hstatus hentry).resolve_right (by simp))
    · rcases h.status u huser hseen' with hentry | hb | hb
      · rcases hstatus hentry with hentry' | rfl
        · exact .inl hentry'
        · rcases hcareful.silences rfl hseen' with hnone | herases | ⟨th', hth', hlogin⟩
          · cases hnone.symm.trans huser
          · exact .inr (.inr (bound_of_rest hrest hthreads' trivial herases (by simp)))
          · have hb : Bound (fun _ => True) s.threads.threads (.setConnStatus conn true) := ⟨th', hth', trivial, hlogin⟩
            exact .inr (.inl (hb.call hthreads' hrest hthreads (by simp)))
      · by_cases hc : c = .setConnStatus conn true
        · subst hc
          refine .inl ?_
          rw [hshared, exec, Table.lookup_insert', if_pos rfl]
          simp
        · exact .inr (.inl (hb.call hthreads' hrest hthreads hc))
      · exact .inr (.inr (hb.call hthreads' hrest hthreads herase))
  · -- `clientClose` finds `u`
    rw [hbody, hrest] at hstart
    cases hstart
    refine .inr (.inr (bound_of_willCall hthreads' trivial ?_))
    rw [show (exec env (.findConnUser conn) s.threads.shared).1 = some u from hu]
    exact hclose u

include hrest hthreads hcareful hthreads' hshared in
/-- A thread calls a command. -/
theorem call (h : Kept conn s) (hgone : t.gone conn = s.gone conn) (huploads : t.uploads conn = s.uploads conn) :
    Kept conn t := by
  have hth : th ∈ s.threads.threads := hthreads.mem_iff.2 (List.mem_cons_self ..)
  refine ⟨fun u => h.users_call hrest hthreads hcareful hthreads' hshared,
    fun u => h.status_call hrest hthreads hcareful hthreads' hshared hgone, ?_, fun th' hth' => ?_, fun th' hth' => ?_⟩
  · rw [hgone, huploads]
    exact h.uploads
  · rcases List.mem_cons.1 (hthreads'.mem_iff.1 hth') with rfl | hth'
    · have hofConn := h.ofConn th hth
      rw [hrest] at hofConn
      exact hofConn.2 _ trivial
    · exact h.ofConn th' (hthreads.mem_iff.2 (List.mem_cons_of_mem _ hth'))
  · rcases List.mem_cons.1 (hthreads'.mem_iff.1 hth') with rfl | hth'
    · have hfollows := h.follows th hth
      rw [hrest] at hfollows
      exact (hfollows _).2
    · exact h.follows th' (hthreads.mem_iff.2 (List.mem_cons_of_mem _ hth'))

end Call

end Kept

theorem ready_iff {d : Conn} : s.ready d = true ↔ s.gone d = false ∧ s.busy d = false := by
  simp [ready]

/-- A task that is enqueued or spawned is not of a connection that has gone down. -/
theorem gone_of_allowed {a : Pool.Action Activity} (h : s.allowed a = true) {task : Activity}
    (ha : a = .enqueue task ∨ a = .spawn task) {d : Conn} (hd : task.conn = some d) : s.gone d = false := by
  rcases ha with rfl | rfl
  all_goals
    cases task with
    | heartbeat => cases hd
    | request d' | connStatus d' | removeConnStatus d' | down d' =>
      obtain rfl : d' = d := Option.some.inj hd
      first
      | exact (ready_iff.1 h).1
      | cases h

theorem closes_eq_some {a : Pool.Action Activity} {d : Conn} : closes a = some d ↔ a = .spawn (.down d) := by
  constructor
  · intro h
    unfold closes at h
    split at h
    · rw [Option.some.inj h]
    · cases h
  · rintro rfl
    rfl

/-- A step that a thread takes closes no connection. -/
theorem closes_of_performer {a : Pool.Action Activity} {th : Thread Ans Fault Activity}
    (hth : s.threads.performer a = some th) : closes a = none := by
  cases a with
  | enqueue | dequeue | spawn => cases hth
  | work | loop => rfl

/-- The steps, one for each branch that has a successor. -/
inductive Steps (env : Environment) (s : Serving) : Event → Serving → Prop
  | pool {a : Pool.Action Activity} {threads : Threads} (hallowed : s.allowed a = true)
      (hst : Pool.step Activity.body (exec env) s.threads a = some threads) : Steps env s (.pool a)
      { s with
        threads
        gone := fun conn => s.gone conn || decide (closes a = some conn)
        checks := s.checks + (s.threads.performed a).countP isCheck }
  | beginUpload {d : Conn} (hready : s.ready d = true) :
      Steps env s (.beginUpload d) { s with uploads := Function.update s.uploads d true }
  | endUpload {d : Conn} (hready : s.ready d = true) :
      Steps env s (.endUpload d) { s with uploads := Function.update s.uploads d false }

theorem steps_of_step {e : Event} (h : (machine env).step s e = some t) : Steps env s e t := by
  cases e with
  | pool a =>
    simp only [machine, step] at h
    split at h
    case isFalse => cases h
    case isTrue hallowed =>
      obtain ⟨threads, hthreads, rfl⟩ := Option.map_eq_some_iff.1 h
      exact .pool hallowed hthreads
  | beginUpload d =>
    simp only [machine, step] at h
    split at h
    case isFalse => cases h
    case isTrue hready =>
      obtain rfl := Option.some.inj h
      exact .beginUpload hready
  | endUpload d =>
    simp only [machine, step] at h
    split at h
    case isFalse => cases h
    case isTrue hready =>
      obtain rfl := Option.some.inj h
      exact .endUpload hready

theorem kept_step {e : Event} (hok : Careful conn s e) (hst : (machine env).step s e = some t) (h : Kept conn s) :
    Kept conn t := by
  have hupload : ∀ (d : Conn) (b : Bool), s.ready d = true →
      Kept conn { s with uploads := Function.update s.uploads d b } := by
    intro d b hready
    refine h.congr rfl rfl rfl fun hgone => ?_
    have hne : conn ≠ d := by
      rintro rfl
      rw [(ready_iff.1 hready).1] at hgone
      cases hgone
    exact (Function.update_of_ne hne ..).trans (h.uploads hgone)
  cases steps_of_step hst with
  | @pool a threads hallowed hpool =>
    cases Pool.takes_of_step _ _ hpool with
    | enqueue task hshared hsame hqueue =>
      exact h.congr hshared hsame (by simp [closes]) (by simpa [closes] using h.uploads)
    | dequeue i k task hshared hperm hqueue =>
      exact h.start_task hshared hperm (by simp +contextual [closes]) (by simpa [closes] using h.uploads)
    | spawn task hshared hperm hqueue =>
      refine h.start_task hshared hperm (fun hgone => ?_) fun hgone => ?_
      · simpa [closes_eq_some] using hgone
      · have hcases : s.gone conn = true ∨ task = .down conn := by simpa [closes_eq_some] using hgone
        rcases hcases with hgone | rfl
        · exact h.uploads hgone
        · exact hok.uploads rfl
    | call th others c next hth hrest hperm hperm' hshared hqueue =>
      exact h.call hrest hperm (hok.calls a rfl th hth c next hrest) hperm' hshared
        (by simp [closes_of_performer hth]) rfl
    | finish th others hth hrest hperm hperm' hshared hqueue =>
      exact h.finish hrest hperm hperm' hshared (by simp [closes_of_performer hth]) rfl
  | beginUpload hready => exact hupload _ true hready
  | endUpload hready => exact hupload _ false hready

/-! ## After the last handler -/

/-- No task of the connection starts any more. -/
theorem Finished.start (h : Finished conn s) {task : Activity} (htask : task.conn ≠ some conn) :
    ∀ th ∈ (⟨task, task.body⟩ :: s.threads.threads : List (Thread Ans Fault Activity)), th.task.conn = some conn →
      th.rest.running = false := by
  intro th hth hconn
  rcases List.mem_cons.1 hth with rfl | hth
  · exact absurd hconn htask
  · exact h.threads th hth hconn

theorem Finished.not_call (h : Finished conn s) {th : Thread Ans Fault Activity} (hth : th ∈ s.threads.threads)
    (hconn : th.task.conn = some conn) (c : Cmd) (next : Ans c → Task Unit) : th.rest ≠ .call c next := by
  intro hrest
  have hidle := h.threads th hth hconn
  rw [hrest] at hidle
  cases hidle

theorem finished_step {e : Event} (hst : (machine env).step s e = some t) (h : Finished conn s) : Finished conn t := by
  cases steps_of_step hst with
  | @pool a threads hallowed hpool =>
    have hgone : (s.gone conn || decide (closes a = some conn)) = true := by simp [h.gone]
    have hother : ∀ task, a = .enqueue task ∨ a = .spawn task → task.conn ≠ some conn := by
      intro task ha hconn
      have hopen := gone_of_allowed hallowed ha hconn
      rw [h.gone] at hopen
      cases hopen
    cases Pool.takes_of_step _ _ hpool with
    | enqueue task hshared hsame hqueue =>
      refine ⟨hgone, fun x hx => ?_, hsame ▸ h.threads⟩
      rcases List.mem_append.1 (hqueue ▸ hx) with hx | hx
      · exact h.queue x hx
      · rw [List.mem_singleton.1 hx]
        exact hother task (.inl rfl)
    | dequeue i k task hshared hperm hqueue =>
      refine ⟨hgone, fun x hx => h.queue x (hqueue ▸ List.mem_cons_of_mem _ hx), fun th hth => ?_⟩
      exact h.start (h.queue (task, k) (hqueue ▸ List.mem_cons_self ..)) th (hperm.mem_iff.1 hth)
    | spawn task hshared hperm hqueue =>
      refine ⟨hgone, hqueue ▸ h.queue, fun th hth => ?_⟩
      exact h.start (hother task (.inr rfl)) th (hperm.mem_iff.1 hth)
    | call th others c next hth hrest hperm hperm' hshared hqueue =>
      refine ⟨hgone, hqueue ▸ h.queue, fun th' hth' hconn => ?_⟩
      rcases List.mem_cons.1 (hperm'.mem_iff.1 hth') with rfl | hth'
      · exact absurd hrest (h.not_call (hperm.mem_iff.2 (List.mem_cons_self ..)) hconn c next)
      · exact h.threads th' (hperm.mem_iff.2 (List.mem_cons_of_mem _ hth')) hconn
    | finish th others hth hrest hperm hperm' hshared hqueue =>
      refine ⟨hgone, hqueue ▸ h.queue, fun th' hth' => ?_⟩
      exact h.threads th' (hperm.mem_iff.2 (List.mem_cons_of_mem _ (hperm'.mem_iff.1 hth')))
  | beginUpload hready | endUpload hready => exact ⟨h.gone, h.queue, h.threads⟩

/-! ## Two checks later -/

instance (c : Cmd) : Nonempty (Ans c) := ⟨(exec .still c (World.init Db.empty)).1⟩

/-- No thread whose activity may call the command is running. -/
theorem not_bound {p : Activity → Prop} {ths : List (Thread Ans Fault Activity)} {c : Cmd}
    (hofConn : ∀ th ∈ ths, th.rest.Safe (Cmd.OfConn th.task) (fun _ _ => True) fun _ => True)
    (hidle : ∀ th ∈ ths, c.OfConn th.task → th.rest.running = false) : ¬ Bound p ths c := by
  rintro ⟨th, hth, -, hwill⟩
  have hrunning := hwill.running
  rw [hidle th hth (hwill.of_safe (hofConn th hth))] at hrunning
  cases hrunning

variable (conn) in
/-- A check after the first `n` finds the connection silent, and a second erases its status. -/
structure Swept (n : ℕ) (s : Serving) : Prop where
  once : n + 1 ≤ s.checks → s.threads.shared.connStatusMap.lookup conn ≠ some true
  twice : n + 2 ≤ s.checks → s.threads.shared.connStatusMap.lookup conn = none ∨
    Bound (· = .heartbeat) s.threads.threads (.eraseConnStatus conn)

theorem swept_start : Swept conn s.checks s := ⟨by omega, by omega⟩

namespace Swept

variable {n : ℕ}

theorem congr (h : Swept conn n s) (hshared : t.threads.shared = s.threads.shared) (hchecks : t.checks = s.checks)
    (hbound : Bound (· = .heartbeat) s.threads.threads (.eraseConnStatus conn) →
      Bound (· = .heartbeat) t.threads.threads (.eraseConnStatus conn)) : Swept conn n t := by
  refine ⟨fun hn => ?_, fun hn => ?_⟩
  · rw [hshared]
    exact h.once (hchecks ▸ hn)
  · rw [hshared]
    exact (h.twice (hchecks ▸ hn)).imp_right hbound

variable {th : Thread Ans Fault Activity} {others : List (Thread Ans Fault Activity)} {c : Cmd}
  {next : Ans c → Task Unit}

/-- A thread calls a command that does not enter the status of the connection. -/
theorem call (h : Swept conn n s) (hrest : th.rest = .call c next) (hthreads : s.threads.threads.Perm (th :: others))
    (hthreads' : t.threads.threads.Perm ({ th with rest := next (exec env c s.threads.shared).1 } :: others))
    (hshared : t.threads.shared = (exec env c s.threads.shared).2) (hchecks : t.checks = s.checks + [c].countP isCheck)
    (hset : ∀ b, c ≠ .setConnStatus conn b) (hofConn : c.OfConn th.task)
    (hfollows : (Program.call c next : Task Unit).Follows Cmd.Entails) : Swept conn n t := by
  have hnone : s.threads.shared.connStatusMap.lookup conn = none →
      t.threads.shared.connStatusMap.lookup conn = none := by
    intro hs
    rw [hshared, Option.eq_none_iff_forall_ne_some]
    intro b hb
    rcases connStatus_exec hb with hc | ⟨-, -, hentry⟩ | ⟨hentry, -, -⟩
    · exact hset b hc
    · exact hentry hs
    · cases hs.symm.trans hentry
  by_cases hsweep : c = .sweepConnStatus
  · subst hsweep
    have hchecks : t.checks = s.checks + 1 := hchecks
    refine ⟨fun _ hb => ?_, fun hn => ?_⟩
    · rw [hshared] at hb
      rcases connStatus_exec hb with hc | ⟨-, hb, -⟩ | ⟨-, hne, -⟩
      · exact hset true hc
      · cases hb
      · exact hne rfl
    · cases hs : s.threads.shared.connStatusMap.lookup conn with
      | none => exact .inl (hnone hs)
      | some b =>
        -- the check before has reset the status, and this one finds it so
        have hb : b = false := by
          have hsilent := h.once (by omega)
          rw [hs] at hsilent
          simpa using hsilent
        subst hb
        have hlisted : conn ∈ (exec env .sweepConnStatus s.threads.shared).1 :=
          List.mem_filterMap.2 ⟨(conn, false), Table.mem_rows.2 hs, rfl⟩
        have hwill := (hfollows _).1 (.eraseConnStatus conn) ⟨conn, hlisted, rfl⟩
        exact .inr (bound_of_willCall hthreads' hofConn hwill)
  · have hcount : [c].countP isCheck = 0 := by
      cases c <;> first | rfl | exact absurd rfl hsweep
    rw [hcount, Nat.add_zero] at hchecks
    refine ⟨fun hn hb => ?_, fun hn => ?_⟩
    · rw [hshared] at hb
      rcases connStatus_exec hb with hc | ⟨hc, -, -⟩ | ⟨hentry, -, -⟩
      · exact hset true hc
      · exact hsweep hc
      · exact h.once (hchecks ▸ hn) hentry
    · rcases h.twice (hchecks ▸ hn) with hs | hb
      · exact .inl (hnone hs)
      · by_cases herase : c = .eraseConnStatus conn
        · subst herase
          refine .inl ?_
          rw [hshared, exec, AList.lookup_erase]
        · exact .inr (hb.call hthreads' hrest hthreads herase)

end Swept

theorem swept_step {n : ℕ} {e : Event} (hst : (machine env).step s e = some t) (hkept : Kept conn s)
    (hfinished : Finished conn s) (h : Swept conn n s) : Swept conn n t := by
  cases steps_of_step hst with
  | @pool a threads hallowed hpool =>
    cases Pool.takes_of_step _ _ hpool with
    | enqueue task hshared hsame hqueue => exact h.congr hshared rfl fun hb => hsame ▸ hb
    | dequeue i k task hshared hperm hqueue =>
      exact h.congr hshared rfl (·.mono fun _ hth => hperm.mem_iff.2 (List.mem_cons_of_mem _ hth))
    | spawn task hshared hperm hqueue =>
      exact h.congr hshared rfl (·.mono fun _ hth => hperm.mem_iff.2 (List.mem_cons_of_mem _ hth))
    | call th others c next hth hrest hperm hperm' hshared hqueue =>
      have hmem : th ∈ s.threads.threads := hperm.mem_iff.2 (List.mem_cons_self ..)
      have hofConn := hkept.ofConn th hmem
      have hfollows := hkept.follows th hmem
      rw [hrest] at hofConn hfollows
      refine h.call hrest hperm hperm' hshared ?_ ?_ hofConn.1 hfollows
      · rw [Pool.performed_of_call hth hrest]
      · rintro b rfl
        exact hfinished.not_call hmem hofConn.1 _ _ hrest
    | finish th others hth hrest hperm hperm' hshared hqueue =>
      exact h.congr hshared (by simp [Pool.performed_of_not_call hth hrest]) (·.finish hrest hperm hperm')
  | beginUpload hready | endUpload hready => exact h.congr rfl rfl id

/-- When no handler of the connection and no check is running, nothing of what was kept up is left. -/
theorem forgotten_of_idle {n : ℕ} (hkept : Kept conn s) (hfinished : Finished conn s) (hswept : Swept conn n s)
    (hchecks : n + 2 ≤ s.checks)
    (hidle : ∀ th ∈ s.threads.threads, th.task = .heartbeat → th.rest.running = false) : Forgotten conn s := by
  have hconn : ∀ c : Cmd, (∀ a, c.OfConn a → a.conn = some conn ∨ a = .heartbeat) → ∀ {p},
      ¬ Bound p s.threads.threads c := fun c hc p =>
    not_bound hkept.ofConn fun th hth hof => (hc _ hof).elim (hfinished.threads th hth) (hidle th hth)
  have hstatus : s.threads.shared.connStatusMap.lookup conn = none :=
    (hswept.twice hchecks).resolve_right (hconn _ fun _ => id)
  have hseen : Seen conn s := by
    refine ⟨hfinished.gone, fun th hth htask hbody => ?_⟩
    have hdone := hfinished.threads th hth (congrArg Activity.conn htask)
    rw [hbody] at hdone
    cases hdone
  have huser : s.threads.shared.connUserMap conn = none := by
    rw [Option.eq_none_iff_forall_ne_some]
    intro u hu
    rcases hkept.status u hu hseen with hentry | hb | hb
    · exact hentry hstatus
    · exact hconn (.setConnStatus conn true) (fun _ => .inl) hb
    · exact hconn (.eraseConnUser conn) (fun _ => id) hb
  refine ⟨fun u hu => ?_, huser, hstatus, hkept.uploads hfinished.gone⟩
  rcases hkept.users u hu with hentry | hb | ⟨th, hth, htask, hwill⟩
  · cases huser.symm.trans hentry
  · refine hconn (.setConnUser conn u) ?_ hb
    rintro _ ⟨msgid, js, time, rfl⟩
    exact .inl rfl
  · have hrunning := hwill.running
    rw [hfinished.threads th hth (congrArg Activity.conn htask)] at hrunning
    cases hrunning

/-- **Nothing refers to a dead connection.** In every run whose steps are careful with the connection: once it is down
and the handlers of its messages have returned, two heartbeat checks later no map has an entry of it, whatever else
runs meanwhile. -/
theorem forgotten_of_run {n : ℕ} {w₀ : World} {l l' : List Event}
    (hrun : (machine env).Run (Careful conn) (start env n w₀) l s) (hfinished : Finished conn s)
    (hrun' : (machine env).Run (Careful conn) s l' t) (hchecks : s.checks + 2 ≤ t.checks)
    (hidle : ∀ th ∈ t.threads.threads, th.task = .heartbeat → th.rest.running = false) : Forgotten conn t := by
  have hkept : Kept conn s :=
    hrun.invariant (fun _ _ _ hok hst => kept_step hok hst) (kept_start n w₀)
  have hstep : ∀ u e v, Careful conn u e → (machine env).step u e = some v →
      Kept conn u ∧ Finished conn u ∧ Swept conn s.checks u → Kept conn v ∧ Finished conn v ∧ Swept conn s.checks v :=
    fun u e v hok hst ⟨hk, hf, hs⟩ => ⟨kept_step hok hst hk, finished_step hst hf, swept_step hst hk hf hs⟩
  obtain ⟨hk, hf, hs⟩ := hrun'.invariant hstep ⟨hkept, hfinished, swept_start⟩
  exact forgotten_of_idle hk hf hs hchecks hidle

/-! ## Runs -/

section Runs

theorem idle_of_all {ths : List (Thread Ans Fault Activity)} (h : (ths.all fun th => !th.rest.running) = true) :
    ∀ th ∈ ths, th.rest.running = false := by
  simpa using h

theorem finished_of_all (hgone : s.gone conn = true) (hqueue : s.threads.queue = [])
    (h : (s.threads.threads.all fun th => !th.rest.running) = true) : Finished conn s :=
  ⟨hgone, by simp [hqueue], fun th hth _ => idle_of_all h th hth⟩

/-- The connection whose entries a command of the sessions and of the status may change. -/
def touched : Cmd → Option Conn
  | .connUser conn | .setUserConn _ conn | .setConnUser conn _ | .eraseConnUser conn | .eraseConnStatus conn =>
    some conn
  | _ => none

section Careful

variable {a : Pool.Action Activity} {th : Thread Ans Fault Activity} {c : Cmd} {next : Ans c → Task Unit}

theorem careful_of_idle (hth : s.threads.performer a = none) (huploads : s.uploads conn = false) :
    Careful conn s (.pool a) := by
  refine ⟨fun b hb th hth' => ?_, fun _ => huploads⟩
  obtain rfl := Event.pool.inj hb
  cases hth.symm.trans hth'

theorem careful_of_return (hth : s.threads.performer a = some th) (hrest : th.rest.running = false) :
    Careful conn s (.pool a) := by
  refine ⟨fun b hb th' hth' c next hcall => ?_, fun h => ?_⟩
  · obtain rfl := Event.pool.inj hb
    obtain rfl := Option.some.inj (hth.symm.trans hth')
    rw [hcall] at hrest
    cases hrest
  · obtain rfl := Event.pool.inj h
    cases hth

theorem careful_of_call (hth : s.threads.performer a = some th) (hrest : th.rest = .call c next)
    (h : CarefulCall conn s th c) : Careful conn s (.pool a) := by
  refine ⟨fun b hb th' hth' d next' hcall => ?_, fun h => ?_⟩
  · obtain rfl := Event.pool.inj hb
    obtain rfl := Option.some.inj (hth.symm.trans hth')
    rw [hrest] at hcall
    cases hcall
    exact h
  · obtain rfl := Event.pool.inj h
    cases hth

/-- A command that touches no entry of the connection is no danger. -/
theorem careful_of_other (hth : s.threads.performer a = some th) (hrest : th.rest = .call c next)
    (h : touched c ≠ some conn) : Careful conn s (.pool a) := by
  refine careful_of_call hth hrest ⟨?_, ?_, ?_, ?_, ?_⟩
  · rintro rfl
    exact absurd rfl h
  · rintro u rfl
    exact absurd rfl h
  · rintro u rfl
    exact absurd rfl h
  · rintro rfl
    exact absurd rfl h
  · rintro rfl
    exact absurd rfl h

end Careful

/-- A message arrives on the loop, whose `i`-th callback it is, and the only worker takes `n` steps with it. -/
def received (i : ℕ) (conn : Conn) (msgid : EnMsgType) (fields : List (String × Json)) (n : ℕ) : List Event :=
  [.pool (.spawn (.connStatus conn true)), .pool (.loop i),
    .pool (.enqueue (.request conn msgid.code (.obj fields) "")), .pool (.dequeue 0)] ++
    List.replicate n (.pool (.work 0))

/-- The connection goes down, as the `i`-th callback. -/
def hangsUp (i : ℕ) (conn : Conn) (n : ℕ) : List Event :=
  .pool (.spawn (.down conn)) :: List.replicate n (.pool (.loop i))

/-- A check that finds nobody silent. -/
def check (i : ℕ) : List Event := [.pool (.spawn .heartbeat), .pool (.loop i)]

def serverStarts : Serving := start .still 1 (World.init annAndBob)

def bobComes : List Event := received 0 1 .loginMsg [("name", .str "bob"), ("password", .str "b")] 8

/-- Bob logs in on connection 1 and hangs up, and is checked twice. -/
theorem forgotten_of_run_bob : ∃ s t,
    (machine .still).Run (Careful 1) serverStarts (bobComes ++ hangsUp 1 1 8) s ∧
      (machine .still).Run (Careful 1) s (check 2 ++ check 3) t ∧ Forgotten 1 t := by
  have hothers : ∀ v, v ≠ 4 →
      Function.update (boot .still (World.init annAndBob)).userConnMap 4 (some 1) v ≠ some 1 := by
    intro v hv
    rw [Function.update_of_ne hv]
    nofun
  obtain ⟨s, t, hrun, hfinished, hrun', hchecks, hidle⟩ : ∃ s t,
      (machine .still).Run (Careful 1) serverStarts (bobComes ++ hangsUp 1 1 8) s ∧ Finished 1 s ∧
        (machine .still).Run (Careful 1) s (check 2 ++ check 3) t ∧ s.checks + 2 ≤ t.checks ∧
        ∀ th ∈ t.threads.threads, th.task = .heartbeat → th.rest.running = false := by
    refine ⟨_, _, .cons (careful_of_idle rfl rfl) rfl <| .cons (careful_of_other rfl rfl nofun) rfl <|
      .cons (careful_of_idle rfl rfl) rfl <| .cons (careful_of_idle rfl rfl) rfl <|
      -- `login`
      .cons (careful_of_other rfl rfl nofun) rfl <|
      .cons (careful_of_call rfl rfl ⟨nofun, fun u hu => .inr ?_, nofun, nofun, nofun⟩) rfl <|
      .cons (careful_of_call rfl rfl ⟨nofun, nofun, fun u hu => ?_, nofun, nofun⟩) rfl <|
      .cons (careful_of_other rfl rfl nofun) rfl <| .cons (careful_of_other rfl rfl nofun) rfl <|
      .cons (careful_of_other rfl rfl nofun) rfl <| .cons (careful_of_other rfl rfl nofun) rfl <|
      .cons (careful_of_return rfl rfl) rfl <|
      -- `clientClose`
      .cons (careful_of_idle rfl rfl) rfl <| .cons (careful_of_other rfl rfl nofun) rfl <|
      .cons (careful_of_call rfl rfl ⟨nofun, nofun, nofun, nofun, fun _ _ => .inr (.inl ?_)⟩) rfl <|
      .cons (careful_of_call rfl rfl ⟨nofun, nofun, nofun, fun _ u hu _ => ⟨rfl, .inr fun _ => .inl ?_⟩, nofun⟩) rfl <|
      .cons (careful_of_other rfl rfl nofun) rfl <|
      .cons (careful_of_call rfl rfl ⟨nofun, nofun, nofun, nofun, fun _ _ => .inl rfl⟩) rfl <|
      .cons (careful_of_other rfl rfl nofun) rfl <| .cons (careful_of_other rfl rfl nofun) rfl <|
      .cons (careful_of_other rfl rfl nofun) rfl <| .nil _,
      finished_of_all rfl rfl rfl,
      .cons (careful_of_idle rfl rfl) rfl <| .cons (careful_of_other rfl rfl nofun) rfl <|
      .cons (careful_of_idle rfl rfl) rfl <| .cons (careful_of_other rfl rfl nofun) rfl <| .nil _,
      Nat.le.refl, fun th hth _ => idle_of_all rfl th hth⟩
    · obtain rfl := (Cmd.setUserConn.inj hu).1
      exact .inr fun _ => .inl rfl
    · exact fun v hv => hothers v fun h => hv (h.trans (Cmd.setConnUser.inj hu).2)
    · exact .inr fun _ => .inl rfl
    · exact congrArg Cmd.eraseUserConn (Option.some.inj hu)
  exact ⟨s, t, hrun, hrun', forgotten_of_run hrun hfinished hrun' hchecks hidle⟩

/-- Bob sends a file and hangs up before its last byte. -/
def uploadCutOff : List Event :=
  [.pool (.spawn (.connStatus 1 true)), .pool (.loop 0), .beginUpload 1, .pool (.spawn (.removeConnStatus 1)),
    .pool (.loop 1)] ++ hangsUp 2 1 3

/-- Bob is sent a file and hangs up before the handler enters him again. -/
def downloadCutOff : List Event :=
  bobComes ++ received 1 1 .receiveFile [("filename", .str "f")] 8 ++ hangsUp 2 1 8 ++
    List.replicate 7 (.pool (.work 0))

/-- After the run `l` the connection is done with, and two checks later `P` holds, and an entry of it is left. -/
def Remembers (l : List Event) (P : Serving → Prop) : Prop :=
  ∃ s t, (machine .still).Run (fun _ _ => True) serverStarts l s ∧ Finished 1 s ∧
    (machine .still).Run (fun _ _ => True) s (check 3 ++ check 4) t ∧ s.checks + 2 ≤ t.checks ∧
    (∀ th ∈ t.threads.threads, th.task = .heartbeat → th.rest.running = false) ∧ P t ∧ ¬ Forgotten 1 t

/-- The codec receives the file for ever, and the connection has the user 0. -/
theorem remembered : Remembers uploadCutOff (fun t => t.uploads 1 = true) ∧
    Remembers downloadCutOff fun t =>
      t.threads.shared.userConnMap 0 = some 1 ∧ t.threads.shared.connUserMap 1 = some 0 := by
  constructor
  · refine ⟨_, _, Machine.run_of_exec rfl, finished_of_all rfl rfl rfl, Machine.run_of_exec rfl, Nat.le.refl,
      fun th hth _ => idle_of_all rfl th hth, rfl, fun h => ?_⟩
    cases h.fileTransferStates
  · refine ⟨_, _, Machine.run_of_exec rfl, finished_of_all rfl rfl rfl, Machine.run_of_exec rfl, Nat.le.refl,
      fun th hth _ => idle_of_all rfl th hth, ⟨rfl, rfl⟩, fun h => ?_⟩
    exact h.userConnMap 0 rfl

end Runs

end Serving

end Chatroom.Service
