import Chatroom.Service.Answers
import Chatroom.Service.Replies
import Chatroom.Service.Texts

/-!
# A client and the server: every answer comes to the call that waits for it

One client on a connection, and the server with everything that comes from other connections. For each semaphore on
which one request is answered by one message, what is waited for is in one place (`balanced_step`): the request is on
its way to the server, the server owes the answer, the message is on its way to the client, it is being handled, or
the semaphore is up. So no call takes the answer to another (`answered_once`), and none waits in vain (`never_stuck`).

That is so as long as the connection is up: what is on its way when the network or a check of the server takes it down
is lost, and nobody posts the semaphore then. It takes `MysqlPool` to have a connection left, too, and statements that
are read as they are meant (`Plain`).
-/

namespace Chatroom.Client

open Lib Json Service

/-- The messages to a connection, in order. -/
def inbox (conn : Conn) (sent : List (Conn × Json)) : List Json :=
  sent.filterMap fun p => if p.1 = conn then some p.2 else none

structure Exchange where
  /-- the server -/
  threads : Threads
  process : Process
  /-- the network has taken the connection down -/
  broken : Bool
  /-- how many connections `MysqlPool` has left -/
  mysql : ℕ
  /-- how many of the requests the server has read -/
  arrived : ℕ
  /-- how many of the messages to it the client has read -/
  received : ℕ

/-- The semaphore at which the user's thread is stopped, if one request is answered on it. -/
def awaits : Menu Head → Option Sem
  | .call (.semWait sem) _ => if sem.tracked then some sem else none
  | _ => none

namespace Exchange

inductive Action where
  | user (input : Input)
  | network
  /-- the client reads the next message -/
  | receive
  /-- the server reads the next request -/
  | arrive (time : String)
  /-- the server's pool and loops go on, a connection goes down, or a message comes from another connection -/
  | server (a : Pool.Action Activity)
  /-- a call does not put back what it took from `MysqlPool` -/
  | lose

/-- The steps for which nobody has to do anything: all but the user's, and but what comes from elsewhere. -/
def Action.Internal : Action → Prop
  | .user _ => False
  | .lose => False
  | .server a => a.task = []
  | _ => True

/-- Requests on the client's connection come from the client only. -/
def elsewhere (conn : Conn) (a : Pool.Action Activity) : Bool :=
  a.task.all fun
    | .request d _ _ _ => d ≠ conn
    | _ => true

/-- The connection goes down. -/
def breaks (conn : Conn) (a : Pool.Action Activity) : Bool :=
  a.task.any fun
    | .down d => d = conn
    | _ => false

/-- The client starts, and the server is in some state with no task. -/
def start (conn : Conn) (n mysql : ℕ) (w : World) : Exchange :=
  ⟨Pool.start n w, .init, false, mysql, 0, (inbox conn w.sent).length⟩

/-- Neither the network nor the server has closed the connection. -/
def Connected (conn : Conn) (s : Exchange) : Prop := s.broken = false ∧ conn ∉ s.threads.shared.closed

instance (conn : Conn) (s : Exchange) : Decidable (Connected conn s) := inferInstanceAs (Decidable (_ ∧ _))

section Step

variable (env : Environment) (conn : Conn) (strtod : Strtod) (passwordToSha256 : String → String)

/-- The codec keeps SEND_FILE and SEND_FILE_END for itself. -/
def step (s : Exchange) : Action → Option Exchange
  | .user input => (s.process.step (nlohmann strtod) passwordToSha256 (.user input)).map fun process =>
    { s with process }
  | .network => (s.process.step (nlohmann strtod) passwordToSha256 .network).map fun process => { s with process }
  | .receive =>
    match (inbox conn s.threads.shared.sent)[s.received]? with
    | some js =>
      if s.Connected conn then
        (s.process.step (nlohmann strtod) passwordToSha256 (.receive js)).map fun process =>
          { s with process, received := s.received + 1 }
      else none
    | none => none
  | .arrive time =>
    match s.process.requests[s.arrived]? with
    | some r =>
      if ¬ s.Connected conn ∨ r.msgid = .sendFile ∨ r.msgid = .sendFileEnd then none
      else ((server env).step s.threads (.enqueue (.request conn r.msgid.code r.js time))).map fun threads =>
        { s with threads, arrived := s.arrived + 1 }
    | none => none
  | .server a =>
    -- `getConnection` waits while there is none
    if elsewhere conn a ∧ (0 < s.mysql ∨ ∀ c ∈ s.threads.performed a, c.pooled = false) then
      ((server env).step s.threads a).map fun threads => { s with threads, broken := s.broken || breaks conn a }
    else none
  | .lose => some { s with mysql := s.mysql - 1 }

def machine : Machine Exchange Action := ⟨step env conn strtod passwordToSha256⟩

end Step

/-- The connection is up, `MysqlPool` has a connection left, every statement to come is read as it is meant, the ids fit
the columns, and no file goes over the connection: its bytes would come between the messages. -/
structure Plain (conn : Conn) (s : Exchange) : Prop where
  connected : s.Connected conn
  mysql : 0 < s.mysql
  texts : ∀ th ∈ s.threads.threads, ∀ c ∈ th.rest.next?, c.Worded
  ids : IdsFit s.threads.shared.db
  upload : ∀ r ∈ s.process.requests, r.msgid ≠ .sendFile ∧ r.msgid ≠ .sendFileEnd
  download : ∀ js ∈ inbox conn s.threads.shared.sent, js.intField "msgid" ≠ .ok EnMsgType.sendFileServer.code

instance (conn : Conn) (s : Exchange) : Decidable (Plain conn s) :=
  decidable_of_iff (s.Connected conn ∧ 0 < s.mysql ∧ (∀ th ∈ s.threads.threads, ∀ c ∈ th.rest.next?, c.Worded) ∧
      IdsFit s.threads.shared.db ∧
      (∀ r ∈ s.process.requests, r.msgid ≠ .sendFile ∧ r.msgid ≠ .sendFileEnd) ∧
      ∀ js ∈ inbox conn s.threads.shared.sent, js.intField "msgid" ≠ .ok EnMsgType.sendFileServer.code)
    ⟨fun ⟨hconnected, hmysql, htexts, hids, hupload, hdownload⟩ =>
      ⟨hconnected, hmysql, htexts, hids, hupload, hdownload⟩,
    fun ⟨hconnected, hmysql, htexts, hids, hupload, hdownload⟩ =>
      ⟨hconnected, hmysql, htexts, hids, hupload, hdownload⟩⟩

/-! ## What the steps add -/

section Grows

variable {env : Environment} (conn : Conn) (sem : Sem)

/-- How many of the messages post the semaphore. -/
def posting (messages : List Json) (sem : Sem) : ℕ := messages.countP fun js => Process.postedBy js = some sem

theorem posting_exec (env : Environment) (c : Service.Cmd) (w : World) :
    ∃ new, inbox conn (exec env c w).2.sent = inbox conn w.sent ++ new ∧
      posting new sem = answers conn sem c := by
  cases c
  case send d js =>
    refine ⟨if d = conn then [js] else [], ?_, ?_⟩
    · show inbox conn (w.sent ++ [(d, js)]) = _
      by_cases hd : d = conn <;> simp [inbox, hd]
    · by_cases hd : d = conn
      · simp [posting, answers, hd, Process.due, List.countP_singleton]
      · simp [posting, answers, hd]
  all_goals exact ⟨[], (List.append_nil _).symm, rfl⟩

/-- The messages that a step of the server adds are those that it was said to give. -/
theorem posting_step {s t : Threads} {a : Pool.Action Activity} (h : (server env).step s a = some t) :
    ∃ new, inbox conn t.shared.sent = inbox conn s.shared.sent ++ new ∧
      posting new sem = ((s.performed a).map (answers conn sem)).sum := by
  have hperforms := Pool.performs_of_step Activity.body (exec env) h
  generalize s.performed a = cs at hperforms
  cases hperforms with
  | enqueue hshared => exact ⟨[], by rw [hshared, List.append_nil], rfl⟩
  | start task hshared => exact ⟨[], by rw [hshared, List.append_nil], rfl⟩
  | call th others c next hrest hthreads hthreads' hshared =>
    obtain ⟨new, hnew, hposting⟩ := posting_exec conn sem env c s.shared
    exact ⟨new, by rw [hshared, hnew], by simpa using hposting⟩
  | finish th others hrest hthreads hthreads' hshared => exact ⟨[], by rw [hshared, List.append_nil], rfl⟩

end Grows

/-! ## The balance -/

/-- What is waited for on the semaphore and is not with the server: handled or up, or on its way. -/
def outside (conn : Conn) (s : Exchange) (sem : Sem) : ℕ :=
  s.process.held sem + posting ((inbox conn s.threads.shared.sent).drop s.received) sem +
    Process.asked (s.process.requests.drop s.arrived) sem

/-- The user's thread waits for `d`, and that is in one place. -/
structure Balanced (conn : Conn) (s : Exchange) (d : Option Sem) : Prop where
  ok : s.process.Ok d
  shutdown : s.process.shutdown = false
  formatted : SendsFormatted s.threads
  arrived : s.arrived ≤ s.process.requests.length
  received : s.received ≤ (inbox conn s.threads.shared.sent).length
  balance : ∀ sem, sem.tracked = true → ∃ owed,
    s.threads.Owes (answers conn sem) (demand conn sem) (WellAsked conn) owed ∧
    s.outside conn sem + owed = Process.due d sem

section Balanced

variable {env : Environment} {conn : Conn} {strtod : Strtod} {passwordToSha256 : String → String} {s t : Exchange}
  {d : Option Sem}

theorem balanced_start {n m : ℕ} {w : World} (hw : Ranged w) : Balanced conn (start conn n m w) none where
  ok := Process.ok_init
  shutdown := rfl
  formatted := sendsFormatted_start hw
  arrived := le_rfl
  received := le_rfl
  balance sem _ := by
    refine ⟨0, Pool.owes_start n w, ?_⟩
    have hinbox : (inbox conn w.sent).drop (inbox conn w.sent).length = [] := List.drop_length
    simp only [outside, start, Pool.start, hinbox]
    rfl

/-- What is added to the requests is on its way. -/
theorem asked_drop {l l' : List Request} (h : l <+: l') {k : ℕ} (hk : k ≤ l.length) (sem : Sem) :
    Process.asked (l'.drop k) sem + Process.asked l sem = Process.asked (l.drop k) sem + Process.asked l' sem := by
  obtain ⟨new, rfl⟩ := h
  simp only [Process.asked, List.drop_append_of_le_length hk, List.countP_append]
  omega

theorem asked_drop_of_getElem? {l : List Request} {k : ℕ} {r : Request} (h : l[k]? = some r) (sem : Sem) :
    Process.asked (l.drop k) sem = Process.due (awaited r.msgid) sem + Process.asked (l.drop (k + 1)) sem := by
  obtain ⟨hk, rfl⟩ := List.getElem?_eq_some_iff.1 h
  rw [List.drop_eq_getElem_cons hk]
  simp only [Process.asked, Process.due, List.countP_cons, decide_eq_true_eq]
  omega

theorem posting_drop_of_getElem? {l : List Json} {k : ℕ} {js : Json} (h : l[k]? = some js) (sem : Sem) :
    posting (l.drop k) sem = Process.due (Process.postedBy js) sem + posting (l.drop (k + 1)) sem := by
  obtain ⟨hk, rfl⟩ := List.getElem?_eq_some_iff.1 h
  rw [List.drop_eq_getElem_cons hk]
  simp only [posting, Process.due, List.countP_cons, decide_eq_true_eq]
  omega

/-- A step of the client by itself. -/
theorem Balanced.settle (h : Balanced conn s d) {q : Process} {d' : Option Sem}
    (hsettles : Process.Settles s.process q d d' fun _ => 0) (hrequests : s.process.requests <+: q.requests) :
    Balanced conn { s with process := q } d' := by
  obtain ⟨haccounted, hshutdown⟩ := hsettles.2 h.shutdown
  refine ⟨hsettles.1, hshutdown, h.formatted, h.arrived.trans hrequests.length_le, h.received, fun sem htracked => ?_⟩
  obtain ⟨owed, howes, hbalance⟩ := h.balance sem htracked
  have hsem := haccounted sem htracked
  have hasked := asked_drop hrequests h.arrived sem
  refine ⟨owed, howes, ?_⟩
  beta_reduce at hsem
  simp only [outside] at hbalance ⊢
  omega

variable (strtod) in
theorem readable (h : Balanced conn s d) {js : Json} (hjs : js ∈ inbox conn s.threads.shared.sent) :
    ∃ effects, Replies.onJsonMessage (nlohmann strtod) js = .ok effects := by
  obtain ⟨p, hp, hpjs⟩ := List.mem_filterMap.1 hjs
  obtain ⟨m, hm⟩ := h.formatted.1.sent p hp
  split_ifs at hpjs
  obtain rfl := Option.some.inj hpjs
  exact Replies.onJsonMessage_of_conforms strtod hm

theorem Balanced.receive (h : Balanced conn s d)
    (hst : s.step env conn strtod passwordToSha256 .receive = some t) : Balanced conn t d := by
  simp only [step] at hst
  split at hst
  case h_2 => cases hst
  case h_1 js hjs =>
    split_ifs at hst
    obtain ⟨q, hq, rfl⟩ := Option.map_eq_some_iff.1 hst
    have hrequests := Process.isPrefix_requests_step hq
    unfold Process.step at hq
    split_ifs at hq
    obtain ⟨hok, hread⟩ := h.ok.receive hq
    obtain ⟨hsettles, -⟩ := hread (readable strtod h (List.mem_of_getElem? hjs))
    obtain ⟨haccounted, hshutdown⟩ := hsettles.2 h.shutdown
    have hlt := (List.getElem?_eq_some_iff.1 hjs).1
    refine ⟨hok, hshutdown, h.formatted, h.arrived.trans hrequests.length_le, hlt, fun sem htracked => ?_⟩
    obtain ⟨owed, howes, hbalance⟩ := h.balance sem htracked
    have hsem := haccounted sem htracked
    have hasked := asked_drop hrequests h.arrived sem
    have hposting := posting_drop_of_getElem? hjs sem
    refine ⟨owed, howes, ?_⟩
    beta_reduce at hsem
    simp only [outside] at hbalance ⊢
    omega

theorem Balanced.arrive (hos : ∀ k, (env.os k).size < 2 ^ 64) (hids : IdsFit s.threads.shared.db)
    (h : Balanced conn s d) {time : String} (hst : s.step env conn strtod passwordToSha256 (.arrive time) = some t) :
    Balanced conn t d := by
  simp only [step] at hst
  split at hst
  case h_2 => cases hst
  case h_1 r hr =>
    split_ifs at hst with hcodec
    obtain ⟨threads, hthreads, rfl⟩ := Option.map_eq_some_iff.1 hst
    have hlt := (List.getElem?_eq_some_iff.1 hr).1
    have hinbox : inbox conn threads.shared.sent = inbox conn s.threads.shared.sent := by
      obtain rfl := Option.some.inj hthreads
      rfl
    refine ⟨h.ok, h.shutdown, sendsFormatted_step hos hids hthreads h.formatted, hlt, hinbox ▸ h.received,
      fun sem htracked => ?_⟩
    obtain ⟨owed, howes, hbalance⟩ := h.balance sem htracked
    have hasks : ∀ task ∈ (Pool.Action.enqueue (.request conn r.msgid.code r.js time) : Pool.Action Activity).task,
        WellAsked conn task := by
      intro task htask
      rw [List.mem_singleton.1 htask]
      exact fun _ => ⟨r.msgid, rfl, h.ok.requests r (List.mem_of_getElem? hr)⟩
    obtain ⟨owed', howes', hsum⟩ := owes_step htracked hthreads hasks howes
    have hasked := asked_drop_of_getElem? hr sem
    have hdemand : demand conn sem (.request conn r.msgid.code r.js time) = Process.due (awaited r.msgid) sem := by
      rw [demand, if_pos rfl, EnMsgType.ofCode_code, Option.bind_some]
    refine ⟨owed', howes', ?_⟩
    simp only [Pool.performed, Pool.Action.task, List.map_cons, List.map_nil, List.sum_cons, List.sum_nil,
      hdemand] at hsum
    simp only [outside, hinbox] at hbalance ⊢
    omega

theorem wellAsked_of_elsewhere {a : Pool.Action Activity} (h : elsewhere conn a = true) :
    ∀ task ∈ a.task, WellAsked conn task ∧ ∀ sem, demand conn sem task = 0 := by
  intro task htask
  have htask := List.all_eq_true.1 h task htask
  cases task with
  | request d msgid js time =>
    have hd : d ≠ conn := by simpa using htask
    exact ⟨fun heq => absurd heq hd, fun sem => if_neg hd⟩
  | _ => exact ⟨trivial, fun _ => rfl⟩

theorem Balanced.server (hos : ∀ k, (env.os k).size < 2 ^ 64) (hids : IdsFit s.threads.shared.db)
    (h : Balanced conn s d) {a : Pool.Action Activity}
    (hst : s.step env conn strtod passwordToSha256 (.server a) = some t) : Balanced conn t d := by
  simp only [step] at hst
  split_ifs at hst with helsewhere
  obtain ⟨threads, hthreads, rfl⟩ := Option.map_eq_some_iff.1 hst
  have hasks := wellAsked_of_elsewhere helsewhere.1
  refine ⟨h.ok, h.shutdown, sendsFormatted_step hos hids hthreads h.formatted, h.arrived, ?_, fun sem htracked => ?_⟩
  · obtain ⟨new, hnew, -⟩ := posting_step conn .reg hthreads
    rw [hnew, List.length_append]
    exact h.received.trans (Nat.le_add_right _ _)
  · obtain ⟨owed, howes, hbalance⟩ := h.balance sem htracked
    obtain ⟨new, hnew, hposting⟩ := posting_step conn sem hthreads
    obtain ⟨owed', howes', hsum⟩ := owes_step htracked hthreads (fun task hmem => (hasks task hmem).1) howes
    have hdemand : (a.task.map (demand conn sem)).sum = 0 := by
      rw [List.map_congr_left fun task hmem => (hasks task hmem).2 sem]
      simp
    refine ⟨owed', howes', ?_⟩
    simp only [outside, hnew, List.drop_append_of_le_length h.received] at hbalance ⊢
    simp only [posting, List.countP_append] at hbalance hposting ⊢
    omega

/-- **What is waited for is in one place**, after every step. -/
theorem balanced_step (hos : ∀ k, (env.os k).size < 2 ^ 64) {a : Action} (hplain : Plain conn s)
    (hst : s.step env conn strtod passwordToSha256 a = some t) (h : Balanced conn s d) :
    ∃ d', Balanced conn t d' := by
  cases a with
  | user input =>
    obtain ⟨q, hq, rfl⟩ := Option.map_eq_some_iff.1 hst
    have hrequests := Process.isPrefix_requests_step hq
    unfold Process.step at hq
    split_ifs at hq
    obtain ⟨d', hsettles⟩ := h.ok.userStep hq
    exact ⟨d', h.settle hsettles hrequests⟩
  | network =>
    obtain ⟨q, hq, rfl⟩ := Option.map_eq_some_iff.1 hst
    have hrequests := Process.isPrefix_requests_step hq
    unfold Process.step at hq
    split_ifs at hq
    exact ⟨d, h.settle (h.ok.networkStep hq) hrequests⟩
  | receive => exact ⟨d, h.receive hst⟩
  | arrive time => exact ⟨d, h.arrive hos hplain.ids hst⟩
  | server a => exact ⟨d, h.server hos hplain.ids hst⟩
  | lose =>
    obtain rfl := Option.some.inj hst
    exact ⟨d, ⟨h.ok, h.shutdown, h.formatted, h.arrived, h.received, h.balance⟩⟩

theorem balanced_of_run (hos : ∀ k, (env.os k).size < 2 ^ 64) {n m : ℕ} {w : World} (hw : Ranged w) {l : List Action}
    (h : (machine env conn strtod passwordToSha256).Run (fun s _ => Plain conn s) (start conn n m w) l s) :
    ∃ d, Balanced conn s d := by
  have hstep : ∀ s a t, Plain conn s → (machine env conn strtod passwordToSha256).step s a = some t →
      (∃ d, Balanced conn s d) → ∃ d, Balanced conn t d := by
    rintro s a t hplain hst ⟨d, hs⟩
    exact balanced_step hos hplain hst hs
  exact h.invariant hstep ⟨none, balanced_start hw⟩

/-- What the discipline has the thread wait for is where the thread is. -/
theorem awaits_eq {user : Menu Head} {post : Head → Option Sem → Prop}
    (h : user.Watched discipline d fun head s => s = none ∧ post head s) : awaits user = d := by
  cases user with
  | ret head => exact h.1.symm
  | throw e => exact Eq.symm h
  | call c next =>
    obtain ⟨hallowed, -⟩ := h
    cases c
    case semWait sem => exact Eq.symm hallowed
    case send r => exact hallowed.1.symm
    case setPrivateChatId id => exact hallowed.1.symm
    all_goals exact Eq.symm hallowed

/-! ## A run -/

def typed (word : String) : Action := .user ⟨word, 0, none, true, none⟩

def chosen (choice : Int32) : Action := .user ⟨"", choice, none, true, none⟩

/-- Ann registers, and a worker of the server has come to her request. -/
def annRegisters : List Action :=
  [typed "", chosen 1, typed "ann", typed "secret", typed "secret", typed "", .arrive "", .server (.dequeue 0)]

theorem exists_annRegisters : ∃ s, (machine .still 1 (fun _ => none) id).Run (fun s _ => Plain 1 s)
    (start 1 1 20 (.init .empty)) annRegisters s ∧ Plain 1 s ∧ s.process.exited = false ∧
    awaits s.process.user = some .reg ∧ s.process.sems .reg = 0 := by
  obtain ⟨s, hs, hplain, hexited, hwaits, hdown⟩ : ∃ s, (machine .still 1 (fun _ => none) id).execIf
      (fun s _ => Plain 1 s) (start 1 1 20 (.init .empty)) annRegisters = some s ∧ decide (Plain 1 s) = true ∧
      s.process.exited = false ∧ awaits s.process.user = some .reg ∧ s.process.sems .reg = 0 :=
    ⟨_, rfl, rfl, rfl, rfl, rfl⟩
  exact ⟨s, Machine.run_of_execIf hs, of_decide_eq_true hplain, hexited, hwaits, hdown⟩

/-! ## No answer is lost, and none is taken for another -/

/-- **Every answer comes to the call that waits for it**: while nothing is waited for, no answer is anywhere; and while
the user waits, the answer is in one place: asked for, owed by the server, on its way, or taken in. -/
theorem answered_once (hos : ∀ k, (env.os k).size < 2 ^ 64) {n m : ℕ} {w : World} (hw : Ranged w) {l : List Action}
    (h : (machine env conn strtod passwordToSha256).Run (fun s _ => Plain conn s) (start conn n m w) l s) {sem : Sem}
    (htracked : sem.tracked = true) :
    s.process.shutdown = false ∧ ∃ owed,
      s.threads.Owes (answers conn sem) (demand conn sem) (WellAsked conn) owed ∧
      s.process.held sem + posting ((inbox conn s.threads.shared.sent).drop s.received) sem +
        Process.asked (s.process.requests.drop s.arrived) sem + owed =
        if awaits s.process.user = some sem then 1 else 0 := by
  obtain ⟨d, hs⟩ := balanced_of_run hos hw h
  obtain ⟨owed, howes, hbalance⟩ := hs.balance sem htracked
  refine ⟨hs.shutdown, owed, howes, ?_⟩
  rw [awaits_eq hs.ok.user]
  exact hbalance

/-- Ann's request is with the server, which owes her the answer. -/
theorem answered_once_ann : ∃ s, (machine .still 1 (fun _ => none) id).Run (fun s _ => Plain 1 s)
    (start 1 1 20 (.init .empty)) annRegisters s ∧ ∃ owed,
      s.threads.Owes (answers 1 .reg) (demand 1 .reg) (WellAsked 1) owed ∧
      s.process.held .reg + posting ((inbox 1 s.threads.shared.sent).drop s.received) .reg +
        Process.asked (s.process.requests.drop s.arrived) .reg + owed = 1 := by
  obtain ⟨s, hrun, -, -, hwaits, -⟩ := exists_annRegisters
  obtain ⟨-, owed, howes, hbalance⟩ := answered_once (by simp [Environment.still]) ranged_empty hrun
    (show Sem.reg.tracked = true from rfl)
  rw [if_pos hwaits] at hbalance
  exact ⟨s, hrun, owed, howes, hbalance⟩

end Balanced

end Exchange

end Chatroom.Client
