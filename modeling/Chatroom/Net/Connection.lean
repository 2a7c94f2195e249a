import Chatroom.Net.EventLoop
import Chatroom.Net.TcpConnection

/-!
# A `TcpConnection` in its loop

The sending half of a `TcpConnection` with its state, the failures of `::write`, and the `EventLoop` that runs its
functors: any thread calls `send`, `shutdown` and `forceClose`, and the event handlers of the loop call `handleWrite`
and `handleClose`. A functor or a handler that fails an assertion has no successor. The functors of other objects only
take their turn.
-/

namespace Chatroom.Net

open Lib

/-- What `::write` returns: it never takes more than it is given. -/
inductive WriteResult where
  | error
  | wrote (n : ℕ)

inductive StateE where
  | kConnecting
  | kConnected
  | kDisconnecting
  | kDisconnected
  deriving DecidableEq

structure Connection where
  state : StateE
  outputBuffer : Buffer
  /-- `m_channel->isWriting()` -/
  isWriting : Bool
  /-- whether `m_writeCompleteCallback` is set -/
  writeCompleteCallback : Bool
  /-- the bytes that `sendInLoop` and `handleWrite` have written -/
  wire : Bytes
  /-- `m_closeCallback` was called -/
  closed : Bool

namespace Connection

variable (conn : Connection)

/-- The `nwrote` of `sendInLoop`, and whether it queues `m_writeCompleteCallback`. -/
def writeDirectly (message : Bytes) (result : WriteResult) : ℕ × Bool :=
  if ¬ conn.isWriting ∧ conn.outputBuffer.readableBytes = 0 then
    match result with
    | .wrote n =>
      let nwrote := min n message.length
      (nwrote, !decide (nwrote < message.length) && conn.writeCompleteCallback)
    | .error => (0, false)
  else (0, false)

def sendInLoop (message : Bytes) (result : WriteResult) : Connection × Bool :=
  let (nwrote, complete) := conn.writeDirectly message result
  let conn := { conn with wire := conn.wire ++ message.take nwrote }
  if nwrote < message.length then
    ({ conn with outputBuffer := conn.outputBuffer.append (message.drop nwrote), isWriting := true }, complete)
  else (conn, complete)

/-- `handleWrite`, and whether it queues `m_writeCompleteCallback`. Its `shutdownInLoop` only touches the socket. -/
def handleWrite (result : WriteResult) : Connection × Bool :=
  if conn.isWriting then
    match result with
    | .wrote n =>
      let n := min n conn.outputBuffer.readableBytes
      if 0 < n then
        let wire := conn.wire ++ conn.outputBuffer.content.take n
        let outputBuffer := conn.outputBuffer.retrieve n
        if outputBuffer.readableBytes = 0 then
          ({ conn with wire, outputBuffer, isWriting := false }, conn.writeCompleteCallback)
        else ({ conn with wire, outputBuffer }, false)
      else (conn, false)
    | .error => (conn, false)
  else (conn, false)

def handleClose : Option Connection :=
  if conn.state = .kConnected ∨ conn.state = .kDisconnecting then
    some { conn with isWriting := false, closed := true }
  else none

def forceCloseInLoop : Option Connection :=
  if conn.state = .kConnected ∨ conn.state = .kDisconnecting then conn.handleClose else some conn

def connectDestroyed : Option Connection :=
  if conn.state = .kConnected ∨ conn.state = .kDisconnecting then
    some { conn with state := .kDisconnected, isWriting := false }
  else none

/-! ## What they do to the bytes -/

/-- What was written and what waits in the output buffer. -/
def stream : Bytes := conn.wire ++ conn.outputBuffer.content

/-- Write interest is enabled exactly when something waits. -/
def Interested : Prop := conn.isWriting = true ↔ conn.outputBuffer.content ≠ []

variable {conn}

theorem writeDirectly_wrote (conn : Connection) (message : Bytes) (n : ℕ) :
    (conn.writeDirectly message (.wrote n)).1 =
      if ¬ conn.isWriting ∧ conn.outputBuffer.readableBytes = 0 then min n message.length else 0 := by
  unfold writeDirectly
  split <;> rfl

theorem stream_sendInLoop (message : Bytes) (result : WriteResult) :
    (conn.sendInLoop message result).1.stream = conn.stream ++ message := by
  have hdirect : conn.outputBuffer.content = [] ∨ (conn.writeDirectly message result).1 = 0 := by
    unfold writeDirectly
    split
    case isTrue h => exact .inl (conn.outputBuffer.readableBytes_eq_zero.1 h.2)
    case isFalse => exact .inr rfl
  simp only [sendInLoop, stream]
  generalize (conn.writeDirectly message result).1 = nwrote at hdirect
  split
  case isTrue =>
    show (conn.wire ++ message.take nwrote) ++ (conn.outputBuffer.append (message.drop nwrote)).content = _
    rw [Buffer.content_append]
    rcases hdirect with hempty | rfl
    · simp [hempty]
    · simp
  case isFalse hall =>
    show (conn.wire ++ message.take nwrote) ++ conn.outputBuffer.content = _
    rw [List.take_of_length_le (not_lt.1 hall)]
    rcases hdirect with hempty | rfl
    · simp [hempty]
    · obtain rfl : message = [] := List.length_eq_zero_iff.1 (by omega)
      simp

theorem handleWrite_wrote (conn : Connection) (h : conn.isWriting = true) (n : ℕ) :
    (conn.handleWrite (.wrote n)).1 = if 0 < min n conn.outputBuffer.readableBytes then
      { conn with
        wire := conn.wire ++ conn.outputBuffer.content.take (min n conn.outputBuffer.readableBytes)
        outputBuffer := conn.outputBuffer.retrieve (min n conn.outputBuffer.readableBytes)
        isWriting := 0 < (conn.outputBuffer.retrieve (min n conn.outputBuffer.readableBytes)).readableBytes }
      else conn := by
  unfold handleWrite
  rw [if_pos h]
  dsimp only
  split
  case isFalse => rfl
  case isTrue =>
    split
    case isTrue hempty => simp [hempty]
    case isFalse hrest => simp [Nat.pos_of_ne_zero hrest, h]

theorem stream_handleWrite (result : WriteResult) : (conn.handleWrite result).1.stream = conn.stream := by
  unfold handleWrite
  split
  case isFalse => rfl
  case isTrue =>
    split
    case h_2 => rfl
    case h_1 n =>
      dsimp only
      split
      case isFalse => rfl
      case isTrue => split <;> simp [stream]

theorem Interested.sendInLoop (h : conn.Interested) (message : Bytes) (result : WriteResult) :
    (conn.sendInLoop message result).1.Interested := by
  simp only [Connection.sendInLoop]
  generalize (conn.writeDirectly message result).1 = nwrote
  split
  case isTrue hpart =>
    refine ⟨fun _ => ?_, fun _ => rfl⟩
    show (conn.outputBuffer.append (message.drop nwrote)).content ≠ []
    rw [Buffer.content_append]
    intro hnil
    have := congrArg List.length (List.append_eq_nil_iff.1 hnil).2
    rw [List.length_drop, List.length_nil] at this
    omega
  case isFalse => exact h

theorem Interested.handleWrite (h : conn.Interested) (result : WriteResult) :
    (conn.handleWrite result).1.Interested := by
  unfold Connection.handleWrite
  split
  case isFalse => exact h
  case isTrue hwriting =>
    split
    case h_2 => exact h
    case h_1 n =>
      dsimp only
      split
      case isFalse => exact h
      case isTrue =>
        split
        case isTrue hempty =>
          exact ⟨nofun, fun hne => absurd ((Buffer.readableBytes_eq_zero _).1 hempty) hne⟩
        case isFalse hrest =>
          exact ⟨fun _ hempty => hrest ((Buffer.readableBytes_eq_zero _).2 hempty), fun _ => hwriting⟩

theorem closed_sendInLoop (message : Bytes) (result : WriteResult) :
    (conn.sendInLoop message result).1.closed = conn.closed := by
  unfold sendInLoop
  dsimp only
  split <;> rfl

theorem closed_handleWrite (result : WriteResult) : (conn.handleWrite result).1.closed = conn.closed := by
  unfold handleWrite
  split
  case isFalse => rfl
  case isTrue =>
    split
    case h_2 => rfl
    case h_1 =>
      dsimp only
      repeat' split
      all_goals rfl

theorem state_sendInLoop (message : Bytes) (result : WriteResult) :
    (conn.sendInLoop message result).1.state = conn.state := by
  unfold sendInLoop
  dsimp only
  split <;> rfl

theorem state_handleWrite (result : WriteResult) : (conn.handleWrite result).1.state = conn.state := by
  unfold handleWrite
  split
  case isFalse => rfl
  case isTrue =>
    split
    case h_2 => rfl
    case h_1 =>
      dsimp only
      repeat' split
      all_goals rfl

theorem stream_handleClose {conn' : Connection} (h : conn.handleClose = some conn') :
    conn'.stream = conn.stream ∧ conn'.closed = true := by
  unfold handleClose at h
  split at h
  case isTrue =>
    obtain rfl := Option.some.inj h
    exact ⟨rfl, rfl⟩
  case isFalse => cases h

/-- `forceCloseInLoop` closes, or the connection is no longer there to be closed. -/
theorem stream_forceCloseInLoop {conn' : Connection} (h : conn.forceCloseInLoop = some conn') :
    conn'.stream = conn.stream ∧ (conn'.closed = true ∨ conn' = conn) := by
  unfold forceCloseInLoop at h
  split at h
  case isTrue => exact ⟨(stream_handleClose h).1, .inl (stream_handleClose h).2⟩
  case isFalse =>
    obtain rfl := Option.some.inj h
    exact ⟨rfl, .inr rfl⟩

theorem stream_connectDestroyed {conn' : Connection} (h : conn.connectDestroyed = some conn') :
    conn'.stream = conn.stream ∧ conn'.closed = conn.closed := by
  unfold connectDestroyed at h
  split at h
  case isTrue =>
    obtain rfl := Option.some.inj h
    exact ⟨rfl, rfl⟩
  case isFalse => cases h

end Connection

/-! ## The connection and its loop -/

/-- The functors that the loop is given. -/
inductive Task (ι : Type*) where
  /-- from `send` on the thread -/
  | sendInLoop (thread : ι) (message : Bytes)
  | writeComplete
  | shutdownInLoop
  | forceCloseInLoop
  | connectDestroyed
  /-- a functor of another object -/
  | other

def Task.message? {ι : Type*} : Task ι → Option (Option ι × Bytes)
  | .sendInLoop thread message => some (some thread, message)
  | _ => none

structure ConnectionLoop (ι : Type*) where
  loop : EventLoop ι (Task ι)
  conn : Connection

namespace ConnectionLoop

variable {ι : Type*}

/-- A connection that is established. -/
def new (writeCompleteCallback : Bool) : ConnectionLoop ι :=
  ⟨.new, ⟨.kConnected, .new, false, writeCompleteCallback, [], false⟩⟩

inductive Action (ι : Type*) where
  /-- `result` is what `::write` returns in the thread of the loop -/
  | send (thread : Option ι) (message : Bytes) (result : WriteResult)
  | shutdown (thread : Option ι)
  | forceClose (thread : Option ι)
  /-- the close callback has removed the connection from its server -/
  | removed (thread : Option ι)
  | queueOther (thread : Option ι)
  | quit (thread : Option ι)
  | wakeup (thread : Option ι)
  /-- the next functor is run -/
  | functor (result : WriteResult)
  /-- the other steps of the loop -/
  | loop (a : EventLoop.Advance)
  | handleWrite (result : WriteResult)
  | handleClose

variable [DecidableEq ι] (s : ConnectionLoop ι)

/-- What was done to the connection, with the callback queued if it is complete. -/
def completing (conn : Connection × Bool) : ConnectionLoop ι :=
  { conn := conn.1, loop := if conn.2 then s.loop.queueInLoop none .writeComplete else s.loop }

def sendInLoop (message : Bytes) (result : WriteResult) : ConnectionLoop ι :=
  s.completing (s.conn.sendInLoop message result)

def queue (thread : Option ι) (task : Task ι) : ConnectionLoop ι := { s with loop := s.loop.queueInLoop thread task }

/-- `runInLoop`, for `send`. -/
def send (thread : Option ι) (message : Bytes) (result : WriteResult) : ConnectionLoop ι :=
  if s.conn.state = .kConnected then
    match thread with
    | none => s.sendInLoop message result
    | some i => s.queue (some i) (.sendInLoop i message)
  else s

/-- `shutdownInLoop` only touches the socket. -/
def shutdown (thread : Option ι) : ConnectionLoop ι :=
  if s.conn.state = .kConnected then
    let s := { s with conn.state := .kDisconnecting }
    if thread.isSome then s.queue thread .shutdownInLoop else s
  else s

def forceClose (thread : Option ι) : ConnectionLoop ι :=
  if s.conn.state = .kConnected ∨ s.conn.state = .kDisconnecting then
    { s with conn.state := .kDisconnecting }.queue thread .forceCloseInLoop
  else s

/-- A functor is called. -/
def call (result : WriteResult) : Task ι → Option (ConnectionLoop ι)
  | .sendInLoop _ message => some (s.sendInLoop message result)
  | .forceCloseInLoop => s.conn.forceCloseInLoop.map fun conn => { s with conn }
  | .connectDestroyed => s.conn.connectDestroyed.map fun conn => { s with conn }
  | .writeComplete | .shutdownInLoop | .other => some s

/-- The thread of the loop is in an event handler. -/
def Handling : Prop := s.loop.callers none = .idle ∧ s.loop.phase.calls = true ∧ s.loop.phase.collects = true

instance : Decidable s.Handling :=
  inferInstanceAs (Decidable (s.loop.callers none = .idle ∧ s.loop.phase.calls = true ∧
    s.loop.phase.collects = true))

def step : Action ι → Option (ConnectionLoop ι)
  | .send thread message result => if s.loop.CanCall thread then some (s.send thread message result) else none
  | .shutdown thread => if s.loop.CanCall thread then some (s.shutdown thread) else none
  | .forceClose thread => if s.loop.CanCall thread then some (s.forceClose thread) else none
  | .removed thread =>
    if s.loop.CanCall thread ∧ s.conn.closed = true then some (s.queue thread .connectDestroyed) else none
  | .queueOther thread => if s.loop.CanCall thread then some (s.queue thread .other) else none
  | .quit thread => (s.loop.step (.quit thread)).map fun loop => { s with loop }
  | .wakeup thread => (s.loop.step (.wakeup thread)).map fun loop => { s with loop }
  | .functor result =>
    s.loop.phase.functors.head?.bind fun task =>
      (s.loop.step (.loop .functor)).bind fun loop => { s with loop }.call result task
  | .loop a => if a = .functor then none else (s.loop.step (.loop a)).map fun loop => { s with loop }
  | .handleWrite result => if s.Handling then some (s.completing (s.conn.handleWrite result)) else none
  | .handleClose => if s.Handling then s.conn.handleClose.map fun conn => { s with conn } else none

def machine : Machine (ConnectionLoop ι) (Action ι) := ⟨step⟩

/-! ## The messages -/

inductive Event (ι : Type*) where
  /-- `send` found the connection connected -/
  | accepted (thread : Option ι) (message : Bytes)
  /-- `sendInLoop` was run -/
  | sent (thread : Option ι) (message : Bytes)

def Event.accepted? : Event ι → Option (Option ι × Bytes)
  | accepted thread message => some (thread, message)
  | _ => none

def Event.sent? : Event ι → Option (Option ι × Bytes)
  | sent thread message => some (thread, message)
  | _ => none

def accepts (log : List (Event ι)) : List (Option ι × Bytes) := log.filterMap Event.accepted?

def sends (log : List (Event ι)) : List (Option ι × Bytes) := log.filterMap Event.sent?

def events : Action ι → List (Event ι)
  | .send thread message _ =>
    if s.conn.state = .kConnected then
      match thread with
      | none => [.accepted none message, .sent none message]
      | some i => [.accepted (some i) message]
    else []
  | .functor _ =>
    match s.loop.phase.functors.head? with
    | some (.sendInLoop i message) => [.sent (some i) message]
    | _ => []
  | _ => []

/-- The messages whose `sendInLoop` has not been run. -/
def messages : List (Option ι × Bytes) := s.loop.queued.filterMap Task.message?

/-- The elements that are one thread's. -/
def ofThread (thread : Option ι) (l : List (Option ι × Bytes)) : List (Option ι × Bytes) :=
  l.filter fun x => x.1 = thread

structure Streamed (s : ConnectionLoop ι) (log : List (Event ι)) : Prop where
  written : s.conn.stream = ((sends log).map Prod.snd).flatten
  order : ∀ thread, ofThread thread (accepts log) = ofThread thread (sends log ++ s.messages)
  interested : s.conn.closed = false → s.conn.Interested
  destroyed : .connectDestroyed ∈ s.loop.queued → s.conn.closed = true

section Lemmas

variable {s t : ConnectionLoop ι} {log : List (Event ι)}

omit [DecidableEq ι] in
theorem accepts_append (log log' : List (Event ι)) : accepts (log ++ log') = accepts log ++ accepts log' :=
  List.filterMap_append

omit [DecidableEq ι] in
theorem sends_append (log log' : List (Event ι)) : sends (log ++ log') = sends log ++ sends log' :=
  List.filterMap_append

theorem ofThread_append (thread : Option ι) (l l' : List (Option ι × Bytes)) :
    ofThread thread (l ++ l') = ofThread thread l ++ ofThread thread l' :=
  List.filter_append ..

/-- The thread of the loop queues no message. -/
theorem ofThread_none_messages (s : ConnectionLoop ι) : ofThread none s.messages = [] := by
  refine List.filter_eq_nil_iff.2 fun x hx => ?_
  obtain ⟨task, -, htask⟩ := List.mem_filterMap.1 hx
  cases task with
  | sendInLoop i message =>
    obtain rfl := Option.some.inj htask
    simp
  | _ => cases htask

/-- Nothing is accepted or sent, and the bytes stay where they are. -/
theorem Streamed.quiet (h : Streamed s log) (hmessages : t.messages = s.messages)
    (hdestroyed : .connectDestroyed ∈ t.loop.queued → .connectDestroyed ∈ s.loop.queued ∨ s.conn.closed = true)
    (hstream : t.conn.stream = s.conn.stream) (hclosed : s.conn.closed = true → t.conn.closed = true)
    (hinterested : t.conn.closed = false → s.conn.Interested → t.conn.Interested) : Streamed t log := by
  refine ⟨hstream.trans h.written, fun thread => hmessages ▸ h.order thread, fun hopen => ?_, fun hmem => ?_⟩
  · refine hinterested hopen (h.interested ?_)
    cases hs : s.conn.closed with
    | false => rfl
    | true => exact absurd (hclosed hs) (by simp [hopen])
  · exact hclosed ((hdestroyed hmem).elim h.destroyed id)

/-- Functors without messages are queued. -/
theorem Streamed.queued (h : Streamed s log) {new : List (Task ι)} (hqueued : t.loop.queued = s.loop.queued ++ new)
    (hnew : new.filterMap Task.message? = []) (hdestroyed : .connectDestroyed ∈ new → s.conn.closed = true)
    (hstream : t.conn.stream = s.conn.stream) (hclosed : s.conn.closed = true → t.conn.closed = true)
    (hinterested : t.conn.closed = false → s.conn.Interested → t.conn.Interested) : Streamed t log := by
  refine h.quiet ?_ (fun hmem => ?_) hstream hclosed hinterested
  · rw [messages, hqueued, List.filterMap_append, hnew, List.append_nil, messages]
  · rw [hqueued, List.mem_append] at hmem
    exact hmem.imp_right hdestroyed

theorem queued_completing (s : ConnectionLoop ι) (conn : Connection × Bool) :
    (s.completing conn).loop.queued = s.loop.queued ++ if conn.2 then [.writeComplete] else [] := by
  simp only [completing]
  split
  · exact EventLoop.queued_queueInLoop ..
  · exact (List.append_nil _).symm

omit [DecidableEq ι] in
theorem filterMap_completing (complete : Bool) :
    (if complete then [Task.writeComplete] else [] : List (Task ι)).filterMap Task.message? = [] := by
  cases complete <;> rfl

omit [DecidableEq ι] in
theorem not_destroyed_completing (complete : Bool) :
    Task.connectDestroyed ∉ (if complete then [Task.writeComplete] else [] : List (Task ι)) := by
  cases complete <;> simp

/-- `sendInLoop` is run for a message that is the next one of its thread. -/
theorem Streamed.sendInLoop (h : Streamed s log) {loop : EventLoop ι (Task ι)} {new : List (Event ι)}
    (thread : Option ι) {message : Bytes} {result : WriteResult} (hsends : sends new = [(thread, message)])
    (horder : ∀ th, ofThread th (accepts (log ++ new)) =
      ofThread th (sends log ++ (thread, message) :: loop.queued.filterMap Task.message?))
    (hdestroyed : .connectDestroyed ∈ loop.queued → .connectDestroyed ∈ s.loop.queued) :
    Streamed ({ s with loop }.sendInLoop message result) (log ++ new) := by
  have hqueued := queued_completing { s with loop } (s.conn.sendInLoop message result)
  have hmessages : ({ s with loop }.sendInLoop message result).messages = loop.queued.filterMap Task.message? := by
    refine (congrArg _ hqueued).trans ?_
    rw [List.filterMap_append, filterMap_completing, List.append_nil]
  have hclosed : ({ s with loop }.sendInLoop message result).conn.closed = s.conn.closed :=
    Connection.closed_sendInLoop message result
  constructor
  · refine (Connection.stream_sendInLoop message result).trans ?_
    rw [h.written, sends_append, hsends]
    simp
  · intro th
    rw [horder, hmessages, sends_append, hsends, List.append_assoc, List.singleton_append]
  · intro hopen
    rw [hclosed] at hopen
    exact (h.interested hopen).sendInLoop message result
  · intro hmem
    rw [hclosed]
    refine h.destroyed (hdestroyed ?_)
    exact (List.mem_append.1 (hqueued ▸ hmem)).resolve_right (not_destroyed_completing _)

theorem Streamed.send (h : Streamed s log) (thread : Option ι) (message : Bytes) (result : WriteResult) :
    Streamed (s.send thread message result) (log ++ s.events (.send thread message result)) := by
  simp only [ConnectionLoop.send, events]
  split
  case isFalse => rwa [List.append_nil]
  case isTrue =>
    cases thread with
    | none =>
      show Streamed (s.sendInLoop message result) (log ++ [.accepted none message, .sent none message])
      refine h.sendInLoop none rfl (fun th => ?_) id
      have haccepts : accepts (log ++ [.accepted none message, .sent none message]) =
          accepts log ++ [(none, message)] := by
        rw [accepts_append]
        rfl
      show _ = ofThread th (sends log ++ ([(none, message)] ++ s.messages))
      rw [haccepts, ofThread_append, h.order, ofThread_append, ofThread_append, ofThread_append]
      -- no message of the loop's own thread is queued, and it is the only one that this one could be behind
      by_cases hth : th = none
      · subst hth
        rw [ofThread_none_messages, List.append_nil, List.append_nil]
      · have hnone : ofThread th [(none, message)] = [] := by
          rw [ofThread, List.filter_eq_nil_iff]
          simpa using Ne.symm hth
        rw [hnone, List.append_nil, List.nil_append]
    | some i =>
      show Streamed (s.queue (some i) (.sendInLoop i message)) (log ++ [.accepted (some i) message])
      have hsends : sends (log ++ [.accepted (some i) message]) = sends log := by
        rw [sends_append]
        exact List.append_nil _
      have haccepts : accepts (log ++ [.accepted (some i) message]) = accepts log ++ [(some i, message)] := by
        rw [accepts_append]
        rfl
      have hqueued : (s.queue (some i) (.sendInLoop i message)).loop.queued =
          s.loop.queued ++ [.sendInLoop i message] := EventLoop.queued_queueInLoop ..
      have hmessages : (s.queue (some i) (.sendInLoop i message)).messages = s.messages ++ [(some i, message)] := by
        rw [messages, hqueued, List.filterMap_append]
        rfl
      refine ⟨h.written.trans (by rw [hsends]), fun th => ?_, h.interested, fun hmem => h.destroyed ?_⟩
      · rw [hsends, hmessages, haccepts, ofThread_append, h.order, ← List.append_assoc, ofThread_append th (_ ++ _)]
      · rw [hqueued, List.mem_append] at hmem
        exact hmem.resolve_right (by simp)

/-- The first functor is run, and the others stay. -/
theorem functor_step {result : WriteResult} (hstep : s.step (.functor result) = some t) :
    ∃ task loop, s.loop.phase.functors.head? = some task ∧ s.loop.queued = task :: loop.queued ∧
      { s with loop }.call result task = some t := by
  obtain ⟨task, htask, hstep⟩ := Option.bind_eq_some_iff.1 hstep
  obtain ⟨loop, hloop, hcall⟩ := Option.bind_eq_some_iff.1 hstep
  exact ⟨task, loop, htask, EventLoop.queued_of_functor hloop htask, hcall⟩

theorem Streamed.functor (h : Streamed s log) {result : WriteResult} (hstep : s.step (.functor result) = some t) :
    Streamed t (log ++ s.events (.functor result)) := by
  obtain ⟨task, loop, htask, hqueued, hcall⟩ := functor_step hstep
  have hdestroyed : .connectDestroyed ∈ loop.queued → .connectDestroyed ∈ s.loop.queued := by
    intro hmem
    rw [hqueued]
    exact List.mem_cons_of_mem task hmem
  have hquiet : task.message? = none → s.loop.queued.filterMap Task.message? = loop.queued.filterMap Task.message? := by
    intro hnone
    rw [hqueued, List.filterMap_cons_none hnone]
  simp only [events, htask]
  cases task with
  | sendInLoop i message =>
    obtain rfl := Option.some.inj hcall
    refine h.sendInLoop (some i) rfl (fun th => ?_) hdestroyed
    have haccepts : accepts (log ++ [.sent (some i) message]) = accepts log := by
      rw [accepts_append]
      exact List.append_nil _
    rw [haccepts, h.order, messages, hqueued]
    rfl
  | forceCloseInLoop =>
    obtain ⟨conn, hconn, rfl⟩ := Option.map_eq_some_iff.1 hcall
    obtain ⟨hstream, hcases⟩ := Connection.stream_forceCloseInLoop hconn
    rw [List.append_nil]
    refine h.quiet (hquiet rfl).symm (fun hmem => .inl (hdestroyed hmem)) hstream (fun hclosed => ?_) fun hopen => ?_
    · exact hcases.elim id fun heq => heq ▸ hclosed
    · rcases hcases with hclosed | rfl
      · exact absurd hclosed (by simp [show conn.closed = false from hopen])
      · exact id
  | connectDestroyed =>
    obtain ⟨conn, hconn, rfl⟩ := Option.map_eq_some_iff.1 hcall
    obtain ⟨hstream, hclosed⟩ := Connection.stream_connectDestroyed hconn
    have hclosed' : conn.closed = true := hclosed.trans (h.destroyed (hqueued ▸ List.mem_cons_self))
    rw [List.append_nil]
    refine h.quiet (hquiet rfl).symm (fun hmem => .inl (hdestroyed hmem)) hstream (fun _ => hclosed') fun hopen => ?_
    exact absurd hclosed' (by simp [show conn.closed = false from hopen])
  | writeComplete | shutdownInLoop | other =>
    obtain rfl := Option.some.inj hcall
    rw [List.append_nil]
    exact h.quiet (hquiet rfl).symm (fun hmem => .inl (hdestroyed hmem)) rfl id fun _ => id

/-- A step of the loop that calls no functor. -/
theorem Streamed.loop (h : Streamed s log) {a : EventLoop.Action ι (Task ι)} (hevents : s.loop.events a = [])
    {loop : EventLoop ι (Task ι)} (hstep : s.loop.step a = some loop) : Streamed { s with loop } log := by
  have hqueued : loop.queued = s.loop.queued ++ [] := by
    rw [EventLoop.queued_of_quiet hstep hevents, List.append_nil]
  exact h.queued hqueued rfl nofun rfl id fun _ => id

theorem Streamed.shutdown (h : Streamed s log) (thread : Option ι) : Streamed (s.shutdown thread) log := by
  unfold ConnectionLoop.shutdown
  split
  case isFalse => exact h
  case isTrue =>
    dsimp only
    split
    · exact h.queued (EventLoop.queued_queueInLoop ..) rfl (by simp) rfl id fun _ => id
    · exact h.queued (List.append_nil _).symm rfl nofun rfl id fun _ => id

theorem Streamed.forceClose (h : Streamed s log) (thread : Option ι) : Streamed (s.forceClose thread) log := by
  unfold ConnectionLoop.forceClose
  split
  case isFalse => exact h
  case isTrue => exact h.queued (EventLoop.queued_queueInLoop ..) rfl (by simp) rfl id fun _ => id

theorem Streamed.handleWrite (h : Streamed s log) (result : WriteResult) :
    Streamed (s.completing (s.conn.handleWrite result)) log := by
  refine h.queued (queued_completing ..) (filterMap_completing _)
    (fun hmem => absurd hmem (not_destroyed_completing _)) (Connection.stream_handleWrite result) ?_ ?_
  · exact (Connection.closed_handleWrite result).trans
  · exact fun _ hinterested => hinterested.handleWrite result

theorem Streamed.handleClose (h : Streamed s log) {conn : Connection} (hconn : s.conn.handleClose = some conn) :
    Streamed { s with conn } log := by
  obtain ⟨hstream, hclosed⟩ := Connection.stream_handleClose hconn
  refine h.queued (List.append_nil _).symm rfl nofun hstream (fun _ => hclosed) fun hopen => ?_
  exact absurd hclosed (by simp [show conn.closed = false from hopen])

theorem Streamed.step (h : Streamed s log) {a : Action ι} (hstep : s.step a = some t) :
    Streamed t (log ++ s.events a) := by
  cases a with
  | send thread message result =>
    obtain ⟨-, heq⟩ := Option.ite_none_right_eq_some.1 hstep
    obtain rfl := Option.some.inj heq
    exact h.send thread message result
  | functor result => exact h.functor hstep
  | shutdown thread =>
    obtain ⟨-, heq⟩ := Option.ite_none_right_eq_some.1 hstep
    obtain rfl := Option.some.inj heq
    exact (List.append_nil log).symm ▸ h.shutdown thread
  | forceClose thread =>
    obtain ⟨-, heq⟩ := Option.ite_none_right_eq_some.1 hstep
    obtain rfl := Option.some.inj heq
    exact (List.append_nil log).symm ▸ h.forceClose thread
  | removed thread =>
    obtain ⟨hcan, heq⟩ := Option.ite_none_right_eq_some.1 hstep
    obtain rfl := Option.some.inj heq
    refine (List.append_nil log).symm ▸ ?_
    exact h.queued (EventLoop.queued_queueInLoop ..) rfl (fun _ => hcan.2) rfl id fun _ => id
  | queueOther thread =>
    obtain ⟨-, heq⟩ := Option.ite_none_right_eq_some.1 hstep
    obtain rfl := Option.some.inj heq
    refine (List.append_nil log).symm ▸ ?_
    exact h.queued (EventLoop.queued_queueInLoop ..) rfl (by simp) rfl id fun _ => id
  | quit thread =>
    obtain ⟨loop, hloop, rfl⟩ := Option.map_eq_some_iff.1 hstep
    exact (List.append_nil log).symm ▸ h.loop rfl hloop
  | wakeup thread =>
    obtain ⟨loop, hloop, rfl⟩ := Option.map_eq_some_iff.1 hstep
    exact (List.append_nil log).symm ▸ h.loop rfl hloop
  | loop a =>
    obtain ⟨hne, hmap⟩ := Option.ite_none_left_eq_some.1 hstep
    obtain ⟨loop, hloop, rfl⟩ := Option.map_eq_some_iff.1 hmap
    refine (List.append_nil log).symm ▸ h.loop ?_ hloop
    cases a with
    | functor => exact absurd rfl hne
    | _ => rfl
  | handleWrite result =>
    obtain ⟨-, heq⟩ := Option.ite_none_right_eq_some.1 hstep
    obtain rfl := Option.some.inj heq
    exact (List.append_nil log).symm ▸ h.handleWrite result
  | handleClose =>
    obtain ⟨-, hmap⟩ := Option.ite_none_right_eq_some.1 hstep
    obtain ⟨conn, hconn, rfl⟩ := Option.map_eq_some_iff.1 hmap
    exact (List.append_nil log).symm ▸ h.handleClose hconn

theorem streamed_new (writeCompleteCallback : Bool) : Streamed (new writeCompleteCallback : ConnectionLoop ι) [] := by
  refine ⟨?_, fun _ => rfl, fun _ => ⟨nofun, fun hne => absurd Buffer.content_new hne⟩, nofun⟩
  show [] ++ Buffer.new.content = []
  rw [Buffer.content_new]
  rfl

theorem streamed_step (s : ConnectionLoop ι × List (Event ι)) (a : Action ι) (t : ConnectionLoop ι × List (Event ι))
    (_ : True) (hstep : (machine.logged events).step s a = some t) : Streamed s.1 s.2 → Streamed t.1 t.2 := by
  intro h
  obtain ⟨t, ht, rfl⟩ := Option.map_eq_some_iff.1 hstep
  exact h.step ht

/-- Lists of which each thread has the same elements in the same order are permutations of each other. -/
theorem perm_of_ofThread {l l' : List (Option ι × Bytes)} (h : ∀ thread, ofThread thread l = ofThread thread l') :
    l.Perm l' := by
  rw [List.perm_iff_count]
  intro x
  have hcount : ∀ l : List (Option ι × Bytes), l.count x = (ofThread x.1 l).count x := by
    intro l
    exact (List.count_filter (by simp)).symm
  rw [hcount l, hcount l', h]

end Lemmas

/-- **The output stream**: what was written, and then what waits in the output buffer, are the messages whose
`sendInLoop` was run, whole and in that order. Those and the queued ones are the accepted messages, each once, those of
a thread in the order in which it sent them. Until `handleClose`, write interest is enabled exactly when something
waits. -/
theorem stream_of_run {writeCompleteCallback : Bool} {l : List (Action ι)} {s : ConnectionLoop ι}
    {log : List (Event ι)}
    (h : (machine.logged events).Run (fun _ _ => True) (new writeCompleteCallback, []) l (s, log)) :
    s.conn.wire ++ s.conn.outputBuffer.content = ((sends log).map Prod.snd).flatten ∧
      (accepts log).Perm (sends log ++ s.messages) ∧
      (∀ thread, ofThread thread (accepts log) = ofThread thread (sends log ++ s.messages)) ∧
      (s.conn.closed = false → (s.conn.isWriting = true ↔ s.conn.outputBuffer.content ≠ [])) := by
  have hstreamed := h.invariant streamed_step (streamed_new writeCompleteCallback)
  exact ⟨hstreamed.written, perm_of_ofThread hstreamed.order, hstreamed.order, hstreamed.interested⟩

end ConnectionLoop

/-- The loop's thread writes a part, and the message of another thread comes behind the rest. -/
theorem ConnectionLoop.stream_of_run_sample :
    ∃ s : ConnectionLoop ℕ, (machine.logged events).Run (fun _ _ => True) (new true, [])
        [.send (some 1) [1, 2, 3] .error, .wakeup (some 1), .loop .test, .loop (.poll [true, false]),
          .loop .handleEvent, .loop .handleEvent, .send none [4, 5] (.wrote 1), .loop .returns,
          .loop .doPendingFunctors, .loop .swap, .functor .error, .loop .returns, .loop .done, .loop .test,
          .loop (.poll [false]), .loop .handleEvent, .handleWrite (.wrote 2)]
        (s, [.accepted (some 1) [1, 2, 3], .accepted none [4, 5], .sent none [4, 5], .sent (some 1) [1, 2, 3]]) ∧
      s.conn.wire ++ s.conn.outputBuffer.content = [4, 5, 1, 2, 3] := by
  obtain ⟨s, hrun⟩ : ∃ s : ConnectionLoop ℕ, (machine.logged events).Run (fun _ _ => True) (new true, [])
      [.send (some 1) [1, 2, 3] .error, .wakeup (some 1), .loop .test, .loop (.poll [true, false]),
        .loop .handleEvent, .loop .handleEvent, .send none [4, 5] (.wrote 1), .loop .returns, .loop .doPendingFunctors,
        .loop .swap, .functor .error, .loop .returns, .loop .done, .loop .test, .loop (.poll [false]),
        .loop .handleEvent, .handleWrite (.wrote 2)]
      (s, [.accepted (some 1) [1, 2, 3], .accepted none [4, 5], .sent none [4, 5], .sent (some 1) [1, 2, 3]]) :=
    ⟨_, Machine.run_of_exec rfl⟩
  exact ⟨s, hrun, (stream_of_run hrun).1⟩

/-! ## Without failures -/

/-- A connection no call of which fails. -/
def TcpConnection.connection (conn : TcpConnection) : Connection :=
  ⟨.kConnected, conn.outputBuffer, conn.isWriting, false, conn.wire, false⟩

theorem connection_sendInLoop (conn : TcpConnection) (message : Bytes) (n : ℕ) :
    (conn.sendInLoop message n).connection = (conn.connection.sendInLoop message (.wrote n)).1 := by
  have hwrote : (conn.connection.writeDirectly message (.wrote n)).1 =
      if ¬ conn.isWriting ∧ conn.outputBuffer.readableBytes = 0 then min n message.length else 0 :=
    conn.connection.writeDirectly_wrote message n
  simp only [Connection.sendInLoop, TcpConnection.sendInLoop, hwrote]
  generalize (if ¬ conn.isWriting ∧ conn.outputBuffer.readableBytes = 0 then min n message.length else 0) = nwrote
  by_cases hpart : nwrote < message.length
  · rw [if_pos hpart, if_pos hpart]
    rfl
  · rw [if_neg hpart, if_neg hpart]
    rfl

theorem connection_handleWrite (conn : TcpConnection) (n : ℕ) :
    (conn.handleWrite n).connection = (conn.connection.handleWrite (.wrote n)).1 := by
  unfold TcpConnection.handleWrite
  by_cases hwriting : conn.isWriting
  · rw [if_pos hwriting, conn.connection.handleWrite_wrote hwriting]
    dsimp only
    by_cases hsome : 0 < min n conn.outputBuffer.readableBytes
    · rw [if_pos hsome]
      exact (if_pos hsome).symm
    · rw [if_neg hsome]
      exact (if_neg hsome).symm
  · rw [if_neg hwriting, Connection.handleWrite, if_neg (show ¬ conn.connection.isWriting = true from hwriting)]

end Chatroom.Net
