import Mathlib.Data.Finset.Basic
import Chatroom.Net.Connection

/-!
# `TcpServer` with its connections and loops

The connections of a `TcpServer`, each with its channel, in the `EventLoop`s of its thread pool. The loop 0 is that of
the acceptor. A callback of a channel, a functor, and each of the three parts of `forceClose` and `shutdown` (the test
of the state, `setState`, `queueInLoop`) is a step; these two and `send` are called by any number of threads. When an
assertion fails the process is aborted, and nothing more happens.

`m_connections` is known by its keys, which are the numbers that the connections have in their names. Connections are
never destructed.
-/

namespace Chatroom.Net

open Lib

/-- Whether the poller of the loop has the channel. -/
inductive Index where
  | kNew
  | kAdded
  | kDeleted
  deriving DecidableEq

/-- A `TcpConnection` with its channel and the number of its loop. -/
structure Peer where
  loop : ℕ
  conn : Connection
  /-- the other half of `m_events`, next to `conn.isWriting` -/
  isReading : Bool
  index : Index

namespace Peer

def new (loop : ℕ) (writeCompleteCallback : Bool) : Peer :=
  ⟨loop, ⟨.kConnecting, .new, false, writeCompleteCallback, [], false⟩, false, .kNew⟩

variable (p : Peer)

def isNoneEvent : Bool := !p.isReading && !p.conn.isWriting

/-- `EPoller::updateChannel`. A deleted channel is added again whatever its events are. -/
def updateChannel : Peer :=
  { p with index := match p.index with
    | .kNew | .kDeleted => .kAdded
    | .kAdded => if p.isNoneEvent then .kDeleted else .kAdded }

/-- `setState` -/
def setState (state : StateE) : Peer := { p with conn.state := state }

/-- What was done to the connection, with the channel updated if the write interest has changed. -/
def write (conn : Connection) : Peer :=
  if conn.isWriting = p.conn.isWriting then { p with conn } else { p with conn }.updateChannel

/-- The assertions of `EPoller::removeChannel`, and what it does. -/
def removeChannel : Option Peer :=
  if p.isNoneEvent ∧ p.index ≠ .kNew then some { p with index := .kNew } else none

end Peer

inductive Functor where
  | connectEstablished (c : ℕ)
  | connectDestroyed (c : ℕ)
  | forceCloseInLoop (c : ℕ)
  | shutdownInLoop (c : ℕ)
  | sendInLoop (c : ℕ) (message : Bytes)
  | writeComplete (c : ℕ)
  | removeConnectionInLoop (c : ℕ)
  deriving DecidableEq

/-- The callbacks of a channel. -/
inductive Callback where
  | close
  | error
  | read
  | write

/-- `m_revents` -/
structure Revents where
  pollin : Bool
  pollpri : Bool
  pollout : Bool
  pollerr : Bool
  pollhup : Bool

/-- The callbacks that `handleEvent` calls, in order. -/
def Revents.callbacks (r : Revents) : List Callback :=
  (if r.pollhup && !r.pollin then [.close] else []) ++ (if r.pollerr then [.error] else []) ++
    (if r.pollin || r.pollpri then [.read] else []) ++ (if r.pollout then [.write] else [])

/-- What `readFd` returns. -/
inductive ReadResult where
  | bytes
  | endOfFile
  | error
  deriving DecidableEq

inductive LoopPhase where
  /-- about to call `poll` -/
  | poll
  /-- the callbacks that are still to be called for the active channels -/
  | handling (callbacks : List (ℕ × Callback))
  /-- the functors that `doPendingFunctors` has swapped out and still has to run -/
  | calling (functors : List Functor)

structure ServerLoop where
  phase : LoopPhase
  pendingFunctors : List Functor

/-- A call of a thread, after its test of the state; `set` once it has called `setState`. -/
inductive PendingCall where
  | forceClose (c : ℕ) (set : Bool)
  | shutdown (c : ℕ) (set : Bool)
  | send (c : ℕ) (message : Bytes)

def PendingCall.conn : PendingCall → ℕ
  | forceClose c _ | shutdown c _ | send c _ => c

/-- What the claims about a connection are about. -/
inductive TeardownEvent where
  | closeCallback (c : ℕ)
  /-- `m_connections.erase` returned `n` -/
  | erased (c n : ℕ)
  /-- `connectDestroyed` was entered in the state -/
  | connectDestroyed (c : ℕ) (state : StateE)
  deriving DecidableEq

def TeardownEvent.conn : TeardownEvent → ℕ
  | closeCallback c | erased c _ | connectDestroyed c _ => c

structure TcpServer where
  nextConnId : ℕ
  connections : Finset ℕ
  peers : ℕ → Peer
  loops : ℕ → ServerLoop
  /-- the loops of the thread pool, besides that of the acceptor -/
  numThreads : ℕ
  /-- `m_next` of the thread pool -/
  next : ℕ
  writeCompleteCallback : Bool
  calls : List PendingCall
  aborted : Bool
  /-- what has happened -/
  log : List TeardownEvent

namespace TcpServer

def new (numThreads : ℕ) (writeCompleteCallback : Bool) : TcpServer :=
  ⟨1, ∅, fun _ => .new 0 writeCompleteCallback, fun _ => ⟨.poll, []⟩, numThreads, 0, writeCompleteCallback, [], false, []⟩

section Operations

variable (s : TcpServer)

def abort : TcpServer := { s with aborted := true }

def event (e : TeardownEvent) : TcpServer := { s with log := s.log ++ [e] }

def setPeer (c : ℕ) (p : Peer) : TcpServer := { s with peers := Function.update s.peers c p }

def setPhase (i : ℕ) (phase : LoopPhase) : TcpServer :=
  { s with loops := Function.update s.loops i { s.loops i with phase } }

def queueInLoop (i : ℕ) (f : Functor) : TcpServer :=
  { s with
    loops := Function.update s.loops i { s.loops i with pendingFunctors := (s.loops i).pendingFunctors ++ [f] } }

/-- `getNextLoop` -/
def getNextLoop : ℕ × TcpServer :=
  if s.numThreads = 0 then (0, s) else (s.next + 1, { s with next := (s.next + 1) % s.numThreads })

def connectEstablished (c : ℕ) : TcpServer :=
  let p := s.peers c
  if p.conn.state = .kConnecting then
    s.setPeer c { p.setState .kConnected with isReading := true }.updateChannel
  else s.abort

/-- In the loop 0, that of the acceptor. -/
def newConnection : TcpServer :=
  let c := s.nextConnId
  let (ioLoop, s) := s.getNextLoop
  let s := { s with nextConnId := c + 1, connections := insert c s.connections }
  let s := s.setPeer c (.new ioLoop s.writeCompleteCallback)
  if ioLoop = 0 then s.connectEstablished c else s.queueInLoop ioLoop (.connectEstablished c)

def removeConnectionInLoop (c : ℕ) : TcpServer :=
  let n := if c ∈ s.connections then 1 else 0
  let s := { s with connections := s.connections.erase c }.event (.erased c n)
  if n = 1 then s.queueInLoop (s.peers c).loop (.connectDestroyed c) else s.abort

/-- `m_closeCallback`, in the loop `i`. -/
def removeConnection (i c : ℕ) : TcpServer :=
  let s := s.event (.closeCallback c)
  if i = 0 then s.removeConnectionInLoop c else s.queueInLoop 0 (.removeConnectionInLoop c)

def handleClose (i c : ℕ) : TcpServer :=
  let p := s.peers c
  match p.conn.handleClose with
  | some conn => (s.setPeer c { p with conn, isReading := false }.updateChannel).removeConnection i c
  | none => s.abort

def forceCloseInLoop (i c : ℕ) : TcpServer :=
  let state := (s.peers c).conn.state
  if state = .kConnected ∨ state = .kDisconnecting then s.handleClose i c else s

/-- The connection callback of the server calls `forceClose`, as any thread can. -/
def connectDestroyed (c : ℕ) : TcpServer :=
  let p := s.peers c
  let s := s.event (.connectDestroyed c p.conn.state)
  match p.conn.connectDestroyed with
  | some conn =>
    match { p with conn, isReading := false }.updateChannel.removeChannel with
    | some p => s.setPeer c p
    | none => s.abort
  | none => s.abort

/-- What was done to the connection by a write, with the callback queued if the write is complete. -/
def completing (c : ℕ) (done : Connection × Bool) : TcpServer :=
  let s := s.setPeer c ((s.peers c).write done.1)
  if done.2 then s.queueInLoop (s.peers c).loop (.writeComplete c) else s

def sendInLoop (c : ℕ) (message : Bytes) (result : WriteResult) : TcpServer :=
  s.completing c ((s.peers c).conn.sendInLoop message result)

/-- The messages that are read go to the codec. -/
def callback (i c : ℕ) (read : ReadResult) (result : WriteResult) : Callback → TcpServer
  | .close => s.handleClose i c
  | .error => s
  | .read => if read = .endOfFile then s.handleClose i c else s
  | .write => s.completing c ((s.peers c).conn.handleWrite result)

/-- A functor is called in the loop `i`. -/
def call (i : ℕ) (result : WriteResult) : Functor → TcpServer
  | .connectEstablished c => s.connectEstablished c
  | .connectDestroyed c => s.connectDestroyed c
  | .forceCloseInLoop c => s.forceCloseInLoop i c
  | .shutdownInLoop _ => s
  | .sendInLoop c message => s.sendInLoop c message result
  | .writeComplete _ => s
  | .removeConnectionInLoop c => s.removeConnectionInLoop c

/-- A thread goes on with its call; it sets the state, or queues the functor and is done. -/
def proceed (k : ℕ) : PendingCall → TcpServer
  | .forceClose c false =>
    { s.setPeer c ((s.peers c).setState .kDisconnecting) with calls := s.calls.set k (.forceClose c true) }
  | .shutdown c false =>
    { s.setPeer c ((s.peers c).setState .kDisconnecting) with calls := s.calls.set k (.shutdown c true) }
  | .forceClose c true =>
    { s.queueInLoop (s.peers c).loop (.forceCloseInLoop c) with calls := s.calls.eraseIdx k }
  | .shutdown c true => { s.queueInLoop (s.peers c).loop (.shutdownInLoop c) with calls := s.calls.eraseIdx k }
  | .send c message => { s.queueInLoop (s.peers c).loop (.sendInLoop c message) with calls := s.calls.eraseIdx k }

/-- The poller of the loop can report the events. -/
def CanPoll (i c : ℕ) (r : Revents) : Prop :=
  let p := s.peers c
  p.loop = i ∧ p.index = .kAdded ∧ (r.pollin ∨ r.pollpri → p.isReading) ∧ (r.pollout → p.conn.isWriting)

instance (i c : ℕ) (r : Revents) : Decidable (s.CanPoll i c r) := by unfold CanPoll; infer_instance

end Operations

inductive Action where
  | newConnection
  /-- `poll` returns in the loop `i` with the active channels -/
  | poll (i : ℕ) (activeChannels : List (ℕ × Revents))
  | callback (i : ℕ) (read : ReadResult) (result : WriteResult)
  /-- `doPendingFunctors` swaps -/
  | swap (i : ℕ)
  | functor (i : ℕ) (result : WriteResult)
  /-- the end of `doPendingFunctors` -/
  | done (i : ℕ)
  | forceClose (c : ℕ)
  | shutdown (c : ℕ)
  /-- `send` on another thread than that of the loop -/
  | send (c : ℕ) (message : Bytes)
  /-- `send` on the thread of the loop -/
  | sendInLoop (c : ℕ) (message : Bytes) (result : WriteResult)
  | proceed (k : ℕ)

def step (s : TcpServer) (a : Action) : Option TcpServer :=
  if s.aborted then none
  else match a with
  | .newConnection =>
    match (s.loops 0).phase with
    | .handling _ => some s.newConnection
    | _ => none
  | .poll i activeChannels =>
    match (s.loops i).phase with
    | .poll =>
      if (∀ a ∈ activeChannels, s.CanPoll i a.1 a.2) ∧ (activeChannels.map Prod.fst).Nodup then
        some (s.setPhase i (.handling (activeChannels.flatMap fun a => a.2.callbacks.map fun b => (a.1, b))))
      else none
    | _ => none
  | .callback i read result =>
    match (s.loops i).phase with
    | .handling ((c, b) :: callbacks) => some ((s.setPhase i (.handling callbacks)).callback i c read result b)
    | _ => none
  | .swap i =>
    match (s.loops i).phase with
    | .handling [] =>
      some { s with loops := Function.update s.loops i ⟨.calling (s.loops i).pendingFunctors, []⟩ }
    | _ => none
  | .functor i result =>
    match (s.loops i).phase with
    | .calling (f :: functors) => some ((s.setPhase i (.calling functors)).call i result f)
    | _ => none
  | .done i =>
    match (s.loops i).phase with
    | .calling [] => some (s.setPhase i .poll)
    | _ => none
  | .forceClose c =>
    let state := (s.peers c).conn.state
    if c < s.nextConnId ∧ (state = .kConnected ∨ state = .kDisconnecting) then
      some { s with calls := s.calls ++ [.forceClose c false] }
    else none
  | .shutdown c =>
    if c < s.nextConnId ∧ (s.peers c).conn.state = .kConnected then
      some { s with calls := s.calls ++ [.shutdown c false] }
    else none
  | .send c message =>
    if c < s.nextConnId ∧ (s.peers c).conn.state = .kConnected then
      some { s with calls := s.calls ++ [.send c message] }
    else none
  | .sendInLoop c message result =>
    match (s.loops (s.peers c).loop).phase with
    | .poll => none
    | _ =>
      if c < s.nextConnId ∧ (s.peers c).conn.state = .kConnected then some (s.sendInLoop c message result) else none
  | .proceed k => (s.calls[k]?).map (s.proceed k)

def machine : Machine TcpServer Action := ⟨step⟩

end TcpServer

end Chatroom.Net
