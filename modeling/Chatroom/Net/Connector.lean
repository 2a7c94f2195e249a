import Chatroom.Net.EventLoop
import Chatroom.Net.TimerCancel

/-!
# `Connector`

The `Connector` of a `TcpClient` until a connection is there, with the `EventLoop` that runs its functors and the
`TimerQueue` that holds its retry timers. Any thread calls `connect` and `stop`, each in two steps: `m_connect` is set,
and then `runInLoop` is called. The sockets are numbered in the order in which they are created. `asserted` says that
no `assert` of the `Connector` has failed so far and no null pointer was used.
-/

namespace Chatroom.Net

open Lib

/-- The values of `errno`, 0 for none. -/
abbrev Errno := ℕ

namespace Errno

def EINTR : Errno := 4
def EAGAIN : Errno := 11
def EADDRINUSE : Errno := 98
def EADDRNOTAVAIL : Errno := 99
def ENETUNREACH : Errno := 101
def EISCONN : Errno := 106
def ECONNREFUSED : Errno := 111
def EINPROGRESS : Errno := 115

end Errno

namespace Connector

inductive States where
  | kDisconnected
  | kConnecting
  | kConnected
  deriving DecidableEq

def kMaxRetryDelayMs : ℕ := 30 * 1000

def kInitRetryDelayMs : ℕ := 500

structure Channel where
  sockfd : ℕ
  /-- it is in the poller -/
  registered : Bool
  deriving DecidableEq

/-- `disableAll` and `removeChannel` -/
def Channel.remove (channel : Channel) : Channel := { channel with registered := false }

/-- The functors that the loop is given. -/
inductive Functor where
  /-- from `start` -/
  | startInLoop
  | resetChannel
  /-- from `stop` -/
  | cancelInLoop (id : TimerId)
  /-- a functor of another object -/
  | other
  deriving DecidableEq

/-- Where a thread is in a call on the connector. -/
inductive Inside where
  | idle
  /-- in `start`, which has set `m_connect` -/
  | starting
  /-- in `stop`, which has cleared it -/
  | stopping
  deriving DecidableEq

/-- What the calls of a step on the system return. -/
structure Outcome where
  /-- of `connect(2)` -/
  errno : Errno
  /-- of `getSocketError` -/
  err : Errno
  isSelfConnect : Bool
  /-- of `new Timer` -/
  timer : Address
  /-- of `Timestamp::now`, when the timer is made and when it is added -/
  now : Timestamp
  clock : Timestamp

end Connector

structure Connector (ι : Type*) where
  m_connect : Bool
  m_state : Connector.States
  m_Channel : Option Connector.Channel
  m_retryDelayMs : ℕ
  m_timerId : TimerId
  loop : EventLoop ι Connector.Functor
  timers : TimerQueue
  inside : Option ι → Connector.Inside
  /-- the numbers of the timers whose callback is `startInLoop` -/
  retries : List ℤ
  /-- how many sockets were created -/
  sockets : ℕ
  closed : List ℕ
  /-- those given to `m_newConnectionCallback` -/
  handed : List ℕ
  asserted : Bool

namespace Connector

variable {ι : Type*}

def new : Connector ι :=
  ⟨false, .kDisconnected, none, kInitRetryDelayMs, .ofTimer 0, .new, .init, fun _ => .idle, [], 0, [], [], true⟩

section Operations

variable (s : Connector ι)

def assert (b : Prop) [Decidable b] : Connector ι := { s with asserted := s.asserted && b }

def close (sockfd : ℕ) : Connector ι := { s with closed := sockfd :: s.closed }

def resetChannel : Connector ι := { s with m_Channel := none }

/-- `runAfter` makes a timer that does not repeat, and adds it at once. -/
def runAfter (delayMs : ℕ) (o : Outcome) : Option (Connector ι) :=
  (s.timers.step (.new o.timer (o.now + delayMs * 1000) none)).bind fun timers =>
    (timers.step (.addTimerInLoop o.timer o.clock)).map fun timers =>
      { s with timers, m_timerId := .ofTimer o.timer, retries := (s.timers.numCreated + 1) :: s.retries }

def retry (sockfd : ℕ) (o : Outcome) : Option (Connector ι) :=
  let s := { s.close sockfd with m_state := .kDisconnected }
  if s.m_connect then
    (s.runAfter s.m_retryDelayMs o).map fun s =>
      { s with m_retryDelayMs := min (s.m_retryDelayMs * 2) kMaxRetryDelayMs }
  else some s

def connecting (sockfd : ℕ) : Connector ι :=
  let s := { s with m_state := .kConnecting }
  { s.assert (s.m_Channel = none) with m_Channel := some ⟨sockfd, true⟩ }

/-- `connect(2)` goes on, or is done. -/
def Begins (errno : Errno) : Prop := errno ∈ [0, Errno.EINPROGRESS, .EINTR, .EISCONN]

/-- The attempt is to be made again. -/
def Fails (errno : Errno) : Prop :=
  errno ∈ [Errno.EAGAIN, .EADDRINUSE, .EADDRNOTAVAIL, .ECONNREFUSED, .ENETUNREACH]

instance (errno : Errno) : Decidable (Begins errno) :=
  inferInstanceAs (Decidable (errno ∈ [0, Errno.EINPROGRESS, .EINTR, .EISCONN]))

instance (errno : Errno) : Decidable (Fails errno) :=
  inferInstanceAs (Decidable (errno ∈ [Errno.EAGAIN, .EADDRINUSE, .EADDRNOTAVAIL, .ECONNREFUSED, .ENETUNREACH]))

def connect (o : Outcome) : Option (Connector ι) :=
  let sockfd := s.sockets
  let s := { s with sockets := s.sockets + 1 }
  if Begins o.errno then some (s.connecting sockfd)
  else if Fails o.errno then s.retry sockfd o
  else some (s.close sockfd)

def startInLoop (o : Outcome) : Option (Connector ι) :=
  let s := s.assert (s.m_state = .kDisconnected)
  if s.m_connect then s.connect o else some s

def cancelInLoop (id : TimerId) : Option (Connector ι) :=
  (s.timers.step (.cancelInLoop id)).map fun timers => { s with timers }

variable [DecidableEq ι]

def enter (thread : Option ι) (inside : Inside) : Connector ι :=
  { s with inside := Function.update s.inside thread inside }

def queue (thread : Option ι) (cb : Functor) : Connector ι := { s with loop := s.loop.queueInLoop thread cb }

/-- The channel leaves the poller, and `resetChannel` is queued. -/
def removeAndResetChannel : ℕ × Connector ι :=
  let s := s.assert s.m_Channel.isSome
  let sockfd := (s.m_Channel.map Channel.sockfd).getD 0
  let s := { s with m_Channel := s.m_Channel.map Channel.remove }
  (sockfd, s.queue none .resetChannel)

def handleWrite (o : Outcome) : Option (Connector ι) :=
  if s.m_state = .kConnecting then
    let (sockfd, s) := s.removeAndResetChannel
    if o.err ≠ 0 then s.retry sockfd o
    else if o.isSelfConnect then s.retry sockfd o
    else
      let s := { s with m_state := .kConnected }
      if s.m_connect then some { s with handed := sockfd :: s.handed } else some (s.close sockfd)
  else some (s.assert (s.m_state = .kDisconnected))

def handleError (o : Outcome) : Option (Connector ι) :=
  let (sockfd, s) := (s.assert (s.m_state = .kConnecting)).removeAndResetChannel
  s.retry sockfd o

/-- `Channel::handleEvent`: the error callback comes before the write callback. -/
def handleEvent (error write : Bool) (o : Outcome) : Option (Connector ι) :=
  (if error then s.handleError o else some s).bind fun s => if write then s.handleWrite o else some s

/-- The second half of `start` and of `stop`. -/
def runInLoop (thread : Option ι) (o : Outcome) : Option (Connector ι) :=
  match s.inside thread, thread with
  | .starting, none => (s.enter none .idle).startInLoop o
  | .starting, some i => some ((s.enter (some i) .idle).queue (some i) .startInLoop)
  | .stopping, none => (s.enter none .idle).cancelInLoop s.m_timerId
  | .stopping, some i => some ((s.enter (some i) .idle).queue (some i) (.cancelInLoop s.m_timerId))
  | .idle, _ => none

/-- A functor is called. -/
def call (o : Outcome) : Functor → Option (Connector ι)
  | .startInLoop => s.startInLoop o
  | .resetChannel => some s.resetChannel
  | .cancelInLoop id => s.cancelInLoop id
  | .other => some s

end Operations

/-! ## What can happen -/

inductive Action (ι : Type*) where
  /-- `connect` sets `m_connect` -/
  | connect (thread : Option ι)
  /-- `stop` clears it -/
  | stop (thread : Option ι)
  /-- the other half of either -/
  | runInLoop (thread : Option ι) (o : Outcome)
  | queueOther (thread : Option ι)
  | quit (thread : Option ι)
  | wakeup (thread : Option ι)
  /-- the next functor is run -/
  | functor (o : Outcome)
  /-- the other steps of the loop -/
  | loop (a : EventLoop.Advance)
  /-- the events of the attempt's channel are handled -/
  | handleEvent (error write : Bool) (o : Outcome)
  /-- the next callback of an expired timer is called -/
  | run (o : Outcome)
  /-- the other steps of the timers -/
  | timers (a : TimerQueue.Action)

variable [DecidableEq ι] (s : Connector ι)

/-- The thread may call something. -/
def Free (thread : Option ι) : Prop :=
  s.loop.CanCall thread ∧ s.inside thread = .idle ∧ (thread = none → s.timers.Free)

/-- The thread of the loop is in an event handler. -/
def Handling : Prop :=
  s.loop.callers none = .idle ∧ s.loop.phase.calls = true ∧ s.loop.phase.collects = true ∧ s.inside none = .idle

instance (thread : Option ι) : Decidable (s.Free thread) :=
  inferInstanceAs (Decidable (s.loop.CanCall thread ∧ s.inside thread = .idle ∧ (thread = none → s.timers.Free)))

instance : Decidable s.Handling :=
  inferInstanceAs (Decidable (s.loop.callers none = .idle ∧ s.loop.phase.calls = true ∧
    s.loop.phase.collects = true ∧ s.inside none = .idle))

/-- The number of the timer whose callback is the next one. -/
def next? : Option ℤ :=
  match s.timers.handling with
  | some ⟨_, _, e :: _⟩ => some (s.timers.timer (ofLex e).2).sequence
  | _ => none

/-- Other objects make timers on any thread, and the loop's thread adds and cancels them. -/
def Permits : TimerQueue.Action → Prop
  | .new .. | .fire => True
  | .addTimerInLoop .. | .cancelInLoop _ => s.Free none
  | .handleRead _ | .reset _ => s.Handling
  | .run => False

instance (a : TimerQueue.Action) : Decidable (s.Permits a) :=
  match a with
  | .new .. | .fire => .isTrue trivial
  | .addTimerInLoop .. | .cancelInLoop _ => inferInstanceAs (Decidable (s.Free none))
  | .handleRead _ | .reset _ => inferInstanceAs (Decidable s.Handling)
  | .run => .isFalse id

/-- `connect` is not called twice without a `stop` between, and nothing is called when a connection is there. -/
def step : Action ι → Option (Connector ι)
  | .connect thread =>
    if s.Free thread ∧ s.handed = [] ∧ s.m_connect = false then
      some ({ s with m_connect := true }.enter thread .starting)
    else none
  | .stop thread =>
    if s.Free thread ∧ s.handed = [] then some ({ s with m_connect := false }.enter thread .stopping) else none
  | .runInLoop thread o => s.runInLoop thread o
  | .queueOther thread => if s.Free thread then some (s.queue thread .other) else none
  | .quit thread => if s.Free thread then (s.loop.step (.quit thread)).map fun loop => { s with loop } else none
  | .wakeup thread => (s.loop.step (.wakeup thread)).map fun loop => { s with loop }
  | .functor o =>
    if s.inside none = .idle then
      s.loop.phase.functors.head?.bind fun cb =>
        (s.loop.step (.loop .functor)).bind fun loop => { s with loop }.call o cb
    else none
  | .loop a =>
    if s.inside none = .idle ∧ s.timers.handling.isNone ∧ a ≠ .functor then
      (s.loop.step (.loop a)).map fun loop => { s with loop }
    else none
  | .handleEvent error write o =>
    if s.Handling ∧ s.timers.handling.isNone ∧ s.m_Channel.any Channel.registered then s.handleEvent error write o
    else none
  | .run o =>
    if s.Handling then
      s.next?.bind fun q =>
        (s.timers.step .run).bind fun timers =>
          if q ∈ s.retries then { s with timers }.startInLoop o else some { s with timers }
    else none
  | .timers a => if s.Permits a then (s.timers.step a).map fun timers => { s with timers } else none

def machine : Machine (Connector ι) (Action ι) := ⟨step⟩

/-! ## One socket at a time -/

/-- The socket is neither closed nor handed over. -/
def IsOpen (i : ℕ) : Prop := i < s.sockets ∧ i ∉ s.closed ∧ i ∉ s.handed

structure Sound (s : Connector ι) : Prop where
  asserted : s.asserted = true
  one : ∀ i j, s.IsOpen i → s.IsOpen j → i = j
  notBoth : ∀ i ∈ s.closed, i ∉ s.handed

/-- No `startInLoop` is still to come, and the state is the one that it asks for. When the thread of the loop calls
`connect`, no channel waits for its `resetChannel`. -/
def CanStart (thread : Option ι) : Prop :=
  s.m_state = .kDisconnected ∧ .startInLoop ∉ s.loop.queued ∧ (∀ other, s.inside other ≠ .starting) ∧
    (∀ q ∈ s.retries, ¬s.timers.IsPending q) ∧ (thread = none → .resetChannel ∉ s.loop.queued)

/-- A retry begins no attempt while a channel waits for its `resetChannel`. -/
def CanRetry (o : Outcome) : Prop :=
  s.next?.any (· ∈ s.retries) → s.m_connect = true → Begins o.errno → .resetChannel ∉ s.loop.queued

def Careful (s : Connector ι) : Action ι → Prop
  | .connect thread => s.CanStart thread
  | .run o => s.CanRetry o
  | _ => True

end Connector

end Chatroom.Net
