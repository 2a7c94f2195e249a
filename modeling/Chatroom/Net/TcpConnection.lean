import Chatroom.Net.Buffer

/-!
# `TcpConnection`, the sending half

A connected `TcpConnection` with what the other threads can touch of it: the queue of its `EventLoop`
(`m_pendingFunctors`, and the vector that `doPendingFunctors` has swapped out and is working through), the
output buffer, and the bytes that have reached the socket. `n` is always the count that the system call
returns; no call fails.
-/

namespace Chatroom.Net

structure TcpConnection where
  /-- the messages of the `sendInLoop` functors in `m_pendingFunctors` -/
  pendingFunctors : List Bytes
  /-- those that `doPendingFunctors` has taken out and not yet run -/
  functors : List Bytes
  outputBuffer : Buffer
  isWriting : Bool
  /-- the bytes accepted by the socket -/
  wire : Bytes

namespace TcpConnection

def new : TcpConnection := ⟨[], [], Buffer.new, false, []⟩

variable (conn : TcpConnection)

/-- `send` on a thread that is not the one of the loop: `queueInLoop`. -/
def send (message : Bytes) : TcpConnection :=
  { conn with pendingFunctors := conn.pendingFunctors ++ [message] }

def sendInLoop (message : Bytes) (n : ℕ) : TcpConnection :=
  let nwrote := if ¬ conn.isWriting ∧ conn.outputBuffer.readableBytes = 0 then min n message.length else 0
  let conn := { conn with wire := conn.wire ++ message.take nwrote }
  if nwrote < message.length then
    { conn with outputBuffer := conn.outputBuffer.append (message.drop nwrote), isWriting := true }
  else conn

def handleWrite (n : ℕ) : TcpConnection :=
  if conn.isWriting then
    let n := min n conn.outputBuffer.readableBytes
    if 0 < n then
      let outputBuffer := conn.outputBuffer.retrieve n
      { conn with
        wire := conn.wire ++ conn.outputBuffer.content.take n
        outputBuffer
        isWriting := 0 < outputBuffer.readableBytes }
    else conn
  else conn

/-- The swap at the start of `doPendingFunctors`, once the functors of the last round are done. -/
def doPendingFunctors : Option TcpConnection :=
  if conn.functors = [] then some { conn with functors := conn.pendingFunctors, pendingFunctors := [] }
  else none

/-- One round of the `for` loop of `doPendingFunctors`. -/
def runFunctor (n : ℕ) : Option TcpConnection :=
  match conn.functors with
  | [] => none
  | message :: functors => some ({ conn with functors }.sendInLoop message n)

/-- `::sendfile` or `::send` on the descriptor, past the loop and the output buffer. -/
def writeFd (data : Bytes) (n : ℕ) : TcpConnection := { conn with wire := conn.wire ++ data.take n }

/-! ## What the steps do to the bytes on their way -/

/-- The bytes that have left the queue, on the socket or in the output buffer. -/
def flushed : Bytes := conn.wire ++ conn.outputBuffer.content

/-- The messages still queued, in the order in which they will be sent. -/
def queued : List Bytes := conn.functors ++ conn.pendingFunctors

/-- Nothing is on its way. -/
def Drained : Prop := conn.queued = [] ∧ conn.outputBuffer.content = []

@[simp] theorem flushed_new : new.flushed = [] := by simp [flushed, new]

@[simp] theorem queued_new : new.queued = [] := rfl

@[simp] theorem flushed_send (message : Bytes) : (conn.send message).flushed = conn.flushed := rfl

@[simp] theorem queued_send (message : Bytes) : (conn.send message).queued = conn.queued ++ [message] := by
  simp [queued, send]

/-- However much of it the socket takes, a message ends up behind all that was flushed before. -/
@[simp] theorem flushed_sendInLoop (message : Bytes) (n : ℕ) :
    (conn.sendInLoop message n).flushed = conn.flushed ++ message := by
  by_cases h : ¬ conn.isWriting ∧ conn.outputBuffer.readableBytes = 0
  · have hout : conn.outputBuffer.content = [] := conn.outputBuffer.readableBytes_eq_zero.1 h.2
    simp only [sendInLoop, flushed, if_pos h]
    by_cases hn : min n message.length < message.length
    · rw [if_pos hn]
      simp [hout]
    · rw [if_neg hn]
      simp [hout, List.take_of_length_le (Nat.le_of_not_lt hn)]
  · simp only [sendInLoop, flushed, if_neg h]
    by_cases hn : 0 < message.length
    · simp [hn]
    · obtain rfl : message = [] := List.length_eq_zero_iff.1 (by omega)
      simp

@[simp] theorem queued_sendInLoop (message : Bytes) (n : ℕ) : (conn.sendInLoop message n).queued = conn.queued := by
  unfold sendInLoop
  dsimp only
  split <;> split <;> rfl

@[simp] theorem flushed_handleWrite (n : ℕ) : (conn.handleWrite n).flushed = conn.flushed := by
  unfold handleWrite
  split
  · dsimp only
    split
    · simp [flushed]
    · rfl
  · rfl

@[simp] theorem queued_handleWrite (n : ℕ) : (conn.handleWrite n).queued = conn.queued := by
  unfold handleWrite
  split
  · dsimp only
    split <;> rfl
  · rfl

theorem queued_writeFd (data : Bytes) (n : ℕ) : (conn.writeFd data n).queued = conn.queued := rfl

variable {conn}

theorem doPendingFunctors_some {conn' : TcpConnection} (h : conn.doPendingFunctors = some conn') :
    conn'.flushed = conn.flushed ∧ conn'.queued = conn.queued := by
  unfold doPendingFunctors at h
  split at h
  case isTrue hf =>
    obtain rfl := Option.some.inj h
    exact ⟨rfl, by simp [queued, hf]⟩
  case isFalse => exact absurd h (by simp)

/-- A functor moves the first queued message behind the flushed bytes. -/
theorem runFunctor_some {conn' : TcpConnection} {n : ℕ} (h : conn.runFunctor n = some conn') :
    ∃ message, conn.queued = message :: conn'.queued ∧ conn'.flushed = conn.flushed ++ message := by
  unfold runFunctor at h
  split at h
  · exact absurd h (by simp)
  · rename_i message functors hf
    obtain rfl := Option.some.inj h
    refine ⟨message, ?_, by rw [flushed_sendInLoop]; rfl⟩
    rw [queued_sendInLoop]
    simp [queued, hf]

/-- What is written past the output buffer comes right after the flushed bytes only when it is empty. -/
theorem flushed_writeFd (h : conn.outputBuffer.content = []) (data : Bytes) (n : ℕ) :
    (conn.writeFd data n).flushed = conn.flushed ++ data.take n := by
  simp [flushed, writeFd, h]

theorem wire_prefix_flushed (conn : TcpConnection) : conn.wire <+: conn.flushed := List.prefix_append _ _

theorem Drained.wire_eq (h : conn.Drained) : conn.wire = conn.flushed := by
  simp [flushed, h.2]

end TcpConnection

end Chatroom.Net
