import Chatroom.Lib.Machine
import Chatroom.Net.TcpConnection
import Chatroom.Codec.Framing

/-!
# File transfers over a connection that others use

`Service::handleReceiveFile` and the client's `sendfile` put a file on the socket themselves, between lines
that go through the queue of the loop and the output buffer. Both sides are machines whose steps are those of
the threads: every interleaving of the workers, the functors of the loop and `handleWrite`, with every count
the system calls can return, is a run. `usleep` orders nothing and has no step.

The stream is well framed when it consists of whole items (`Codec.JsonCodec.Item`): lines, and files between
their two lines.
-/

namespace Chatroom.Net

open Codec Lib

/-- The bytes of items, one after the other. -/
def encodeAll {codec : JsonCodec} (lib : JsonLib) (items : List codec.Item) : Bytes :=
  items.flatMap (JsonCodec.Item.encode lib)

section encodeAll

variable {codec : JsonCodec} (lib : JsonLib)

@[simp] theorem encodeAll_nil : encodeAll lib ([] : List codec.Item) = [] := rfl

@[simp] theorem encodeAll_append (a b : List codec.Item) :
    encodeAll lib (a ++ b) = encodeAll lib a ++ encodeAll lib b := List.flatMap_append

@[simp] theorem encodeAll_message (m : codec.Message) : encodeAll lib [.message m] = line lib m.js := by
  simp [encodeAll, JsonCodec.Item.encode]

theorem encodeAll_file (f : File) :
    encodeAll lib ([.file f] : List codec.Item) =
      line lib (metadata codec.fileHeader f.name f.bytes.length) ++ (f.bytes ++ line lib endMessage) := by
  simp [encodeAll, JsonCodec.Item.encode, File.encode]

/-- The bytes on the socket are those of the items sent, in some order, as far as they have got, and all of
them when nothing is on its way. -/
def Framed (sent : List codec.Item) (wire : Bytes) (quiet : Prop) : Prop :=
  ∃ items : List codec.Item, items.Perm sent ∧ wire <+: encodeAll lib items ∧
    (quiet → wire = encodeAll lib items)

end encodeAll

/-! ## The server: `Service::handleReceiveFile` beside the other workers -/

namespace Server

/-- What the client's codec takes for a message. -/
abbrev Message := ClientJsonCodec.Message

def receiveFileFinish : Message where
  js := .obj [("msgid", .msg .receiveFileFinish)]
  msgid := EnMsgType.receiveFileFinish.code
  msgid_eq := Json.getInt_msg _
  ne_header := by decide
  ne_end := by decide

/-- A worker of the pool that sends on the connection, at its next send. -/
inductive Worker where
  /-- the lines another request has to send here -/
  | reply (lines : List Message)
  /-- `handleReceiveFile`, with the file open -/
  | metadata (f : File)
  /-- `handleReceiveFile` in the loop over `::sendfile`, or at `endMessage` when nothing remains -/
  | body (f : File) (remaining : Bytes)

/-- The transfer whose metadata has been sent and whose `endMessage` has not. -/
def Worker.window : Worker → List (File × Bytes)
  | .body f remaining => [(f, remaining)]
  | _ => []

structure State where
  conn : TcpConnection
  workers : List Worker
  /-- the items handed to the connection so far, a file with its metadata -/
  sent : List ClientJsonCodec.Item

def init : State := ⟨.new, [], []⟩

inductive Act where
  /-- a worker takes a request that sends these lines -/
  | request (lines : List Message)
  /-- a worker takes a request for a file that opens -/
  | receiveFile (f : File)
  /-- the worker `i` makes its next call -/
  | work (i : ℕ) (n : ℕ)
  | doPendingFunctors
  | runFunctor (n : ℕ)
  | handleWrite (n : ℕ)

variable (lib : JsonLib)

/-- The next call of a worker. -/
def workStep (s : State) (i : ℕ) (n : ℕ) : Worker → Option State
  | .reply [] => none
  | .reply (m :: lines) =>
    some ⟨s.conn.send (line lib m.js), s.workers.set i (.reply lines), s.sent ++ [.message m]⟩
  | .metadata f =>
    some ⟨s.conn.send (line lib (metadata .sendFileServer f.name f.bytes.length)),
      s.workers.set i (.body f f.bytes), s.sent ++ [.file f]⟩
  | .body f (b :: remaining) =>
    some ⟨s.conn.writeFd (b :: remaining) n, s.workers.set i (.body f ((b :: remaining).drop n)), s.sent⟩
  | .body _ [] =>
    some ⟨s.conn.send (line lib endMessage), s.workers.set i (.reply [receiveFileFinish]), s.sent⟩

/-- The connection, the workers of the pool and the loop. In the loop, events are handled between two rounds
of functors. -/
def machine : Machine State Act where
  step s
    | .request lines => some { s with workers := s.workers ++ [.reply lines] }
    | .receiveFile f => some { s with workers := s.workers ++ [.metadata f] }
    | .work i n => s.workers[i]?.bind (workStep lib s i n)
    | .doPendingFunctors => s.conn.doPendingFunctors.map fun conn => { s with conn }
    | .runFunctor n => (s.conn.runFunctor n).map fun conn => { s with conn }
    | .handleWrite n => if s.conn.functors = [] then some { s with conn := s.conn.handleWrite n } else none

/-- The transfers between their metadata and their `endMessage`. -/
def State.windows (s : State) : List (File × Bytes) := s.workers.flatMap Worker.window

/-- Every request has been answered and every byte has left. -/
def State.Quiet (s : State) : Prop := s.conn.Drained ∧ ∀ w ∈ s.workers, w = .reply []

/-- No line is handed to the connection while a transfer is between its metadata and its `endMessage`, and
`::sendfile` writes only when the queue and the output buffer are empty. -/
def Ordered (s : State) : Act → Prop
  | .work i n =>
    match s.workers[i]? with
    | some (.reply _) | some (.metadata _) => s.windows = []
    | some (.body _ (_ :: _)) => n = 0 ∨ s.conn.Drained
    | _ => True
  | _ => True

/-! ### The invariant -/

/-- What is still to follow the flushed and queued bytes of a transfer. -/
def rest (lib : JsonLib) (window : File × Bytes) : Bytes := window.2 ++ line lib endMessage

/-- At most one transfer is between its metadata and its `endMessage`, and with what it still has to write
the bytes are those of the items sent. -/
def Inv (s : State) : Prop :=
  s.windows.length ≤ 1 ∧
    s.conn.flushed ++ s.conn.queued.flatten ++ s.windows.flatMap (rest lib) = encodeAll lib s.sent

theorem inv_work {s t : State} {i n : ℕ} (hok : Ordered s (.work i n))
    (hst : (machine lib).step s (.work i n) = some t) (h : Inv lib s) : Inv lib t := by
  obtain ⟨w, hw, hst⟩ := Option.bind_eq_some_iff.1 hst
  obtain ⟨p, q, hs, hset⟩ := exists_flatMap_set hw Worker.window
  rw [← State.windows] at hs
  simp only [Ordered, hw] at hok
  obtain ⟨hone, hbytes⟩ := h
  cases w with
  | reply lines =>
    cases lines with
    | nil => exact absurd hst (by simp [workStep])
    | cons m lines =>
      obtain rfl := Option.some.inj hst
      have hwin : (s.workers.set i (.reply lines)).flatMap Worker.window = [] := by
        rw [hset, ← hok, hs]
        rfl
      rw [hok] at hbytes
      refine ⟨by simp [State.windows, hwin], ?_⟩
      simp only [State.windows, hwin, TcpConnection.flushed_send, TcpConnection.queued_send, encodeAll_append,
        encodeAll_message, ← hbytes]
      simp
  | metadata f =>
    obtain rfl := Option.some.inj hst
    rw [hok] at hs hbytes
    obtain ⟨rfl, -, rfl⟩ : p = [] ∧ (Worker.metadata f).window = [] ∧ q = [] := by simpa using hs.symm
    have hwin : (s.workers.set i (.body f f.bytes)).flatMap Worker.window = [(f, f.bytes)] := hset _
    refine ⟨by simp [State.windows, hwin], ?_⟩
    simp only [State.windows, hwin, TcpConnection.flushed_send, TcpConnection.queued_send, encodeAll_append,
      encodeAll_file, ← hbytes]
    simp [rest, ClientJsonCodec]
  | body f remaining =>
    -- the worker is the one with the window
    obtain ⟨rfl, rfl⟩ : p = [] ∧ q = [] := by
      rw [hs] at hone
      simp only [Worker.window, List.length_append, List.length_cons, List.length_nil] at hone
      exact ⟨List.length_eq_zero_iff.1 (by omega), List.length_eq_zero_iff.1 (by omega)⟩
    replace hs : s.windows = [(f, remaining)] := hs
    rw [hs] at hbytes
    cases remaining with
    | nil =>
      obtain rfl := Option.some.inj hst
      have hwin : (s.workers.set i (.reply [receiveFileFinish])).flatMap Worker.window = [] := hset _
      refine ⟨by simp [State.windows, hwin], ?_⟩
      simp only [State.windows, hwin, TcpConnection.flushed_send, TcpConnection.queued_send, ← hbytes]
      simp [rest]
    | cons b remaining =>
      obtain rfl := Option.some.inj hst
      have hwin : (s.workers.set i (.body f ((b :: remaining).drop n))).flatMap Worker.window =
          [(f, (b :: remaining).drop n)] := hset _
      refine ⟨by simp [State.windows, hwin], ?_⟩
      simp only [State.windows, hwin, ← hbytes]
      rcases hok with rfl | ⟨hqueued, hout⟩
      · simp [rest, TcpConnection.queued, TcpConnection.flushed, TcpConnection.writeFd]
      · have hdata : (b :: remaining).take n ++ (b :: remaining).drop n = b :: remaining :=
          List.take_append_drop n _
        rw [TcpConnection.flushed_writeFd hout, TcpConnection.queued_writeFd, hqueued]
        simp only [List.flatten_nil, List.append_nil, List.flatMap_cons, List.flatMap_nil, rest,
          List.append_assoc]
        rw [← List.append_assoc (List.take n _), hdata]

/-- **Every step in order keeps the invariant.** -/
theorem inv_step (s : State) (a : Act) (t : State) (hok : Ordered s a)
    (hst : (machine lib).step s a = some t) (h : Inv lib s) : Inv lib t := by
  cases a with
  | request lines =>
    obtain rfl := Option.some.inj hst
    simpa [Inv, State.windows, Worker.window] using h
  | receiveFile f =>
    obtain rfl := Option.some.inj hst
    simpa [Inv, State.windows, Worker.window] using h
  | work i n => exact inv_work lib hok hst h
  | doPendingFunctors =>
    obtain ⟨conn, hconn, rfl⟩ := Option.map_eq_some_iff.1 hst
    obtain ⟨hflushed, hqueued⟩ := TcpConnection.doPendingFunctors_some hconn
    simpa [Inv, State.windows, hflushed, hqueued] using h
  | runFunctor n =>
    obtain ⟨conn, hconn, rfl⟩ := Option.map_eq_some_iff.1 hst
    obtain ⟨message, hqueued, hflushed⟩ := TcpConnection.runFunctor_some hconn
    refine ⟨h.1, ?_⟩
    rw [← h.2, hqueued]
    simp [State.windows, hflushed]
  | handleWrite n =>
    simp only [machine] at hst
    split at hst
    · obtain rfl := Option.some.inj hst
      simpa [Inv, State.windows] using h
    · exact absurd hst (by simp)

theorem inv_init : Inv lib init := by simp [Inv, init, State.windows]

theorem Inv.framed {s : State} (h : Inv lib s) : Framed lib s.sent s.conn.wire s.Quiet := by
  obtain ⟨-, hbytes⟩ := h
  refine ⟨s.sent, .rfl, ?_, ?_⟩
  · rw [← hbytes, List.append_assoc]
    exact (TcpConnection.wire_prefix_flushed _).trans (List.prefix_append _ _)
  · rintro ⟨hdrained, hworkers⟩
    have hwin : s.windows = [] := by
      refine List.flatMap_eq_nil_iff.2 fun w hw => ?_
      rw [hworkers w hw]
      rfl
    rw [hdrained.wire_eq, ← hbytes, hwin, hdrained.1]
    simp

end Server

/-! ## The client: `sendfile` beside the loop -/

namespace Client

/-- What the server's codec takes for a message. -/
abbrev Message := ServerJsonCodec.Message

/-- What it takes. -/
abbrev Item := ServerJsonCodec.Item

/-- Messages as items. -/
abbrev items (ms : List Message) : List Item := ms.map fun m => .message m

/-- The record of a transfer that `sendfile` asks the server to store. -/
def sendFileDatabase (filename : String) (sender receiver : ℤ) : Message where
  js := .obj [("filename", .str filename), ("msgid", .msg .sendFileDatabase), ("receiver", .num receiver),
    ("sender", .num sender)]
  msgid := EnMsgType.sendFileDatabase.code
  msgid_eq := Json.getInt_msg _
  ne_header := by decide
  ne_end := by decide

/-- Where the thread of the user is. -/
inductive Pc where
  | menu
  /-- `sendfile` in the loop over `::sendfile`, or at `endMessage` when nothing remains -/
  | body (f : File) (sender receiver : ℤ) (remaining : Bytes)
  /-- `sendfile` at its last `::send` -/
  | database (f : File) (sender receiver : ℤ)

structure State where
  conn : TcpConnection
  pc : Pc
  sent : List Item

def init : State := ⟨.new, .menu, []⟩

inductive Act where
  /-- the user sends a line -/
  | send (m : Message)
  /-- the user sends a file that opens -/
  | sendfile (f : File) (sender receiver : ℤ)
  /-- the next call of `sendfile` -/
  | work (n : ℕ)
  /-- the loop answers a message of the server (`checkIfBlock`) -/
  | loopSend (m : Message) (n : ℕ)
  | doPendingFunctors
  | runFunctor (n : ℕ)
  | handleWrite (n : ℕ)

variable (lib : JsonLib)

/-- The next call of `sendfile`. -/
def workStep (s : State) (n : ℕ) : Option State :=
  match s.pc with
  | .menu => none
  | .body f sender receiver (b :: remaining) =>
    some { s with
      conn := s.conn.writeFd (b :: remaining) n
      pc := .body f sender receiver ((b :: remaining).drop n) }
  | .body f sender receiver [] =>
    some { s with conn := s.conn.writeFd (line lib endMessage) n, pc := .database f sender receiver }
  | .database f sender receiver =>
    let m := sendFileDatabase f.name sender receiver
    some ⟨s.conn.writeFd (line lib m.js) n, .menu, s.sent ++ [.message m]⟩

/-- The connection, the thread of the user and the loop. -/
def machine : Machine State Act where
  step s
    | .send m =>
      match s.pc with
      | .menu => some { s with conn := s.conn.send (line lib m.js), sent := s.sent ++ [.message m] }
      | _ => none
    | .sendfile f sender receiver =>
      match s.pc with
      | .menu => some ⟨s.conn.send (line lib (metadata .sendFile f.name f.bytes.length)),
          .body f sender receiver f.bytes, s.sent ++ [.file f]⟩
      | _ => none
    | .work n => workStep lib s n
    | .loopSend m n =>
      if s.conn.functors = [] then
        some { s with conn := s.conn.sendInLoop (line lib m.js) n, sent := s.sent ++ [.message m] }
      else none
    | .doPendingFunctors => s.conn.doPendingFunctors.map fun conn => { s with conn }
    | .runFunctor n => (s.conn.runFunctor n).map fun conn => { s with conn }
    | .handleWrite n => if s.conn.functors = [] then some { s with conn := s.conn.handleWrite n } else none

def State.Quiet (s : State) : Prop := s.conn.Drained ∧ s.pc = .menu

/-- `sendfile` writes past the loop only when the bytes before its own have left, its `::send` reports the
whole line, and the loop sends nothing once the metadata of a transfer has left the queue. -/
def Ordered (s : State) : Act → Prop
  | .work n =>
    match s.pc with
    | .menu => True
    | .body _ _ _ (_ :: _) => n = 0 ∨ s.conn.Drained
    | .body _ _ _ [] => s.conn.Drained ∧ (line lib endMessage).length ≤ n
    | .database f sender receiver =>
      s.conn.outputBuffer.content = [] ∧ (line lib (sendFileDatabase f.name sender receiver).js).length ≤ n
  | .loopSend _ _ =>
    match s.pc with
    | .body _ _ _ _ => s.conn.queued ≠ []
    | _ => True
  | _ => True

/-! ### The invariant -/

/-- The flushed bytes are those of whole items, the queue holds whole lines, and then comes `last`. -/
def Whole (s : State) (last : List Bytes) (l : List Item) : Prop :=
  ∃ (a : List Item) (ms : List Message), s.conn.flushed = encodeAll lib a ∧
    s.conn.queued = ms.map (fun m => line lib m.js) ++ last ∧ (a ++ items ms ++ l).Perm s.sent

/-- Between two transfers everything is whole; in a transfer its metadata is the last of the queue, or it
has left and with what is still to follow the bytes are those of whole items. -/
def Inv (s : State) : Prop :=
  match s.pc with
  | .body f _ _ remaining =>
    (remaining = f.bytes ∧
      Whole lib s [line lib (metadata .sendFile f.name f.bytes.length)] [.file f]) ∨
    (s.conn.queued = [] ∧ ∃ a, s.conn.flushed ++ (remaining ++ line lib endMessage) = encodeAll lib (a ++ [.file f]) ∧
      (a ++ [.file f]).Perm s.sent)
  | _ => Whole lib s [] []

variable {lib}

theorem perm_behind (a b : List Item) (x : Item) : (a ++ [x] ++ b).Perm (a ++ b ++ [x]) := by
  simp only [List.append_assoc]
  exact List.perm_append_comm.append_left a

/-- A line of the loop goes in front of the queue. -/
theorem Whole.loopSend {s : State} {last : List Bytes} {l : List Item}
    (h : Whole lib s last l) (m : Message) (n : ℕ) :
    Whole lib { s with conn := s.conn.sendInLoop (line lib m.js) n, sent := s.sent ++ [.message m] }
      last l := by
  obtain ⟨a, ms, hflushed, hqueued, hperm⟩ := h
  refine ⟨a ++ [.message m], ms, by simp [hflushed], by simpa using hqueued, ?_⟩
  rw [List.append_assoc]
  rw [List.append_assoc] at hperm
  exact (perm_behind a (items ms ++ l) (.message m)).trans (hperm.append_right _)

/-- A functor takes the first line of the queue, if it is not the last of it. -/
theorem Whole.runFunctor {s : State} {last : List Bytes} {l : List Item}
    (h : Whole lib s last l) {n : ℕ} {conn : TcpConnection} (hrun : s.conn.runFunctor n = some conn) :
    Whole lib { s with conn } last l ∨
      ∃ a message, last = message :: conn.queued ∧ conn.flushed = encodeAll lib a ++ message ∧
        (a ++ l).Perm s.sent := by
  obtain ⟨a, ms, hflushed, hqueued, hperm⟩ := h
  obtain ⟨message, hhead, hflushed'⟩ := TcpConnection.runFunctor_some hrun
  rw [hqueued] at hhead
  cases ms with
  | nil => exact Or.inr ⟨a, message, hhead, by rw [hflushed', hflushed], by simpa using hperm⟩
  | cons m ms =>
    obtain ⟨rfl, htail⟩ := List.cons.inj hhead
    refine Or.inl ⟨a ++ [.message m], ms, ?_, htail.symm, by simpa using hperm⟩
    simp [hflushed', hflushed]

theorem Whole.congr {s t : State} {last : List Bytes} {l : List Item}
    (h : Whole lib s last l) (hflushed : t.conn.flushed = s.conn.flushed)
    (hqueued : t.conn.queued = s.conn.queued) (hsent : t.sent = s.sent) : Whole lib t last l := by
  obtain ⟨a, ms, h₁, h₂, h₃⟩ := h
  exact ⟨a, ms, hflushed.trans h₁, hqueued.trans h₂, hsent ▸ h₃⟩

/-- The invariant only looks at the bytes on their way. -/
theorem Inv.congr {s : State} {conn : TcpConnection} (h : Inv lib s) (hflushed : conn.flushed = s.conn.flushed)
    (hqueued : conn.queued = s.conn.queued) : Inv lib { s with conn } := by
  unfold Inv at h ⊢
  cases hpc : s.pc with
  | body f sender receiver remaining =>
    simp only [hpc] at h ⊢
    rcases h with ⟨hremaining, hwhole⟩ | ⟨hempty, a, hbytes, hperm⟩
    · exact Or.inl ⟨hremaining, hwhole.congr hflushed hqueued rfl⟩
    · exact Or.inr ⟨hqueued.trans hempty, a, by rw [hflushed, hbytes], hperm⟩
  | menu =>
    simp only [hpc] at h ⊢
    exact h.congr hflushed hqueued rfl
  | database f sender receiver =>
    simp only [hpc] at h ⊢
    exact h.congr hflushed hqueued rfl

/-- In a transfer whose metadata has left, the bytes go on from where they are. -/
theorem Inv.body_drained {s : State} {f : File} {sender receiver : ℤ} {remaining : Bytes}
    (hpc : s.pc = .body f sender receiver remaining) (h : Inv lib s) (hdrained : s.conn.Drained) :
    ∃ a, s.conn.flushed ++ (remaining ++ line lib endMessage) = encodeAll lib (a ++ [.file f]) ∧
      (a ++ [.file f]).Perm s.sent := by
  simp only [Inv, hpc] at h
  rcases h with ⟨-, a, ms, -, hqueued, -⟩ | ⟨-, h⟩
  · rw [hdrained.1] at hqueued
    exact absurd hqueued (by simp)
  · exact h

theorem inv_work {s t : State} {n : ℕ} (hok : Ordered lib s (.work n))
    (hst : (machine lib).step s (.work n) = some t) (h : Inv lib s) : Inv lib t := by
  change workStep lib s n = some t at hst
  cases hpc : s.pc with
  | menu => simp [workStep, hpc] at hst
  | body f sender receiver remaining =>
    cases remaining with
    | cons b remaining =>
      simp only [workStep, hpc] at hst
      simp only [Ordered, hpc] at hok
      obtain rfl := Option.some.inj hst
      rcases hok with rfl | hdrained
      · -- nothing was written
        have hflushed : (s.conn.writeFd (b :: remaining) 0).flushed = s.conn.flushed := by
          simp [TcpConnection.flushed, TcpConnection.writeFd]
        have hinv : Inv lib { s with conn := s.conn.writeFd (b :: remaining) 0 } := h.congr hflushed rfl
        simpa [Inv, hpc] using hinv
      · obtain ⟨a, hbytes, hperm⟩ := h.body_drained hpc hdrained
        refine Or.inr ⟨hdrained.1, a, ?_, hperm⟩
        rw [TcpConnection.flushed_writeFd hdrained.2, ← hbytes, List.append_assoc, ← List.append_assoc
          (List.take n _), List.take_append_drop]
    | nil =>
      simp only [workStep, hpc] at hst
      simp only [Ordered, hpc] at hok
      obtain rfl := Option.some.inj hst
      obtain ⟨a, hbytes, hperm⟩ := h.body_drained hpc hok.1
      refine ⟨a ++ [.file f], [], ?_, hok.1.1, by simpa using hperm⟩
      rw [TcpConnection.flushed_writeFd hok.1.2, List.take_of_length_le hok.2, ← hbytes]
      rfl
  | database f sender receiver =>
    simp only [workStep, hpc] at hst
    simp only [Ordered, hpc] at hok
    obtain rfl := Option.some.inj hst
    simp only [Inv, hpc] at h
    obtain ⟨a, ms, hflushed, hqueued, hperm⟩ := h
    refine ⟨a ++ [.message (sendFileDatabase f.name sender receiver)], ms, ?_, hqueued, ?_⟩
    · rw [TcpConnection.flushed_writeFd hok.1, List.take_of_length_le hok.2, hflushed]
      simp
    · rw [List.append_nil] at hperm ⊢
      exact (perm_behind a (items ms) _).trans (hperm.append_right _)

/-- **Every step in order keeps the invariant.** -/
theorem inv_step (s : State) (a : Act) (t : State) (hok : Ordered lib s a)
    (hst : (machine lib).step s a = some t) (h : Inv lib s) : Inv lib t := by
  cases a with
  | send m =>
    simp only [machine] at hst
    split at hst
    · rename_i hpc
      obtain rfl := Option.some.inj hst
      simp only [Inv, hpc] at h ⊢
      obtain ⟨a, ms, hflushed, hqueued, hperm⟩ := h
      refine ⟨a, ms ++ [m], hflushed, by simp [hqueued], ?_⟩
      simpa using hperm.append_right [.message m]
    · exact absurd hst (by simp)
  | sendfile f sender receiver =>
    simp only [machine] at hst
    split at hst
    · rename_i hpc
      obtain rfl := Option.some.inj hst
      simp only [Inv, hpc] at h
      obtain ⟨a, ms, hflushed, hqueued, hperm⟩ := h
      refine Or.inl ⟨rfl, a, ms, hflushed, by simp [hqueued], ?_⟩
      simpa using hperm.append_right [.file f]
    · exact absurd hst (by simp)
  | work n => exact inv_work hok hst h
  | loopSend m n =>
    simp only [machine] at hst
    split at hst
    · obtain rfl := Option.some.inj hst
      simp only [Inv] at h ⊢
      cases hpc : s.pc with
      | body f sender receiver remaining =>
        simp only [Ordered, hpc] at hok h ⊢
        rcases h with ⟨hremaining, hwhole⟩ | ⟨hempty, -⟩
        · exact Or.inl ⟨hremaining, hwhole.loopSend m n⟩
        · exact absurd hempty hok
      | menu =>
        simp only [hpc] at h ⊢
        exact h.loopSend m n
      | database f sender receiver =>
        simp only [hpc] at h ⊢
        exact h.loopSend m n
    · exact absurd hst (by simp)
  | doPendingFunctors =>
    obtain ⟨conn, hconn, rfl⟩ := Option.map_eq_some_iff.1 hst
    obtain ⟨hflushed, hqueued⟩ := TcpConnection.doPendingFunctors_some hconn
    exact h.congr hflushed hqueued
  | runFunctor n =>
    obtain ⟨conn, hconn, rfl⟩ := Option.map_eq_some_iff.1 hst
    simp only [Inv] at h ⊢
    cases hpc : s.pc with
    | body f sender receiver remaining =>
      simp only [hpc] at h ⊢
      rcases h with ⟨rfl, hwhole⟩ | ⟨hempty, -⟩
      · rcases hwhole.runFunctor hconn with hwhole' | ⟨a, message, hlast, hflushed, hperm⟩
        · exact Or.inl ⟨rfl, hwhole'⟩
        · -- the metadata leaves the queue
          obtain ⟨rfl, hqueued⟩ := List.cons.inj hlast
          refine Or.inr ⟨hqueued.symm, a, ?_, hperm⟩
          rw [hflushed, encodeAll_append, encodeAll_file, List.append_assoc]
          rfl
      · obtain ⟨message, hqueued, -⟩ := TcpConnection.runFunctor_some hconn
        exact absurd (hempty.symm.trans hqueued) (by simp)
    | menu | database =>
      simp only [hpc] at h ⊢
      rcases h.runFunctor hconn with hwhole | ⟨a, message, hlast, -⟩
      · exact hwhole
      · exact absurd hlast (by simp)
  | handleWrite n =>
    simp only [machine] at hst
    split at hst
    · obtain rfl := Option.some.inj hst
      exact h.congr (TcpConnection.flushed_handleWrite _ _) (TcpConnection.queued_handleWrite _ _)
    · exact absurd hst (by simp)

theorem inv_init : Inv lib init := ⟨[], [], by simp [init], rfl, .nil⟩

theorem Whole.framed {s : State} {last : List Bytes} {l : List Item} (h : Whole lib s last l)
    (hlast : s.Quiet → l = []) : Framed lib s.sent s.conn.wire s.Quiet := by
  obtain ⟨a, ms, hflushed, hqueued, hperm⟩ := h
  refine ⟨_, hperm, ?_, ?_⟩
  · rw [List.append_assoc, encodeAll_append, ← hflushed]
    exact (TcpConnection.wire_prefix_flushed _).trans (List.prefix_append _ _)
  · intro hquiet
    rw [hquiet.1.1] at hqueued
    obtain rfl : ms = [] := List.map_eq_nil_iff.1 (List.append_eq_nil_iff.1 hqueued.symm).1
    rw [hlast hquiet, hquiet.1.wire_eq, hflushed]
    simp

theorem Inv.framed {s : State} (h : Inv lib s) : Framed lib s.sent s.conn.wire s.Quiet := by
  unfold Inv at h
  cases hpc : s.pc with
  | body f sender receiver remaining =>
    have hbusy : ¬ s.Quiet := by
      rintro ⟨-, hmenu⟩
      exact absurd (hpc.symm.trans hmenu) (by simp)
    simp only [hpc] at h
    rcases h with ⟨-, hwhole⟩ | ⟨-, a, hbytes, hperm⟩
    · exact hwhole.framed fun hquiet => absurd hquiet hbusy
    · refine ⟨_, hperm, ?_, fun hquiet => absurd hquiet hbusy⟩
      rw [← hbytes]
      exact (TcpConnection.wire_prefix_flushed _).trans (List.prefix_append _ _)
  | menu =>
    simp only [hpc] at h
    exact h.framed fun _ => rfl
  | database f sender receiver =>
    simp only [hpc] at h
    exact h.framed fun _ => rfl

end Client

/-! ## What holds on the wire -/

/-- **Every run whose steps come in order is well framed**, at every moment and on both sides. -/
theorem transfers_framed (lib : JsonLib) :
    (∀ acts s, (Server.machine lib).Run Server.Ordered Server.init acts s →
      Framed lib s.sent s.conn.wire s.Quiet) ∧
    (∀ acts s, (Client.machine lib).Run (Client.Ordered lib) Client.init acts s →
      Framed lib s.sent s.conn.wire s.Quiet) := by
  refine ⟨fun acts s h => ?_, fun acts s h => ?_⟩
  · exact (h.invariant (Server.inv_step lib) (Server.inv_init lib)).framed
  · exact (h.invariant Client.inv_step Client.inv_init).framed

/-- A file of one byte. -/
def oneByte : File := ⟨"a", [7], by decide⟩

/-- The file goes out after its metadata has left, and the two lines after it through the queue. -/
theorem transfers_framed_oneByte :
    ∃ acts s, (Server.machine (.ofList [])).Run Server.Ordered Server.init acts s ∧ s.Quiet ∧
      s.sent = [.file oneByte, .message Server.receiveFileFinish] ∧
      Framed (.ofList []) s.sent s.conn.wire s.Quiet := by
  have hrun : ∃ s, (Server.machine (.ofList [])).Run Server.Ordered Server.init
      [.receiveFile oneByte, .work 0 0, .doPendingFunctors, .runFunctor 100, .work 0 1, .work 0 0, .work 0 0,
        .doPendingFunctors, .runFunctor 100, .runFunctor 100] s ∧ s.Quiet ∧
      s.sent = [.file oneByte, .message Server.receiveFileFinish] := by
    refine ⟨_, .cons trivial rfl <| .cons rfl rfl <| .cons trivial rfl <| .cons trivial rfl <|
      .cons (Or.inr ⟨rfl, ?_⟩) rfl <| .cons trivial rfl <| .cons rfl rfl <| .cons trivial rfl <|
      .cons trivial rfl <| .cons trivial rfl <| .nil _, ⟨⟨rfl, ?_⟩, ?_⟩, rfl⟩
    · decide
    · decide
    · simp [Server.init]
  obtain ⟨s, hrun, hquiet, hsent⟩ := hrun
  exact ⟨_, s, hrun, hquiet, hsent, (transfers_framed (.ofList [])).1 _ s hrun⟩

/-- An item starts with a brace. -/
theorem head?_encode {codec : JsonCodec} (known : List Json) (item : codec.Item) :
    (item.encode (.ofList known)).head? = some 123 := by
  cases item with
  | message m =>
    obtain ⟨fields, hobj⟩ := Json.isObj_of_intField m.msgid_eq
    rw [JsonCodec.Item.encode, hobj]
    rfl
  | file f => rfl

/-- A socket with a byte of a file in front of everything is not well framed. -/
theorem not_framed_of_head {codec : JsonCodec} (known : List Json) {sent : List codec.Item} {b : Byte}
    {wire : Bytes} {quiet : Prop} (hb : b ≠ 123) : ¬ Framed (.ofList known) sent (b :: wire) quiet := by
  rintro ⟨items, -, ⟨rest, hrest⟩, -⟩
  cases items with
  | nil => exact absurd hrest (by simp)
  | cons item items =>
    have hhead : (encodeAll (.ofList known) (item :: items)).head? = some 123 := by
      simp [encodeAll, head?_encode]
    rw [← hrest] at hhead
    exact hb (Option.some.inj hhead)

/-- The worker writes the file to the socket while its metadata is still in the queue of the loop. -/
theorem sendfile_overtakes_metadata :
    ∃ s, (Server.machine (.ofList [])).Run (fun _ _ => True) Server.init
        [.receiveFile oneByte, .work 0 0, .work 0 1] s ∧
      ¬ Framed (.ofList []) s.sent s.conn.wire s.Quiet := by
  refine ⟨_, Machine.run_of_exec rfl, ?_⟩
  exact not_framed_of_head [] (by decide)

end Chatroom.Net
