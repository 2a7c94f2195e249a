import Chatroom.Net.Buffer

/-!
# `JsonCodec::onMessage`

The receiving half of the two codecs (`ServerJsonCodec.h`, `ClientJsonCodec.h`) on one connection: the loop
over the input buffer that cuts off CRLF-terminated lines, parses them, and counts the bytes of a file while
a transfer is on. The two classes differ in the message id that announces a file, in the directory, and in
the calls that keep the heartbeat quiet; both are `JsonCodec.onMessage` at their own values.
-/

namespace Chatroom.Codec

open Net

/-- `FileTransferState`; the stream `outfile` is named by the path it was opened with. -/
structure FileTransferState where
  outfile : String
  fileSize : ℕ
  deriving DecidableEq

/-- What a call of `onMessage` does to the outside. -/
inductive Effect where
  /-- `m_messageCallback(conn, js, time)` -/
  | dispatch (js : Json)
  /-- `conn->shutdown()` -/
  | shutdown
  /-- the `ofstream` of a transfer was opened -/
  | opened (path : String)
  /-- `outfile->write` -/
  | write (path : String) (data : Bytes)
  /-- `outfile->close` -/
  | close (path : String)
  | removeConnStatus
  | addConnStatus

/-- Where the two codecs differ. -/
structure JsonCodec where
  /-- the id of the line that announces a file -/
  fileHeader : EnMsgType
  /-- what is put in front of the file name -/
  dir : String
  /-- the codec calls `Service::removeConnStatus` and `Service::addConnStatus` -/
  keepsAlive : Bool

/-- `JsonCodec` of `ServerJsonCodec.h`. -/
def ServerJsonCodec : JsonCodec := ⟨.sendFile, "./received_files/", true⟩

/-- `JsonCodec` of `ClientJsonCodec.h`. -/
def ClientJsonCodec : JsonCodec := ⟨.sendFileServer, "./", false⟩

/-- What the codec depends on: the JSON library, and whether a path opens for writing, which may depend on
everything the connection has done so far. -/
structure Env where
  lib : JsonLib
  opens : List Effect → String → Bool

/-- A connection as its codec sees it: the input buffer, its entry of `m_fileTransferStates`, the effects
so far, and the exception that left `onMessage`, if one did. -/
structure Conn where
  buf : Buffer
  xfer : Option FileTransferState
  log : List Effect
  raised : Option Exn

/-- A new connection. -/
def Conn.new : Conn := ⟨Buffer.new, none, [], none⟩

/-- What the loop of `onMessage` has left: two for a byte, one for a transfer that is on. -/
def Conn.left (c : Conn) : ℕ := 2 * c.buf.readableBytes + c.xfer.isSome.toNat

/-- A line, as the two field reads after `json::parse` tell lines apart. -/
inductive Frame where
  | header (filename : String) (fileSize : ℕ)
  | fileEnd
  | message (js : Json)

/-- How the body of the loop goes on. -/
inductive Control where
  | loop | ret | raise (e : Exn)

namespace JsonCodec

variable (codec : JsonCodec) (env : Env)

/-- `json::parse` and the reads of `msgid`, `filename` and `filesize`. -/
def readFrame (jsonString : Bytes) : Except Exn Frame := do
  let js ← env.lib.parse jsonString
  let msgid ← js.intField "msgid"
  if msgid = codec.fileHeader.code then
    let filename ← js.stringField "filename"
    let fileSize ← js.sizeField "filesize"
    return .header filename fileSize
  else if msgid = EnMsgType.sendFileEnd.code then
    return .fileEnd
  else
    return .message js

/-- The `try` block of `onMessage`, for a line that was cut off the buffer. -/
def handleLine (jsonString : Bytes) (c : Conn) : Control × Conn :=
  match codec.readFrame env jsonString with
  | .ok (.header filename fileSize) =>
    let fullpath := codec.dir ++ filename
    if env.opens c.log fullpath then
      (.loop, { c with
        xfer := some ⟨fullpath, fileSize⟩
        log := c.log ++ .opened fullpath :: if codec.keepsAlive then [.removeConnStatus] else [] })
    else
      (.ret, { c with log := c.log ++ [.shutdown] })
  | .ok .fileEnd =>
    (.loop, { c with
      xfer := none
      log := c.log ++ (c.xfer.toList.map fun st => .close st.outfile) ++
        if codec.keepsAlive then [.addConnStatus] else [] })
  | .ok (.message js) => (.loop, { c with log := c.log ++ [.dispatch js] })
  | .error .parseError => (.loop, { c with log := c.log ++ [.shutdown] })
  | .error e => (.raise e, c)

/-- The branch of `onMessage` that receives the bytes of a file. -/
def receive (st : FileTransferState) (c : Conn) : Conn :=
  let readable := min c.buf.readableBytes st.fileSize
  let fileSize := st.fileSize - readable
  { c with
    buf := c.buf.retrieve readable
    xfer := if fileSize = 0 then none else some { st with fileSize }
    log := c.log ++ .write st.outfile (c.buf.content.take readable) ::
      if fileSize = 0 then [.close st.outfile] else [] }

theorem handleLine_buf (l : Bytes) (c : Conn) : (codec.handleLine env l c).2.buf = c.buf := by
  unfold handleLine
  split <;> try rfl
  dsimp only
  split <;> rfl

theorem left_handleLine {c : Conn} {i : ℕ} (h : c.buf.findCRLF = some i) (l : Bytes) :
    (codec.handleLine env l { c with buf := c.buf.retrieveUntil (i + 2) }).2.left < c.left := by
  have hi := searchCRLF_bound h
  have hb := congrArg Buffer.readableBytes (codec.handleLine_buf env l
    { c with buf := c.buf.retrieveUntil (i + 2) })
  have hr : (c.buf.retrieveUntil (i + 2)).readableBytes = c.buf.readableBytes - (i + 2) := by
    simp [Buffer.readableBytes_eq, -Buffer.length_content]
  rw [Buffer.length_content] at hi
  have := Bool.toNat_le
    (codec.handleLine env l { c with buf := c.buf.retrieveUntil (i + 2) }).2.xfer.isSome
  simp only [Conn.left] at hb ⊢
  omega

theorem left_receive {c : Conn} {st : FileTransferState} (h : 0 < c.buf.readableBytes)
    (hx : c.xfer = some st) : (receive st c).left < c.left := by
  have hr : (c.buf.retrieve (min c.buf.readableBytes st.fileSize)).readableBytes =
      c.buf.readableBytes - min c.buf.readableBytes st.fileSize := by
    simp [Buffer.readableBytes_eq, -Buffer.length_content]
  simp only [Conn.left, receive, hr, hx]
  split
  · simp only [Option.isSome_none, Option.isSome_some, Bool.toNat_false, Bool.toNat_true]
    omega
  · simp only [Option.isSome_some, Bool.toNat_true]
    omega

/-- `onMessage`: the `while` loop over the readable bytes. -/
def onMessage (c : Conn) : Conn :=
  if _hr : 0 < c.buf.readableBytes then
    match _hx : c.xfer with
    | none =>
      match _hc : c.buf.findCRLF with
      | some crlf =>
        let jsonString := c.buf.content.take crlf
        match _hl : codec.handleLine env jsonString { c with buf := c.buf.retrieveUntil (crlf + 2) } with
        | (.loop, c') => onMessage c'
        | (.ret, c') => c'
        | (.raise e, c') => { c' with raised := some e }
      | none => c
    | some st => onMessage (receive st c)
  else c
termination_by c.left
decreasing_by
  · have := codec.left_handleLine env _hc (c.buf.content.take crlf)
    rwa [_hl] at this
  · exact left_receive _hr _hx

/-- `TcpConnection::handleRead` when `readv` delivers the bytes `data`, `n > 0` of them. A thread that an
exception has left reads no more. -/
def handleRead (c : Conn) (data : Bytes) : Conn :=
  if c.raised.isSome then c else codec.onMessage env { c with buf := c.buf.readFd data }

/-- The connection after the reads `chunks`. -/
def feed (chunks : List Bytes) : Conn := chunks.foldl (codec.handleRead env) Conn.new

end JsonCodec

end Chatroom.Codec
