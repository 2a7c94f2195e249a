import Chatroom.Lib.Transducer
import Chatroom.Codec.JsonCodec

/-!
# The decoder, one byte at a time

What the codec is for: a transducer on the bytes of the stream, with no buffer and no chunks. It is in the
middle of a line, in the middle of a file, or has been left by an exception (`Mode`). `onMessage` works on
whole chunks and writes files in blocks; `handleRead_simulates` says that one read of it is one run of the
decoder, up to the sizes of the blocks (`bytewise`).
-/

namespace Chatroom.Codec

open Net Lib

/-! ## The sizes of the blocks do not matter -/

/-- An effect, a block write as one write for each byte. -/
def Effect.bytewise : Effect → List Effect
  | .write path data => data.map fun b => .write path [b]
  | e => [e]

/-- The effects with every block write taken apart: two logs with one value under `bytewise` have the same
effects in the same order and write the same bytes between them. -/
def bytewise (log : List Effect) : List Effect := log.flatMap Effect.bytewise

@[simp] theorem bytewise_nil : bytewise [] = [] := rfl

@[simp] theorem bytewise_append (l m : List Effect) : bytewise (l ++ m) = bytewise l ++ bytewise m :=
  List.flatMap_append

@[simp] theorem bytewise_cons (e : Effect) (l : List Effect) : bytewise (e :: l) = e.bytewise ++ bytewise l :=
  rfl

/-! ## The decoder -/

/-- Where the decoder is in the stream. -/
inductive Mode where
  /-- in a line, of which `acc` has been read -/
  | line (acc : Bytes)
  /-- in a file, of which `remaining` bytes are to come -/
  | file (path : String) (remaining : ℕ)
  /-- an exception other than a parse error has left `onMessage` -/
  | raised (e : Exn)

namespace JsonCodec

variable (codec : JsonCodec) (env : Env)

/-- The effects of a line whose file opens, and where the stream goes on after it. -/
def endLine (l : Bytes) : Mode × List Effect :=
  match codec.readFrame env l with
  | .ok (.header filename fileSize) =>
    (.file (codec.dir ++ filename) fileSize,
      .opened (codec.dir ++ filename) :: if codec.keepsAlive then [.removeConnStatus] else [])
  | .ok .fileEnd => (.line [], if codec.keepsAlive then [.addConnStatus] else [])
  | .ok (.message js) => (.line [], [.dispatch js])
  | .error .parseError => (.line [], [.shutdown])
  | .error e => (.raised e, [])

/-- One byte. A file of no bytes is closed by the byte that follows its header. -/
def readByte : Mode → Byte → Mode × List Effect
  | .line acc, b => if acc.getLast? = some CR ∧ b = LF then codec.endLine env acc.dropLast
      else (.line (acc ++ [b]), [])
  | .file path 0, b => (.line [b], [.close path])
  | .file path 1, b => (.line [], [.write path [b], .close path])
  | .file path (n + 2), b => (.file path (n + 1), [.write path [b]])
  | .raised e, _ => (.raised e, [])

/-- The decoder. -/
def decoder : Transducer Mode Byte Effect := ⟨codec.readByte env⟩

theorem run_line_cons (acc : Bytes) {b : Byte} (h : ¬ (acc.getLast? = some CR ∧ b = LF)) (l : Bytes) :
    (codec.decoder env).run (.line acc) (b :: l) = (codec.decoder env).run (.line (acc ++ [b])) l := by
  simp [Transducer.run_cons, decoder, readByte, h]

/-- Bytes that do not break the line extend it. -/
theorem run_line {acc l : Bytes} (h : NoCRLF (acc ++ l)) :
    (codec.decoder env).run (.line acc) l = (.line (acc ++ l), []) := by
  induction l generalizing acc with
  | nil => simp
  | cons b l ih =>
    have hb : ¬ (acc.getLast? = some CR ∧ b = LF) := by
      rintro ⟨hcr, rfl⟩
      refine not_noCRLF_of_getLast hcr (NoCRLF.of_append_left (m := l) ?_)
      simpa using h
    rw [run_line_cons codec env acc hb, ih (by simpa using h)]
    simp

theorem run_line_nil {l : Bytes} (h : NoCRLF l) :
    (codec.decoder env).run (.line []) l = (.line l, []) :=
  codec.run_line env h

/-- A line and its CR LF. -/
theorem run_line_CRLF {l : Bytes} (h : NoCRLF (l ++ [CR])) :
    (codec.decoder env).run (.line []) (l ++ CRLF) = codec.endLine env l := by
  have := Transducer.run_append_of_eq _ (codec.run_line_nil env h) [LF]
  rw [List.append_assoc] at this
  simpa [Transducer.run_cons, decoder, readByte] using this

/-- The first bytes of a file that has more. -/
theorem run_file_more (path : String) {n : ℕ} {data : Bytes} (h : data.length < n) :
    (codec.decoder env).run (.file path n) data =
      (.file path (n - data.length), data.map fun b => .write path [b]) := by
  induction data generalizing n with
  | nil => simp
  | cons b data ih =>
    obtain ⟨n, rfl⟩ : ∃ k, n = k + 2 := ⟨n - 2, by simp at h; omega⟩
    simp only [List.length_cons] at h
    have hn : n + 2 - (data.length + 1) = n + 1 - data.length := by omega
    rw [Transducer.run_cons, List.length_cons, hn]
    simp only [decoder, readByte]
    rw [show (⟨codec.readByte env⟩ : Transducer Mode Byte Effect) = codec.decoder env from rfl,
      ih (by omega)]
    simp

/-- All bytes of a file that has some. -/
theorem run_file_all (path : String) {data : Bytes} (h : data ≠ []) :
    (codec.decoder env).run (.file path data.length) data =
      (.line [], (data.map fun b => .write path [b]) ++ [.close path]) := by
  obtain ⟨data, b, rfl⟩ := List.eq_nil_or_concat' data |>.resolve_left h
  have hlt : data.length < (data ++ [b]).length := by simp
  have hinit := codec.run_file_more env path hlt
  rw [Transducer.run_append_of_eq _ hinit]
  simp [Transducer.run_cons, decoder, readByte]

/-- After the header of an empty file the next byte closes it and starts a line. -/
theorem run_file_zero (path : String) {l : Bytes} (h : l ≠ []) :
    (codec.decoder env).run (.file path 0) l =
      (((codec.decoder env).run (.line []) l).1,
        .close path :: ((codec.decoder env).run (.line []) l).2) := by
  cases l with
  | nil => exact absurd rfl h
  | cons b l =>
    rw [run_line_cons codec env [] (by simp)]
    simp [Transducer.run_cons, decoder, readByte]

theorem run_raised (e : Exn) (l : Bytes) :
    (codec.decoder env).run (.raised e) l = (.raised e, []) := by
  induction l with
  | nil => rfl
  | cons b l ih =>
    rw [Transducer.run_cons, show (codec.decoder env).step (.raised e) b = (.raised e, []) from rfl, ih]
    rfl

/-! ## `onMessage` is the decoder -/

/-- The mode in which the loop of `onMessage` stands before it looks at the buffer. -/
def mode (xfer : Option FileTransferState) : Mode :=
  match xfer with
  | none => .line []
  | some st => .file st.outfile st.fileSize

/-- **The invariant between two reads.** The log is what the decoder emitted; an unfinished line is the
content of the buffer, and during a transfer the buffer is empty. -/
def Decoded : Mode → List Effect → Conn → Prop
  | .line acc, out, c => bytewise c.log = out ∧ c.raised = none ∧ c.xfer = none ∧ c.buf.content = acc ∧ NoCRLF acc
  | .file path n, out, c =>
      bytewise c.log = out ∧ c.raised = none ∧ c.xfer = some ⟨path, n⟩ ∧ c.buf.content = []
  | .raised e, out, c => bytewise c.log = out ∧ c.raised = some e

/-- What a line does in the loop is what it does in the decoder. -/
theorem handleLine_endLine (hopen : ∀ log path, env.opens log path = true) (l : Bytes) (c : Conn)
    (hx : c.xfer = none) :
    ∃ ctl c', codec.handleLine env l c = (ctl, c') ∧ c'.buf = c.buf ∧ c'.raised = c.raised ∧
      bytewise c'.log = bytewise c.log ++ bytewise (codec.endLine env l).2 ∧
      match (codec.endLine env l).1 with
      | .raised e => ctl = .raise e
      | m => ctl = .loop ∧ mode c'.xfer = m := by
  unfold handleLine endLine
  rcases codec.readFrame env l with (_ | _ | _) | (_ | _ | _) <;>
    simp [hopen, hx, mode]

theorem bytewise_endLine (l : Bytes) : bytewise (codec.endLine env l).2 = (codec.endLine env l).2 := by
  unfold endLine
  rcases codec.readFrame env l with (_ | _ | _) | (_ | _ | _) <;>
    cases codec.keepsAlive <;> simp [Effect.bytewise]

/-! ### The four ways through the loop -/

theorem onMessage_of_empty {c : Conn} (h : c.buf.content = []) : codec.onMessage env c = c := by
  rw [onMessage, dif_neg]
  simp [Buffer.readableBytes_eq, -Buffer.length_content, h]

theorem onMessage_of_transfer {c : Conn} {st : FileTransferState} (h : c.buf.content ≠ [])
    (hx : c.xfer = some st) : codec.onMessage env c = codec.onMessage env (receive st c) := by
  rw [onMessage, dif_pos (Nat.pos_of_ne_zero fun e => h (c.buf.readableBytes_eq_zero.1 e))]
  split
  · simp_all
  · rename_i st' hx'
    rw [hx] at hx'
    rw [Option.some.inj hx']

theorem onMessage_of_noCRLF {c : Conn} (hx : c.xfer = none) (h : NoCRLF c.buf.content) :
    codec.onMessage env c = c := by
  rw [onMessage]
  split
  · split
    · split
      · rename_i hcrlf
        exact absurd (hcrlf.symm.trans h) (by simp)
      · rfl
    · simp_all
  · rfl

theorem onMessage_of_CRLF {c : Conn} {crlf : ℕ} (hx : c.xfer = none) (h : c.buf.findCRLF = some crlf) :
    codec.onMessage env c =
      match codec.handleLine env (c.buf.content.take crlf) { c with buf := c.buf.retrieveUntil (crlf + 2) } with
      | (.loop, c') => codec.onMessage env c'
      | (.ret, c') => c'
      | (.raise e, c') => { c' with raised := some e } := by
  have hpos : 0 < c.buf.readableBytes := by
    have := searchCRLF_bound h
    rw [Buffer.length_content] at this
    omega
  rw [onMessage, dif_pos hpos]
  split
  · split
    · rename_i i hi
      obtain rfl : crlf = i := Option.some.inj (h.symm.trans hi)
      dsimp only
      split <;> simp_all
    · simp_all
  · simp_all

/-! ### One round of the loop -/

/-- A round inside a transfer does not change what the decoder makes of the rest. -/
theorem run_receive {c : Conn} {st : FileTransferState} (h : c.buf.content ≠ []) (hx : c.xfer = some st) :
    ((codec.decoder env).run (mode c.xfer) c.buf.content).1 =
        ((codec.decoder env).run (mode (receive st c).xfer) (receive st c).buf.content).1 ∧
      bytewise c.log ++ ((codec.decoder env).run (mode c.xfer) c.buf.content).2 =
        bytewise (receive st c).log ++
          ((codec.decoder env).run (mode (receive st c).xfer) (receive st c).buf.content).2 := by
  have hlen : c.buf.readableBytes = c.buf.content.length := c.buf.readableBytes_eq
  rcases Nat.lt_or_ge c.buf.content.length st.fileSize with hlt | hge
  · have hne : st.fileSize - c.buf.content.length ≠ 0 := by omega
    have hmin : min c.buf.content.length st.fileSize = c.buf.content.length := min_eq_left (by omega)
    simp only [receive, hx, mode, codec.run_file_more env st.outfile hlt, hlen, hmin, if_neg hne]
    simp [-Buffer.length_content, Effect.bytewise]
  · simp only [receive, hx, mode, hlen, min_eq_right hge, Nat.sub_self, if_true, Buffer.content_retrieve]
    rcases Nat.eq_zero_or_pos st.fileSize with h0 | hpos
    · rw [h0, codec.run_file_zero env st.outfile h]
      simp [Effect.bytewise]
    · have hlenTake : (c.buf.content.take st.fileSize).length = st.fileSize := List.length_take_of_le hge
      have hne : c.buf.content.take st.fileSize ≠ [] := List.ne_nil_of_length_pos (by omega)
      have hall := codec.run_file_all env st.outfile hne
      rw [hlenTake] at hall
      have hrun := Transducer.run_append_of_eq _ hall (c.buf.content.drop st.fileSize)
      rw [List.take_append_drop] at hrun
      rw [hrun]
      simp [Effect.bytewise]

/-- A round that cuts a line off does not either, and an exception ends the loop where it ends the
decoder. -/
theorem run_handleLine (hopen : ∀ log path, env.opens log path = true) {c : Conn} {crlf : ℕ}
    (hx : c.xfer = none) (h : c.buf.findCRLF = some crlf) :
    ∃ c', c'.raised = c.raised ∧ c'.buf = c.buf.retrieveUntil (crlf + 2) ∧
      ((codec.handleLine env (c.buf.content.take crlf) { c with buf := c.buf.retrieveUntil (crlf + 2) } =
          (.loop, c') ∧
        ((codec.decoder env).run (mode c.xfer) c.buf.content).1 =
          ((codec.decoder env).run (mode c'.xfer) c'.buf.content).1 ∧
        bytewise c.log ++ ((codec.decoder env).run (mode c.xfer) c.buf.content).2 =
          bytewise c'.log ++ ((codec.decoder env).run (mode c'.xfer) c'.buf.content).2) ∨
      ∃ e, codec.handleLine env (c.buf.content.take crlf) { c with buf := c.buf.retrieveUntil (crlf + 2) } =
          (.raise e, c') ∧
        ((codec.decoder env).run (mode c.xfer) c.buf.content).1 = .raised e ∧
        bytewise c.log ++ ((codec.decoder env).run (mode c.xfer) c.buf.content).2 = bytewise c'.log) := by
  obtain ⟨hcut, hline⟩ := searchCRLF_eq_some h
  obtain ⟨ctl, c', hhandle, hbuf, hraised, hlog, hend⟩ := codec.handleLine_endLine env hopen
    (c.buf.content.take crlf) { c with buf := c.buf.retrieveUntil (crlf + 2) } hx
  have hcut' := codec.run_line_CRLF env hline
  rw [codec.bytewise_endLine env] at hlog
  rcases hm : codec.endLine env (c.buf.content.take crlf) with ⟨m, out⟩
  rw [hm] at hcut' hlog hend
  have hrun := Transducer.run_append_of_eq _ hcut' (c.buf.content.drop (crlf + 2))
  rw [← hcut, ← show mode c.xfer = .line [] by rw [hx]; rfl] at hrun
  have hcontent : c'.buf.content = c.buf.content.drop (crlf + 2) := by rw [hbuf]; simp
  have hlog : bytewise c'.log = bytewise c.log ++ out := hlog
  refine ⟨c', hraised, hbuf, ?_⟩
  rw [hhandle, hrun, hcontent, hlog, ← List.append_assoc]
  cases m with
  | raised e =>
    obtain rfl : ctl = .raise e := hend
    refine Or.inr ⟨e, rfl, ?_⟩
    rw [run_raised]
    exact ⟨rfl, by simp⟩
  | line acc =>
    obtain ⟨rfl, hmode⟩ : ctl = .loop ∧ mode c'.xfer = .line acc := hend
    refine Or.inl ⟨rfl, ?_⟩
    rw [hmode]
    exact ⟨rfl, rfl⟩
  | file path n =>
    obtain ⟨rfl, hmode⟩ : ctl = .loop ∧ mode c'.xfer = .file path n := hend
    refine Or.inl ⟨rfl, ?_⟩
    rw [hmode]
    exact ⟨rfl, rfl⟩

/-- **The loop of `onMessage` is a run of the decoder over the content of the buffer.** -/
theorem onMessage_decoded (hopen : ∀ log path, env.opens log path = true) (c : Conn)
    (hraised : c.raised = none) :
    Decoded ((codec.decoder env).run (mode c.xfer) c.buf.content).1
      (bytewise c.log ++ ((codec.decoder env).run (mode c.xfer) c.buf.content).2)
      (codec.onMessage env c) := by
  induction hn : c.left using Nat.strong_induction_on generalizing c with
  | _ n ih =>
    subst hn
    by_cases hcontent : c.buf.content = []
    · -- nothing to read: the loop ends in the mode it stands in
      rw [codec.onMessage_of_empty env hcontent, hcontent]
      cases hx : c.xfer with
      | none => exact ⟨by simp, hraised, hx, hcontent, noCRLF_nil⟩
      | some st => exact ⟨by simp, hraised, hx, hcontent⟩
    · have hpos : 0 < c.buf.readableBytes :=
        Nat.pos_of_ne_zero fun e => hcontent (c.buf.readableBytes_eq_zero.1 e)
      cases hx : c.xfer with
      | some st =>
        obtain ⟨hmode, hlog⟩ := codec.run_receive env hcontent hx
        rw [← hx, hmode, hlog, codec.onMessage_of_transfer env hcontent hx]
        exact ih _ (left_receive hpos hx) (receive st c) hraised rfl
      | none =>
        cases hcrlf : c.buf.findCRLF with
        | none =>
          -- an unfinished line waits for more bytes
          rw [codec.onMessage_of_noCRLF env hx hcrlf, show mode none = .line [] from rfl,
            codec.run_line_nil env hcrlf]
          exact ⟨by simp, hraised, hx, rfl, hcrlf⟩
        | some crlf =>
          obtain ⟨c', hraised', -, ⟨hhandle, hmode, hlog⟩ | ⟨e, hhandle, hmode, hlog⟩⟩ :=
            codec.run_handleLine env hopen hx hcrlf
          · have hleft := codec.left_handleLine env hcrlf (c.buf.content.take crlf)
            rw [hhandle] at hleft
            rw [← hx, hmode, hlog, codec.onMessage_of_CRLF env hx hcrlf, hhandle]
            exact ih _ hleft c' (hraised'.trans hraised) rfl
          · rw [← hx, hmode, hlog, codec.onMessage_of_CRLF env hx hcrlf, hhandle]
            exact ⟨rfl, rfl⟩

/-- **One read is one run of the decoder over the bytes that arrived**, when every file opens. -/
theorem handleRead_simulates (hopen : ∀ log path, env.opens log path = true) :
    (codec.decoder env).Simulates Decoded (codec.handleRead env) fun _ => True := by
  rintro m out c chunk - hdec
  cases m with
  | raised e =>
    obtain ⟨hlog, hraised⟩ := hdec
    rw [run_raised, handleRead, if_pos (by simp [hraised])]
    exact ⟨by simpa using hlog, hraised⟩
  | line acc =>
    obtain ⟨rfl, hraised, hx, rfl, hline⟩ := hdec
    rw [handleRead, if_neg (by simp [hraised])]
    have h := codec.onMessage_decoded env hopen { c with buf := c.buf.readFd chunk } hraised
    -- the unfinished line is read again, which brings the decoder back to where it stood
    have hback : (codec.decoder env).run (.line []) c.buf.content = (.line c.buf.content, []) :=
      codec.run_line_nil env hline
    rw [Buffer.content_readFd, show mode c.xfer = .line [] by rw [hx]; rfl,
      Transducer.run_append_of_eq _ hback] at h
    simpa using h
  | file path n =>
    obtain ⟨rfl, hraised, hx, hcontent⟩ := hdec
    rw [handleRead, if_neg (by simp [hraised])]
    have h := codec.onMessage_decoded env hopen { c with buf := c.buf.readFd chunk } hraised
    rwa [Buffer.content_readFd, hcontent, List.nil_append,
      show mode c.xfer = .file path n by rw [hx]; rfl] at h

/-- **All reads are one run of the decoder over the stream.** -/
theorem feed_decoded (hopen : ∀ log path, env.opens log path = true) (chunks : List Bytes) :
    Decoded ((codec.decoder env).run (.line []) chunks.flatten).1
      ((codec.decoder env).run (.line []) chunks.flatten).2 (codec.feed env chunks) := by
  have hnew : Decoded (.line []) [] Conn.new := ⟨rfl, rfl, rfl, Buffer.content_new, noCRLF_nil⟩
  exact Transducer.simulates_foldl _ (codec.handleRead_simulates env hopen) hnew chunks fun _ _ => trivial

end JsonCodec

end Chatroom.Codec
