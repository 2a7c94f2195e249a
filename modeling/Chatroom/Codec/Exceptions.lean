import Chatroom.Codec.Decoder

/-!
# The exceptions that leave `onMessage`

`onMessage` catches `json::parse_error` alone. What else a line can make the library throw (a field of a value
that is no object, a field of another type, a number out of range) goes through `TcpConnection::handleRead` and
`EventLoop::loop` and ends the server. `onMessage_raised_iff` says for which input that happens, in every state
of the codec: the lines that the loop cuts off the buffer are all `Harmless`, or an exception leaves.
-/

namespace Chatroom.Codec

open Net

/-- What `Server::onJsonMessage` can throw: it reads `msgid` again and takes the handler of that id. -/
def onJsonMessage (js : Json) : Except Exn ℤ := js.intField "msgid"

namespace JsonCodec

variable (codec : JsonCodec) (env : Env)

/-- The lines that the loop of `onMessage` cuts off the buffer. -/
inductive Cuts : Conn → Bytes → Prop where
  | line {c : Conn} {crlf : ℕ} : c.xfer = none → c.buf.findCRLF = some crlf →
      Cuts c (c.buf.content.take crlf)
  | next {c c' : Conn} {crlf : ℕ} {l : Bytes} : c.xfer = none → c.buf.findCRLF = some crlf →
      codec.handleLine env (c.buf.content.take crlf) { c with buf := c.buf.retrieveUntil (crlf + 2) } =
        (.loop, c') → Cuts c' l → Cuts c l
  | receive {c : Conn} {st : FileTransferState} {l : Bytes} : c.buf.content ≠ [] → c.xfer = some st →
      Cuts (receive st c) l → Cuts c l

/-- A line whose exceptions are all parse errors: `msgid` reads as an `int`, and the fields of a file header
read as the types that the codec takes. -/
def Harmless (l : Bytes) : Prop :=
  match env.lib.parse l with
  | .error e => e = .parseError
  | .ok js => ∃ msgid, js.intField "msgid" = .ok msgid ∧
      (msgid = codec.fileHeader.code →
        (∃ filename, js.stringField "filename" = .ok filename) ∧
          ∃ fileSize, js.sizeField "filesize" = .ok fileSize)

/-- `SEND_FILE_END`. The loop looks for lines where no transfer is on, so that there is none to end: a transfer has
ended with its last byte. -/
def EndLine (l : Bytes) : Prop :=
  ∃ js, env.lib.parse l = .ok js ∧ js.intField "msgid" = .ok EnMsgType.sendFileEnd.code

/-- How a line is answered. -/
inductive Answered (c : Conn) : Conn → Prop where
  | dispatch (js : Json) (msgid : ℤ) : onJsonMessage js = .ok msgid →
      Answered c { c with log := c.log ++ [.dispatch js] }
  | transferBegins (filename : String) (fileSize : ℕ) :
      Answered c { c with
        xfer := some ⟨codec.dir ++ filename, fileSize⟩
        log := c.log ++ .opened (codec.dir ++ filename) :: if codec.keepsAlive then [.removeConnStatus] else [] }
  | shutdown : Answered c { c with log := c.log ++ [.shutdown] }

/-! ## One line -/

/-- The reads after `json::parse`. -/
theorem readFrame_of_parse {l : Bytes} {js : Json} (hp : env.lib.parse l = .ok js) {msgid : ℤ}
    (hid : js.intField "msgid" = .ok msgid) :
    codec.readFrame env l =
      if msgid = codec.fileHeader.code then do
        let filename ← js.stringField "filename"
        let fileSize ← js.sizeField "filesize"
        return .header filename fileSize
      else if msgid = EnMsgType.sendFileEnd.code then .ok .fileEnd
      else .ok (.message js) := by
  simp only [readFrame, hp, hid, bind, Except.bind]
  rfl

/-- Reading a field throws no parse error. -/
theorem read_ne_parseError {α : Type} {get : Json → Except Exn α} (hget : ∀ v, get v ≠ .error .parseError)
    (js : Json) (key : String) : (js.field key >>= get) ≠ .error .parseError := by
  have hfield : js.field key ≠ .error .parseError := by
    cases js <;> simp [Json.field]
  cases h : js.field key with
  | error e =>
    rw [h] at hfield
    exact fun he => hfield (by cases he; rfl)
  | ok v => exact hget v

theorem intField_ne_parseError (js : Json) (key : String) : js.intField key ≠ .error .parseError :=
  read_ne_parseError (fun v => by cases v <;> simp [Json.getInt]) js key

theorem sizeField_ne_parseError (js : Json) (key : String) : js.sizeField key ≠ .error .parseError :=
  read_ne_parseError (fun v => by cases v <;> simp [Json.getSize]) js key

theorem stringField_ne_parseError (js : Json) (key : String) : js.stringField key ≠ .error .parseError :=
  read_ne_parseError (fun v => by cases v <;> simp [Json.getString]) js key

/-- The reads of a file header. -/
theorem header_cases (js : Json) :
    (∃ filename fileSize, js.stringField "filename" = .ok filename ∧ js.sizeField "filesize" = .ok fileSize) ∨
      ∃ e, e ≠ .parseError ∧ (js.stringField "filename" = .error e ∨
        ∃ filename, js.stringField "filename" = .ok filename ∧ js.sizeField "filesize" = .error e) := by
  cases hname : js.stringField "filename" with
  | error e => exact .inr ⟨e, fun he => stringField_ne_parseError js _ (he ▸ hname), .inl rfl⟩
  | ok filename =>
    cases hsize : js.sizeField "filesize" with
    | error e => exact .inr ⟨e, fun he => sizeField_ne_parseError js _ (he ▸ hsize), .inr ⟨_, rfl, rfl⟩⟩
    | ok fileSize => exact .inl ⟨_, _, rfl, rfl⟩

/-- A line is harmless when its reads succeed or end in a parse error, and only then. -/
theorem harmless_iff (l : Bytes) :
    codec.Harmless env l ↔ (∃ f, codec.readFrame env l = .ok f) ∨
      codec.readFrame env l = .error .parseError := by
  unfold Harmless
  cases hp : env.lib.parse l with
  | error e =>
    have hread : codec.readFrame env l = .error e := by
      simp only [readFrame, hp, bind, Except.bind]
    rw [hread]
    simp
  | ok js =>
    cases hid : js.intField "msgid" with
    | error e =>
      have hread : codec.readFrame env l = .error e := by
        simp only [readFrame, hp, hid, bind, Except.bind]
      have hne : e ≠ .parseError := fun he => intField_ne_parseError js "msgid" (he ▸ hid)
      rw [hread]
      simp [hid, hne]
    | ok msgid =>
      rw [codec.readFrame_of_parse env hp hid]
      by_cases hheader : msgid = codec.fileHeader.code
      · rw [if_pos hheader]
        obtain ⟨filename, fileSize, hname, hsize⟩ | ⟨e, hne, hname | ⟨filename, hname, hsize⟩⟩ :=
          header_cases js
        · simp [hid, hname, hsize, bind, Except.bind, pure, Except.pure]
        · simp [hid, hheader, hname, hne, bind, Except.bind]
        · simp [hid, hheader, hname, hsize, hne, bind, Except.bind]
      · rw [if_neg hheader]
        refine iff_of_true ⟨msgid, hid, fun h => absurd h hheader⟩ (.inl ?_)
        by_cases hend : msgid = EnMsgType.sendFileEnd.code
        · exact ⟨_, if_pos hend⟩
        · exact ⟨_, if_neg hend⟩

/-- A line that was read, by its id. -/
theorem readFrame_cases {l : Bytes} {f : Frame} (h : codec.readFrame env l = .ok f) :
    ∃ js msgid, env.lib.parse l = .ok js ∧ js.intField "msgid" = .ok msgid ∧
      (msgid = codec.fileHeader.code ∧ (∃ filename fileSize, f = .header filename fileSize) ∨
        msgid ≠ codec.fileHeader.code ∧ msgid = EnMsgType.sendFileEnd.code ∧ f = .fileEnd ∨
        msgid ≠ EnMsgType.sendFileEnd.code ∧ f = .message js) := by
  cases hp : env.lib.parse l with
  | error e => simp [readFrame, hp, bind, Except.bind] at h
  | ok js =>
    cases hid : js.intField "msgid" with
    | error e => simp [readFrame, hp, hid, bind, Except.bind] at h
    | ok msgid =>
      refine ⟨js, msgid, rfl, hid, ?_⟩
      rw [codec.readFrame_of_parse env hp hid] at h
      obtain ⟨hheader, h⟩ | ⟨hheader, h⟩ := ite_eq_iff.1 h
      · obtain ⟨filename, fileSize, hname, hsize⟩ | ⟨e, hne, hname | ⟨filename, hname, hsize⟩⟩ :=
          header_cases js
        · simp only [hname, hsize, bind, Except.bind, pure, Except.pure, Except.ok.injEq] at h
          exact .inl ⟨hheader, filename, fileSize, h.symm⟩
        · simp [hname, bind, Except.bind] at h
        · simp [hname, hsize, bind, Except.bind] at h
      · obtain ⟨hend, h⟩ | ⟨hend, h⟩ := ite_eq_iff.1 h
        · exact .inr (.inl ⟨hheader, hend, (Except.ok.inj h).symm⟩)
        · exact .inr (.inr ⟨hend, (Except.ok.inj h).symm⟩)

/-- The id of a line that is dispatched has been read. -/
theorem onJsonMessage_of_message {l : Bytes} {js : Json} (h : codec.readFrame env l = .ok (.message js)) :
    ∃ msgid, onJsonMessage js = .ok msgid := by
  obtain ⟨js', msgid, -, hid, ⟨-, _, _, hf⟩ | ⟨-, -, hf⟩ | ⟨-, hf⟩⟩ := codec.readFrame_cases env h
  · cases hf
  · cases hf
  · obtain rfl := Frame.message.inj hf
    exact ⟨msgid, hid⟩

/-- The lines that end nothing. -/
theorem readFrame_fileEnd_iff (hcodec : codec.fileHeader ≠ .sendFileEnd) (l : Bytes) :
    codec.readFrame env l = .ok .fileEnd ↔ EndLine env l := by
  constructor
  · intro h
    obtain ⟨js, msgid, hp, hid, ⟨-, _, _, hf⟩ | ⟨-, hend, -⟩ | ⟨-, hf⟩⟩ := codec.readFrame_cases env h
    · cases hf
    · exact ⟨js, hp, hend ▸ hid⟩
    · cases hf
  · rintro ⟨js, hp, hid⟩
    rw [codec.readFrame_of_parse env hp hid, if_neg (EnMsgType.code_inj.not.2 hcodec.symm), if_pos rfl]

/-- Marking the connection alive is no answer. -/
theorem not_answered_addConnStatus (c : Conn) :
    ¬ codec.Answered c { c with log := c.log ++ if codec.keepsAlive then [.addConnStatus] else [] } := by
  intro h
  generalize hc : { c with log := c.log ++ if codec.keepsAlive then [Effect.addConnStatus] else [] } = c' at h
  have hlog := congrArg Conn.log hc
  cases h <;> cases hk : codec.keepsAlive <;> simp [hk] at hlog

/-- What a harmless line does where no transfer is on. -/
theorem handleLine_of_harmless {l : Bytes} (h : codec.Harmless env l) {c : Conn} (hx : c.xfer = none) :
    ((codec.handleLine env l c).1 = .loop ∨ (codec.handleLine env l c).1 = .ret) ∧
      (codec.Answered c (codec.handleLine env l c).2 ∨
        codec.readFrame env l = .ok .fileEnd ∧ (codec.handleLine env l c).2 =
          { c with log := c.log ++ if codec.keepsAlive then [.addConnStatus] else [] }) := by
  unfold handleLine
  obtain ⟨f, hread⟩ | hread := (codec.harmless_iff env l).1 h
  · rw [hread]
    cases f with
    | header filename fileSize =>
      dsimp only
      split
      · exact ⟨.inl rfl, .inl (.transferBegins filename fileSize)⟩
      · exact ⟨.inr rfl, .inl .shutdown⟩
    | fileEnd => exact ⟨.inl rfl, .inr ⟨rfl, by simp [hx]⟩⟩
    | message js =>
      obtain ⟨msgid, hid⟩ := codec.onJsonMessage_of_message env hread
      exact ⟨.inl rfl, .inl (.dispatch js msgid hid)⟩
  · rw [hread]
    exact ⟨.inl rfl, .inl .shutdown⟩

theorem raised_handleLine (l : Bytes) (c : Conn) : (codec.handleLine env l c).2.raised = c.raised := by
  unfold handleLine
  split <;> try rfl
  dsimp only
  split <;> rfl

theorem raise_of_not_harmless {l : Bytes} (h : ¬ codec.Harmless env l) (c : Conn) :
    ∃ e, codec.handleLine env l c = (.raise e, c) := by
  rw [codec.harmless_iff env l, not_or, not_exists] at h
  unfold handleLine
  cases hread : codec.readFrame env l with
  | ok f => exact absurd hread (h.1 f)
  | error e =>
    cases e with
    | parseError => exact absurd hread h.2
    | typeError | outOfRange | logicError => exact ⟨_, rfl⟩

/-! ## The loop -/

theorem not_cuts_of_empty {c : Conn} (h : c.buf.content = []) (l : Bytes) : ¬ codec.Cuts env c l := by
  have hnone : ∀ crlf, c.buf.findCRLF ≠ some crlf := by
    intro crlf hcrlf
    have := searchCRLF_bound hcrlf
    rw [h] at this
    simp at this
  rintro (⟨-, hcrlf⟩ | ⟨-, hcrlf, -, -⟩ | ⟨hne, -, -⟩)
  · exact hnone _ hcrlf
  · exact hnone _ hcrlf
  · exact hne h

theorem cuts_of_transfer {c : Conn} {st : FileTransferState} (h : c.buf.content ≠ []) (hx : c.xfer = some st)
    (l : Bytes) : codec.Cuts env c l ↔ codec.Cuts env (receive st c) l := by
  refine ⟨?_, .receive h hx⟩
  rintro (⟨hx', -⟩ | ⟨hx', -, -, -⟩ | ⟨-, hx', hl⟩)
  · rw [hx] at hx'
    cases hx'
  · rw [hx] at hx'
    cases hx'
  · rw [hx] at hx'
    obtain rfl := Option.some.inj hx'
    exact hl

theorem not_cuts_of_noCRLF {c : Conn} (hx : c.xfer = none) (h : c.buf.findCRLF = none) (l : Bytes) :
    ¬ codec.Cuts env c l := by
  rintro (⟨-, hcrlf⟩ | ⟨-, hcrlf, -, -⟩ | ⟨-, hx', -⟩)
  · rw [h] at hcrlf
    cases hcrlf
  · rw [h] at hcrlf
    cases hcrlf
  · rw [hx] at hx'
    cases hx'

theorem cuts_of_CRLF {c : Conn} {crlf : ℕ} (hx : c.xfer = none) (h : c.buf.findCRLF = some crlf) (l : Bytes) :
    codec.Cuts env c l ↔ l = c.buf.content.take crlf ∨
      ∃ c', codec.handleLine env (c.buf.content.take crlf) { c with buf := c.buf.retrieveUntil (crlf + 2) } =
        (.loop, c') ∧ codec.Cuts env c' l := by
  constructor
  · rintro (⟨-, hcrlf⟩ | ⟨-, hcrlf, hloop, hl⟩ | ⟨-, hx', -⟩)
    · rw [h] at hcrlf
      obtain rfl := Option.some.inj hcrlf
      exact .inl rfl
    · rw [h] at hcrlf
      obtain rfl := Option.some.inj hcrlf
      exact .inr ⟨_, hloop, hl⟩
    · rw [hx] at hx'
      cases hx'
  · rintro (rfl | ⟨c', hloop, hl⟩)
    · exact .line hx h
    · exact .next hx h hloop hl

/-- An exception leaves the loop if and only if it cuts off a line that is not harmless. -/
theorem raised_onMessage (c : Conn) (hraised : c.raised = none) :
    (codec.onMessage env c).raised = none ↔ ∀ l, codec.Cuts env c l → codec.Harmless env l := by
  induction hn : c.left using Nat.strong_induction_on generalizing c with
  | _ n ih =>
    subst hn
    by_cases hcontent : c.buf.content = []
    · rw [codec.onMessage_of_empty env hcontent]
      exact ⟨fun _ l hl => absurd hl (codec.not_cuts_of_empty env hcontent l), fun _ => hraised⟩
    have hpos : 0 < c.buf.readableBytes :=
      Nat.pos_of_ne_zero fun e => hcontent (c.buf.readableBytes_eq_zero.1 e)
    cases hx : c.xfer with
    | some st =>
      rw [codec.onMessage_of_transfer env hcontent hx, ih _ (left_receive hpos hx) (receive st c) hraised rfl]
      exact forall_congr' fun l => by rw [codec.cuts_of_transfer env hcontent hx]
    | none =>
      cases hcrlf : c.buf.findCRLF with
      | none =>
        rw [codec.onMessage_of_noCRLF env hx hcrlf]
        exact ⟨fun _ l hl => absurd hl (codec.not_cuts_of_noCRLF env hx hcrlf l), fun _ => hraised⟩
      | some crlf =>
        rw [codec.onMessage_of_CRLF env hx hcrlf]
        have hleft := codec.left_handleLine env hcrlf (c.buf.content.take crlf)
        have hline := codec.cuts_of_CRLF env hx hcrlf
        by_cases hharm : codec.Harmless env (c.buf.content.take crlf)
        · -- the line is answered, and the loop goes on unless the file did not open
          have hkeeps := codec.raised_handleLine env (c.buf.content.take crlf)
            { c with buf := c.buf.retrieveUntil (crlf + 2) }
          have hctl := (codec.handleLine_of_harmless env hharm
            (show Conn.xfer { c with buf := c.buf.retrieveUntil (crlf + 2) } = none from hx)).1
          rcases hhandle : codec.handleLine env (c.buf.content.take crlf)
            { c with buf := c.buf.retrieveUntil (crlf + 2) } with ⟨ctl, c'⟩
          rw [hhandle] at hleft hctl hkeeps
          simp only [hline, hhandle]
          obtain rfl | rfl := hctl
          · rw [ih _ hleft c' (hkeeps.trans hraised) rfl]
            constructor
            · rintro h l (rfl | ⟨c'', he, hl⟩)
              · exact hharm
              · obtain rfl := (Prod.mk.inj he).2
                exact h l hl
            · exact fun h l hl => h l (.inr ⟨c', rfl, hl⟩)
          · refine ⟨fun _ l => ?_, fun _ => hkeeps.trans hraised⟩
            rintro (rfl | ⟨c'', he, -⟩)
            · exact hharm
            · cases he
        · obtain ⟨e, he⟩ := codec.raise_of_not_harmless env hharm
            { c with buf := c.buf.retrieveUntil (crlf + 2) }
          rw [he]
          constructor
          · intro h
            cases h
          · exact fun h => absurd (h _ ((hline _).2 (.inl rfl))) hharm

/-- **What kills the server.** For every content of the input buffer, in every state of the codec: no exception
leaves `onMessage` if and only if the lines that it cuts off are harmless; and then each of them is dispatched with
an id that can be read, begins a transfer, or shuts the connection down, if and only if none is `SEND_FILE_END`. -/
theorem onMessage_raised_iff (hcodec : codec.fileHeader ≠ .sendFileEnd) (c : Conn) (hraised : c.raised = none) :
    ((codec.onMessage env c).raised = none ↔ ∀ l, codec.Cuts env c l → codec.Harmless env l) ∧
      ((codec.onMessage env c).raised = none ∧
          (∀ l, codec.Cuts env c l → ∀ c', c'.xfer = none → codec.Answered c' (codec.handleLine env l c').2) ↔
        ∀ l, codec.Cuts env c l → codec.Harmless env l ∧ ¬ EndLine env l) := by
  refine ⟨codec.raised_onMessage env c hraised, ?_⟩
  rw [codec.raised_onMessage env c hraised]
  constructor
  · rintro ⟨hharm, hans⟩ l hl
    refine ⟨hharm l hl, fun hend => codec.not_answered_addConnStatus Conn.new ?_⟩
    have := hans l hl Conn.new rfl
    rwa [handleLine, (codec.readFrame_fileEnd_iff env hcodec l).2 hend] at this
  · refine fun h => ⟨fun l hl => (h l hl).1, fun l hl c' hx => ?_⟩
    obtain ⟨-, hans | ⟨hend, -⟩⟩ := codec.handleLine_of_harmless env (h l hl).1 hx
    · exact hans
    · exact absurd ((codec.readFrame_fileEnd_iff env hcodec l).1 hend) (h l hl).2

/-- A login line in an empty codec. -/
theorem onMessage_raised_iff_login :
    let login : Json := .obj [("msgid", .msg .loginMsg)]
    let env : Env := ⟨.ofList [login], fun _ _ => true⟩
    let c : Conn := { Conn.new with buf := Buffer.new.readFd (login.dump ++ CRLF) }
    (ServerJsonCodec.onMessage env c).raised = none ∧ ∀ l, ServerJsonCodec.Cuts env c l →
      ∀ c', c'.xfer = none → ServerJsonCodec.Answered c' (ServerJsonCodec.handleLine env l c').2 := by
  intro login env c
  have hcontent : c.buf.content = login.dump ++ CRLF := by simp [c]
  have hcrlf : c.buf.findCRLF = some login.dump.length := by
    rw [Buffer.findCRLF, hcontent]
    decide
  have hline : c.buf.content.take login.dump.length = login.dump := by rw [hcontent, List.take_left]
  have hparse : env.lib.parse login.dump = .ok login := by simp [env, JsonLib.ofList]
  have hid : login.intField "msgid" = .ok EnMsgType.loginMsg.code := by
    simp [login, Json.intField, Json.field, bind, Except.bind]
  have hharm : ServerJsonCodec.Harmless env login.dump := by
    simp only [Harmless, hparse]
    exact ⟨_, hid, fun h => absurd h (by decide)⟩
  have hend : ¬ EndLine env login.dump := by
    rintro ⟨js, hp, hend⟩
    obtain rfl := Except.ok.inj (hparse.symm.trans hp)
    exact absurd (Except.ok.inj (hid.symm.trans hend)) (by decide)
  have hcuts := ServerJsonCodec.cuts_of_CRLF env (c := c) rfl hcrlf
  rw [hline] at hcuts
  refine (onMessage_raised_iff ServerJsonCodec env (by decide) c rfl).2.2 fun l hl => ?_
  obtain rfl | ⟨c', hloop, hl'⟩ := (hcuts l).1 hl
  · exact ⟨hharm, hend⟩
  · have hbuf := ServerJsonCodec.handleLine_buf env login.dump
      { c with buf := c.buf.retrieveUntil (login.dump.length + 2) }
    rw [hloop] at hbuf
    refine absurd hl' (ServerJsonCodec.not_cuts_of_empty env ?_ l)
    rw [hbuf, Buffer.content_retrieveUntil, hcontent]
    decide

/-- The line `[]`: `operator[]` throws a type error, which nobody catches. -/
theorem array_kills_server :
    (ServerJsonCodec.handleRead ⟨.ofList [.arr []], fun _ _ => true⟩ Conn.new
      (Json.dump (.arr []) ++ CRLF)).raised = some .typeError := by
  let env : Env := ⟨.ofList [.arr []], fun _ _ => true⟩
  let c : Conn := { Conn.new with buf := Buffer.new.readFd (Json.dump (.arr []) ++ CRLF) }
  have hcontent : c.buf.content = [91, 93, CR, LF] := by
    rw [Buffer.content_readFd, Buffer.content_new]
    decide
  have hcrlf : c.buf.findCRLF = some 2 := by
    rw [Buffer.findCRLF, hcontent]
    decide
  have hread : ServerJsonCodec.readFrame env (c.buf.content.take 2) = .error .typeError := by
    rw [hcontent]
    rfl
  have hhandle : ServerJsonCodec.handleLine env (c.buf.content.take 2)
      { c with buf := c.buf.retrieveUntil 4 } =
      (.raise .typeError, { c with buf := c.buf.retrieveUntil 4 }) := by
    rw [handleLine, hread]
  change (ServerJsonCodec.onMessage env c).raised = some .typeError
  rw [ServerJsonCodec.onMessage_of_CRLF env rfl hcrlf, hhandle]

end JsonCodec

end Chatroom.Codec
