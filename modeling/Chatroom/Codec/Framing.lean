import Chatroom.Codec.Decoder

/-!
# The framing of the stream

What the two sides put on the wire (`JsonCodec::send`, `sendfile`, `Service::handleReceiveFile`) and what
`onMessage` makes of it: the reads do not matter (`feed_congr`), and a stream of objects and files arrives as
those objects and those files (`feed_encode`).
-/

namespace Chatroom.Codec

open Net Lib

/-! ## What the sender writes -/

/-- `message.dump()` with CR LF appended. -/
def line (lib : JsonLib) (js : Json) : Bytes := lib.dump js ++ CRLF

/-- `metadata`: the line that announces a file. -/
def metadata (header : EnMsgType) (filename : String) (fileSize : ℕ) : Json :=
  .obj [("filename", .str filename), ("filesize", .num fileSize), ("msgid", .msg header)]

/-- `endMessage` -/
def endMessage : Json := .obj [("msgid", .msg .sendFileEnd)]

/-- A file that `fstat` can describe: `st_size` is an `off_t`. -/
structure File where
  name : String
  bytes : Bytes
  length_lt : bytes.length < 2 ^ 63

/-- The bytes of a transfer: `metadata`, the file, `endMessage`. -/
def File.encode (lib : JsonLib) (header : EnMsgType) (f : File) : Bytes :=
  line lib (metadata header f.name f.bytes.length) ++ f.bytes ++ line lib endMessage

namespace JsonCodec

/-- An object that `codec` hands on: its id is neither that of a file nor `SEND_FILE_END`. -/
structure Message (codec : JsonCodec) where
  js : Json
  msgid : ℤ
  msgid_eq : js.intField "msgid" = .ok msgid
  ne_header : msgid ≠ codec.fileHeader.code
  ne_end : msgid ≠ EnMsgType.sendFileEnd.code

/-- One thing to send to the receiver `codec`. -/
inductive Item (codec : JsonCodec) where
  | message (m : codec.Message)
  | file (f : File)

namespace Item

variable {codec : JsonCodec}

/-- The bytes of an item. -/
def encode (lib : JsonLib) : codec.Item → Bytes
  | message m => line lib m.js
  | file f => f.encode lib codec.fileHeader

/-- The objects that go through `dump` for an item. -/
def dumped : codec.Item → List Json
  | message m => [m.js]
  | file f => [metadata codec.fileHeader f.name f.bytes.length, endMessage]

/-- What the receiver is to dispatch. -/
def messages : codec.Item → List Json
  | message m => [m.js]
  | file _ => []

/-- What the receiver is to save. -/
def files : codec.Item → List (String × Bytes)
  | message _ => []
  | file f => [(codec.dir ++ f.name, f.bytes)]

/-- All that the receiver is to do, byte by byte. -/
def effects : codec.Item → List Effect
  | message m => [.dispatch m.js]
  | file f =>
    let path := codec.dir ++ f.name
    .opened path :: (if codec.keepsAlive then [.removeConnStatus] else []) ++
      f.bytes.map (fun b => .write path [b]) ++ .close path ::
        if codec.keepsAlive then [.addConnStatus] else []

end Item

end JsonCodec

/-! ## What a log says was received -/

/-- The objects handed to the callback. -/
def dispatched (log : List Effect) : List Json :=
  log.flatMap fun | .dispatch js => [js] | _ => []

/-- The files, the last one first: a write goes to the file that was opened last. -/
def saveStep : List (String × Bytes) → Effect → List (String × Bytes)
  | files, .opened path => (path, []) :: files
  | (path, bytes) :: files, .write _ data => (path, bytes ++ data) :: files
  | files, _ => files

/-- The files with all the bytes written to them, in the order in which they were opened. -/
def saved (log : List Effect) : List (String × Bytes) := (log.foldl saveStep []).reverse

theorem dispatched_append (l m : List Effect) : dispatched (l ++ m) = dispatched l ++ dispatched m :=
  List.flatMap_append

theorem dispatched_bytewise (log : List Effect) : dispatched (bytewise log) = dispatched log := by
  induction log with
  | nil => rfl
  | cons e log ih =>
    rw [bytewise_cons, dispatched_append, ih]
    cases e <;> simp [dispatched, Effect.bytewise, List.flatMap_map]

theorem foldl_saveStep_writes (path p : String) (bytes data : Bytes) (files : List (String × Bytes)) :
    (data.map fun b => Effect.write p [b]).foldl saveStep ((path, bytes) :: files) =
      (path, bytes ++ data) :: files := by
  induction data generalizing bytes with
  | nil => simp
  | cons b data ih => simp [saveStep, ih]

theorem foldl_saveStep_bytewise (log : List Effect) (files : List (String × Bytes)) :
    (bytewise log).foldl saveStep files = log.foldl saveStep files := by
  induction log generalizing files with
  | nil => rfl
  | cons e log ih =>
    rw [bytewise_cons, List.foldl_append, List.foldl_cons, ih]
    congr 1
    cases e with
    | write p data =>
      cases files with
      | nil => induction data <;> simp_all [Effect.bytewise, saveStep]
      | cons f files => exact foldl_saveStep_writes f.1 p f.2 data files
    | _ => rfl

theorem saved_bytewise (log : List Effect) : saved (bytewise log) = saved log := by
  rw [saved, foldl_saveStep_bytewise, saved]

/-! ## The decoder on what the sender writes -/

namespace JsonCodec

variable (codec : JsonCodec) (env : Env)

theorem fields_metadata (header : EnMsgType) (f : File) :
    (metadata header f.name f.bytes.length).intField "msgid" = .ok header.code ∧
      (metadata header f.name f.bytes.length).stringField "filename" = .ok f.name ∧
      (metadata header f.name f.bytes.length).sizeField "filesize" = .ok f.bytes.length := by
  have hlt : f.bytes.length < 2 ^ 64 := by have := f.length_lt; omega
  refine ⟨Json.getInt_msg header, rfl, ?_⟩
  exact congrArg Except.ok (Json.castSize_natCast hlt)

theorem run_dump {js : Json} (h : env.lib.Faithful js) :
    (codec.decoder env).run (.line []) (line env.lib js) = codec.endLine env (env.lib.dump js) :=
  codec.run_line_CRLF env (noCRLF_concat_CR h.noCR)

theorem endLine_message (m : codec.Message) (h : env.lib.Faithful m.js) :
    codec.endLine env (env.lib.dump m.js) = (.line [], [.dispatch m.js]) := by
  have hframe : codec.readFrame env (env.lib.dump m.js) = .ok (.message m.js) := by
    simp only [readFrame, h.parse_dump, m.msgid_eq, bind, Except.bind, if_neg m.ne_header, if_neg m.ne_end]
    rfl
  rw [endLine, hframe]

theorem readFrame_header {l : Bytes} {js : Json} {filename : String} {fileSize : ℕ} (h : env.lib.parse l = .ok js)
    (hmsgid : js.intField "msgid" = .ok codec.fileHeader.code)
    (hname : js.stringField "filename" = .ok filename) (hsize : js.sizeField "filesize" = .ok fileSize) :
    codec.readFrame env l = .ok (.header filename fileSize) := by
  rw [readFrame, h]
  simp only [bind, Except.bind, hmsgid, hname, hsize, if_true, pure, Except.pure]

/-- A line with the id of a file and the two fields of one starts a transfer. -/
theorem endLine_header {l : Bytes} {js : Json} {filename : String} {fileSize : ℕ} (h : env.lib.parse l = .ok js)
    (hmsgid : js.intField "msgid" = .ok codec.fileHeader.code)
    (hname : js.stringField "filename" = .ok filename) (hsize : js.sizeField "filesize" = .ok fileSize) :
    codec.endLine env l =
      (.file (codec.dir ++ filename) fileSize,
        .opened (codec.dir ++ filename) :: if codec.keepsAlive then [.removeConnStatus] else []) := by
  rw [endLine, codec.readFrame_header env h hmsgid hname hsize]

theorem endLine_metadata (f : File) (h : env.lib.Faithful (metadata codec.fileHeader f.name f.bytes.length)) :
    codec.endLine env (env.lib.dump (metadata codec.fileHeader f.name f.bytes.length)) =
      (.file (codec.dir ++ f.name) f.bytes.length,
        .opened (codec.dir ++ f.name) :: if codec.keepsAlive then [.removeConnStatus] else []) := by
  obtain ⟨hmsgid, hname, hsize⟩ := fields_metadata codec.fileHeader f
  exact codec.endLine_header env h.parse_dump hmsgid hname hsize

theorem endLine_endMessage (hne : codec.fileHeader ≠ .sendFileEnd) (h : env.lib.Faithful endMessage) :
    codec.endLine env (env.lib.dump endMessage) =
      (.line [], if codec.keepsAlive then [.addConnStatus] else []) := by
  have hframe : codec.readFrame env (env.lib.dump endMessage) = .ok .fileEnd := by
    simp only [readFrame, h.parse_dump]
    simp [endMessage, Json.intField, Json.field, bind, Except.bind, hne.symm]
    rfl
  rw [endLine, hframe]

/-- The bytes of a file are closed by the last of them, or, if there is none, by what follows. -/
theorem run_file_body (path : String) (data : Bytes) {l : Bytes} (h : l ≠ []) :
    (codec.decoder env).run (.file path data.length) (data ++ l) =
      (((codec.decoder env).run (.line []) l).1,
        (data.map fun b => .write path [b]) ++ .close path :: ((codec.decoder env).run (.line []) l).2) := by
  by_cases hdata : data = []
  · subst hdata
    exact codec.run_file_zero env path h
  · rw [Transducer.run_append_of_eq _ (codec.run_file_all env path hdata)]
    simp

/-- **One item**, from between two lines to between two lines. -/
theorem run_item (hne : codec.fileHeader ≠ .sendFileEnd) (item : codec.Item)
    (h : ∀ js ∈ item.dumped, env.lib.Faithful js) :
    (codec.decoder env).run (.line []) (item.encode env.lib) = (.line [], item.effects) := by
  cases item with
  | message m =>
    have hm : env.lib.Faithful m.js := h _ (by simp [Item.dumped])
    rw [Item.encode, run_dump codec env hm, endLine_message codec env m hm]
    rfl
  | file f =>
    have hmeta := h (metadata codec.fileHeader f.name f.bytes.length) (by simp [Item.dumped])
    have hend := h endMessage (by simp [Item.dumped])
    have hheader := (codec.run_dump env hmeta).trans (codec.endLine_metadata env f hmeta)
    have hlast := (codec.run_dump env hend).trans (codec.endLine_endMessage env hne hend)
    have hbody := codec.run_file_body env (codec.dir ++ f.name) f.bytes (l := line env.lib endMessage)
      (by simp [line])
    rw [Item.encode, File.encode, List.append_assoc, Transducer.run_append_of_eq _ hheader, hbody, hlast]
    simp [Item.effects]

/-- **A stream of items.** -/
theorem run_encode (hne : codec.fileHeader ≠ .sendFileEnd) (items : List codec.Item)
    (h : ∀ js ∈ items.flatMap Item.dumped, env.lib.Faithful js) :
    (codec.decoder env).run (.line []) (items.flatMap (Item.encode env.lib)) =
      (.line [], items.flatMap Item.effects) := by
  induction items with
  | nil => rfl
  | cons item items ih =>
    simp only [List.flatMap_cons, List.mem_append] at h ⊢
    have hitem := codec.run_item env hne item fun js hjs => h js (Or.inl hjs)
    rw [Transducer.run_append_of_eq _ hitem, ih fun js hjs => h js (Or.inr hjs)]

/-! ## Reads do not matter -/

/-- **Two ways of cutting one stream into reads** end in the same effects, the same exception if any, and,
where no exception left `onMessage`, the same unread bytes and the same transfer. -/
theorem feed_congr (codec : JsonCodec) (env : Env) (hopen : ∀ log path, env.opens log path = true)
    (chunks₁ chunks₂ : List Bytes) (hflatten : chunks₁.flatten = chunks₂.flatten) :
    bytewise (codec.feed env chunks₁).log = bytewise (codec.feed env chunks₂).log ∧
      (codec.feed env chunks₁).raised = (codec.feed env chunks₂).raised ∧
      ((codec.feed env chunks₁).raised = none →
        (codec.feed env chunks₁).buf.content = (codec.feed env chunks₂).buf.content ∧
        (codec.feed env chunks₁).xfer = (codec.feed env chunks₂).xfer) := by
  have h₁ := codec.feed_decoded env hopen chunks₁
  have h₂ := codec.feed_decoded env hopen chunks₂
  rw [hflatten] at h₁
  cases hm : ((codec.decoder env).run (.line []) chunks₂.flatten).1 with
  | line acc =>
    rw [hm] at h₁ h₂
    obtain ⟨hlog₁, hraised₁, hx₁, hbuf₁, -⟩ := h₁
    obtain ⟨hlog₂, hraised₂, hx₂, hbuf₂, -⟩ := h₂
    exact ⟨hlog₁.trans hlog₂.symm, hraised₁.trans hraised₂.symm, fun _ =>
      ⟨hbuf₁.trans hbuf₂.symm, hx₁.trans hx₂.symm⟩⟩
  | file path n =>
    rw [hm] at h₁ h₂
    obtain ⟨hlog₁, hraised₁, hx₁, hbuf₁⟩ := h₁
    obtain ⟨hlog₂, hraised₂, hx₂, hbuf₂⟩ := h₂
    exact ⟨hlog₁.trans hlog₂.symm, hraised₁.trans hraised₂.symm, fun _ =>
      ⟨hbuf₁.trans hbuf₂.symm, hx₁.trans hx₂.symm⟩⟩
  | raised e =>
    rw [hm] at h₁ h₂
    obtain ⟨hlog₁, hraised₁⟩ := h₁
    obtain ⟨hlog₂, hraised₂⟩ := h₂
    refine ⟨hlog₁.trans hlog₂.symm, hraised₁.trans hraised₂.symm, fun h => ?_⟩
    exact absurd (hraised₁.symm.trans h) (by simp)

/-- A line that does not parse, a file of a CR and a LF, and a second header with the first byte of its file: in
one read, and cut inside every CR LF. -/
theorem feed_congr_files :
    let f : File := ⟨"a", CRLF, by decide⟩
    let header := metadata .sendFile "a" 2
    let env : Env := ⟨.ofList [header, endMessage], fun _ _ => true⟩
    let c₁ := ServerJsonCodec.feed env
      [[120] ++ CRLF ++ (f.encode env.lib .sendFile ++ (line env.lib header ++ [65]))]
    let c₂ := ServerJsonCodec.feed env
      [[120, CR], [LF] ++ header.dump ++ [CR], [LF, CR], [LF] ++ endMessage.dump ++ [CR], [LF] ++ header.dump,
        CRLF, [65]]
    c₁.raised = none ∧ c₁.xfer = some ⟨"./received_files/a", 1⟩ ∧ bytewise c₁.log = bytewise c₂.log ∧
      c₁.raised = c₂.raised ∧ c₁.buf.content = c₂.buf.content ∧ c₁.xfer = c₂.xfer := by
  intro f header env c₁ c₂
  have hopen : ∀ log path, env.opens log path = true := fun _ _ => rfl
  have hx : (ServerJsonCodec.decoder env).run (.line []) ([120] ++ CRLF) = (.line [], [.shutdown]) := by
    have hne : header.dump ≠ [120] ∧ endMessage.dump ≠ [120] := by decide
    rw [run_line_CRLF ServerJsonCodec env (noCRLF_concat_CR (by decide))]
    simp [endLine, readFrame, env, JsonLib.ofList, hne, bind, Except.bind]
  have hheader : env.lib.Faithful header := ⟨by decide, by decide, rfl⟩
  have hend : env.lib.Faithful endMessage := ⟨by decide, by decide, rfl⟩
  have hfile : (ServerJsonCodec.decoder env).run (.line []) (f.encode env.lib .sendFile) =
      (.line [], (.file f : ServerJsonCodec.Item).effects) := by
    refine ServerJsonCodec.run_item env (by decide) (.file f) fun js hjs => ?_
    obtain rfl | rfl := List.mem_pair.1 (show js ∈ [header, endMessage] from hjs)
    · exact hheader
    · exact hend
  have hlast := (ServerJsonCodec.run_dump env hheader).trans (ServerJsonCodec.endLine_metadata env f hheader)
  have hmode : ((ServerJsonCodec.decoder env).run (.line [])
      [[120] ++ CRLF ++ (f.encode env.lib .sendFile ++ (line env.lib header ++ [65]))].flatten).1 =
        .file "./received_files/a" 1 := by
    rw [List.flatten_singleton, Transducer.run_append_of_eq _ hx, Transducer.run_append_of_eq _ hfile,
      Transducer.run_append_of_eq _ hlast]
    rfl
  obtain ⟨-, hraised, hxfer, -⟩ := hmode ▸ ServerJsonCodec.feed_decoded env hopen
    [[120] ++ CRLF ++ (f.encode env.lib .sendFile ++ (line env.lib header ++ [65]))]
  obtain ⟨hlog, hsame, hstate⟩ := feed_congr ServerJsonCodec env hopen
    [[120] ++ CRLF ++ (f.encode env.lib .sendFile ++ (line env.lib header ++ [65]))]
    [[120, CR], [LF] ++ header.dump ++ [CR], [LF, CR], [LF] ++ endMessage.dump ++ [CR], [LF] ++ header.dump,
      CRLF, [65]] (by simp [File.encode, line, CRLF, f, header, env, JsonLib.ofList])
  exact ⟨hraised, hxfer, hlog, hsame, hstate hraised⟩

/-! ## What is dispatched and saved -/

theorem dispatched_effects (items : List codec.Item) :
    dispatched (items.flatMap Item.effects) = items.flatMap Item.messages := by
  induction items with
  | nil => rfl
  | cons item items ih =>
    rw [List.flatMap_cons, dispatched_append, ih, List.flatMap_cons]
    cases item with
    | message m => rfl
    | file f => cases hk : codec.keepsAlive <;> simp [Item.effects, Item.messages, dispatched, hk]

theorem foldl_saveStep_effects (items : List codec.Item) (files : List (String × Bytes)) :
    (items.flatMap Item.effects).foldl saveStep files = (items.flatMap Item.files).reverse ++ files := by
  induction items generalizing files with
  | nil => rfl
  | cons item items ih =>
    rw [List.flatMap_cons, List.foldl_append, ih, List.flatMap_cons]
    cases item with
    | message m => simp [Item.effects, Item.files, saveStep]
    | file f =>
      cases hk : codec.keepsAlive <;>
        simp [Item.effects, Item.files, saveStep, hk, foldl_saveStep_writes]

/-- **Every stream of objects and files arrives**: however it is cut into reads, the receiver dispatches the
objects in order, saves every file with its bytes, and is left with an empty buffer and no transfer. -/
theorem feed_encode (codec : JsonCodec) (hcodec : codec = ServerJsonCodec ∨ codec = ClientJsonCodec)
    (env : Env) (hopen : ∀ log path, env.opens log path = true) (items : List codec.Item)
    (hlib : ∀ js ∈ items.flatMap Item.dumped, env.lib.Faithful js)
    (chunks : List Bytes) (hchunks : chunks.flatten = items.flatMap (Item.encode env.lib)) :
    dispatched (codec.feed env chunks).log = items.flatMap Item.messages ∧
      saved (codec.feed env chunks).log = items.flatMap Item.files ∧
      bytewise (codec.feed env chunks).log = items.flatMap Item.effects ∧
      (codec.feed env chunks).buf.content = [] ∧ (codec.feed env chunks).xfer = none ∧
      (codec.feed env chunks).raised = none := by
  have hne : codec.fileHeader ≠ .sendFileEnd := by
    rcases hcodec with rfl | rfl <;> decide
  have hfeed := codec.feed_decoded env hopen chunks
  rw [hchunks, run_encode codec env hne items hlib] at hfeed
  obtain ⟨hlog, hraised, hxfer, hcontent, -⟩ := hfeed
  refine ⟨?_, ?_, hlog, hcontent, hxfer, hraised⟩
  · rw [← dispatched_bytewise, hlog, dispatched_effects]
  · rw [← saved_bytewise, hlog, saved, foldl_saveStep_effects]
    simp

/-- The stream of a login, a file with a line break in it and an empty file, read byte by byte. -/
theorem feed_encode_login_files :
    let login : Json := .obj [("id", .num 7), ("msgid", .msg .loginMsg), ("password", .str "pw")]
    let items : List ServerJsonCodec.Item :=
      [.message ⟨login, EnMsgType.loginMsg.code, Json.getInt_msg _, by decide, by decide⟩,
        .file ⟨"a", [123, 13, 10, 125], by decide⟩, .file ⟨"b", [], by decide⟩]
    let env : Env := ⟨.ofList (items.flatMap Item.dumped), fun _ _ => true⟩
    let chunks := (items.flatMap (Item.encode env.lib)).map fun b => [b]
    dispatched (ServerJsonCodec.feed env chunks).log = [login] ∧
      saved (ServerJsonCodec.feed env chunks).log =
        [("./received_files/a", [123, 13, 10, 125]), ("./received_files/b", [])] ∧
      bytewise (ServerJsonCodec.feed env chunks).log = items.flatMap Item.effects ∧
      (ServerJsonCodec.feed env chunks).buf.content = [] ∧ (ServerJsonCodec.feed env chunks).xfer = none ∧
      (ServerJsonCodec.feed env chunks).raised = none := by
  intro login items env chunks
  refine feed_encode ServerJsonCodec (Or.inl rfl) env (fun _ _ => rfl) items ?_ chunks (List.flatMap_singleton' _)
  intro js hjs
  simp only [items, List.flatMap_cons, List.flatMap_nil, Item.dumped, List.mem_append, List.mem_cons,
    List.not_mem_nil, or_false] at hjs
  rcases hjs with rfl | (rfl | rfl) | rfl | rfl
  all_goals exact ⟨by decide, by decide, rfl⟩

end JsonCodec

end Chatroom.Codec
