import Chatroom.Codec.Exceptions

/-!
# What is done after a frame was rejected

A line that does not parse and a file that does not open both end in `shutdown`. The first goes on with the loop, the
second leaves it; neither stops the reading, and what the connection sends afterwards is treated like anything else.
`not_served_further_iff` says for which input a rejected connection is not served further.
-/

namespace Chatroom.Codec

open Net

/-- The effect serves the connection: it dispatches a frame or touches a file. -/
def Effect.serves : Effect → Bool
  | .dispatch _ | .opened _ | .write _ _ | .close _ => true
  | .shutdown | .removeConnStatus | .addConnStatus => false

/-- No transfer is on, and what was done since `c` serves nobody. -/
def Unserved (c d : Conn) : Prop :=
  d.xfer = none ∧ ∃ effects, d.log = c.log ++ effects ∧ ∀ e ∈ effects, e.serves = false

theorem Unserved.of_log {ref c d : Conn} (h : Unserved ref c) (hx : d.xfer = none) {effects : List Effect}
    (hlog : d.log = c.log ++ effects) (heffects : ∀ e ∈ effects, e.serves = false) : Unserved ref d := by
  obtain ⟨effects', hlog', heffects'⟩ := h.2
  refine ⟨hx, effects' ++ effects, by rw [hlog, hlog', List.append_assoc], fun e he => ?_⟩
  exact (List.mem_append.1 he).elim (heffects' e) (heffects e)

namespace JsonCodec

variable (codec : JsonCodec) (env : Env)

/-- The states in which the loop of `onMessage` looks at the buffer. -/
inductive Comes : Conn → Conn → Prop where
  | here (c : Conn) : Comes c c
  | line {c c' d : Conn} {crlf : ℕ} : c.xfer = none → c.buf.findCRLF = some crlf →
      codec.handleLine env (c.buf.content.take crlf) { c with buf := c.buf.retrieveUntil (crlf + 2) } =
        (.loop, c') → Comes c' d → Comes c d
  | receive {c d : Conn} {st : FileTransferState} : c.buf.content ≠ [] → c.xfer = some st →
      Comes (receive st c) d → Comes c d

/-- The line does not parse, or its file does not open. -/
def Rejects (log : List Effect) (l : Bytes) : Prop :=
  codec.readFrame env l = .error .parseError ∨
    ∃ filename fileSize, codec.readFrame env l = .ok (.header filename fileSize) ∧
      env.opens log (codec.dir ++ filename) = false

/-- The line is dispatched, or its file opens. -/
def Serves (log : List Effect) (l : Bytes) : Prop :=
  (∃ js, codec.readFrame env l = .ok (.message js)) ∨
    ∃ filename fileSize, codec.readFrame env l = .ok (.header filename fileSize) ∧
      env.opens log (codec.dir ++ filename) = true

/-- What the end of a file does when no transfer is on. -/
def fileEnds : List Effect := if codec.keepsAlive then [.addConnStatus] else []

/-- The first line of the bytes that does not end a file is served. -/
inductive ServedNext : List Effect → Bytes → Prop where
  | here {log : List Effect} {l : Bytes} {crlf : ℕ} : searchCRLF l = some crlf →
      codec.Serves env log (l.take crlf) → ServedNext log l
  | fileEnd {log : List Effect} {l : Bytes} {crlf : ℕ} : searchCRLF l = some crlf →
      codec.readFrame env (l.take crlf) = .ok .fileEnd → ServedNext (log ++ codec.fileEnds) (l.drop (crlf + 2)) →
      ServedNext log l

/-- A line that is rejected in the course of the reads `chunks`. -/
structure Rejection (chunks : List Bytes) where
  before : List Bytes
  /-- the read with the end of the line -/
  chunk : Bytes
  later : List Bytes
  reads : chunks = before ++ chunk :: later
  running : (codec.feed env before).raised = none
  c : Conn
  comes : codec.Comes env
    { codec.feed env before with buf := (codec.feed env before).buf.readFd chunk } c
  crlf : ℕ
  noTransfer : c.xfer = none
  isLine : c.buf.findCRLF = some crlf
  rejects : codec.Rejects env c.log (c.buf.content.take crlf)

namespace Rejection

variable {codec env} {chunks : List Bytes} (r : Rejection codec env chunks)

/-- The line -/
def line : Bytes := r.c.buf.content.take r.crlf

/-- The state that the rejection itself leaves. -/
def left : Conn :=
  { r.c with buf := r.c.buf.retrieveUntil (r.crlf + 2), log := r.c.log ++ [.shutdown] }

/-- The state in which that call of `onMessage` ends. -/
def ended : Conn := codec.handleRead env (codec.feed env r.before) r.chunk

end Rejection

/-- A rejected connection is not served further, and the two ways to reject a line leave the same state: the rest of the
read in the buffer and no transfer. -/
def NotServedFurther (chunks : List Bytes) : Prop :=
  ∀ r : Rejection codec env chunks, r.ended = r.left ∧
    ∀ later, later <+: r.later → Unserved r.left (later.foldl (codec.handleRead env) r.ended)

/-- No line follows one that does not parse in the same read, and the first line that is read after a rejection, other
than the end of a file, is not served. -/
def NothingFollows (chunks : List Bytes) : Prop :=
  ∀ r : Rejection codec env chunks,
    (codec.readFrame env r.line = .error .parseError → NoCRLF r.left.buf.content) ∧
      (r.later ≠ [] → ¬codec.ServedNext env r.left.log (r.left.buf.content ++ r.later.flatten))

/-! ## One line -/

section Lemmas

variable {codec env} {c d : Conn} {crlf : ℕ}

/-- A line is served, rejected, the end of a file, or one that throws. -/
theorem line_cases (log : List Effect) (l : Bytes) :
    codec.Serves env log l ∨ codec.Rejects env log l ∨ codec.readFrame env l = .ok .fileEnd ∨
      ∃ e, ∀ c, codec.handleLine env l c = (.raise e, c) := by
  cases hread : codec.readFrame env l with
  | ok frame =>
    cases frame with
    | header filename fileSize =>
      cases hopens : env.opens log (codec.dir ++ filename) with
      | true => exact .inl (.inr ⟨filename, fileSize, hread, hopens⟩)
      | false => exact .inr (.inl (.inr ⟨filename, fileSize, hread, hopens⟩))
    | fileEnd => exact .inr (.inr (.inl rfl))
    | message js => exact .inl (.inl ⟨js, hread⟩)
  | error e =>
    cases e with
    | parseError => exact .inr (.inl (.inl hread))
    | typeError | outOfRange | logicError => exact .inr (.inr (.inr ⟨_, fun c => by rw [handleLine, hread]⟩))

theorem handleLine_of_serves {l : Bytes} (h : codec.Serves env c.log l) :
    ∃ e effects c', codec.handleLine env l c = (.loop, c') ∧ c'.log = c.log ++ e :: effects ∧ e.serves = true := by
  rcases h with ⟨js, hread⟩ | ⟨filename, fileSize, hread, hopens⟩
  · rw [handleLine, hread]
    exact ⟨_, _, _, rfl, rfl, rfl⟩
  · rw [handleLine, hread]
    exact ⟨_, _, _, if_pos hopens, rfl, rfl⟩

theorem handleLine_of_parseError {l : Bytes} (h : codec.readFrame env l = .error .parseError) :
    codec.handleLine env l c = (.loop, { c with log := c.log ++ [.shutdown] }) := by
  rw [handleLine, h]

theorem handleLine_of_not_open {l : Bytes} (h : codec.Rejects env c.log l)
    (hparse : codec.readFrame env l ≠ .error .parseError) :
    codec.handleLine env l c = (.ret, { c with log := c.log ++ [.shutdown] }) := by
  obtain ⟨filename, fileSize, hread, hopens⟩ := h.resolve_left hparse
  rw [handleLine, hread]
  exact if_neg (by simp [hopens])

theorem handleLine_of_fileEnd {l : Bytes} (h : codec.readFrame env l = .ok .fileEnd) (hx : c.xfer = none) :
    codec.handleLine env l c = (.loop, { c with log := c.log ++ codec.fileEnds }) := by
  rw [handleLine, h]
  cases c
  simp_all [fileEnds]

/-! ## The loop -/

/-- The ways through the loop, as an induction principle for its end. -/
theorem onMessage_induct {P : Conn → Conn → Prop} (empty : ∀ c, c.buf.content = [] → P c c)
    (unfinished : ∀ c, c.xfer = none → NoCRLF c.buf.content → P c c)
    (receive : ∀ c st, c.buf.content ≠ [] → c.xfer = some st →
      P (receive st c) (codec.onMessage env (receive st c)) → P c (codec.onMessage env (JsonCodec.receive st c)))
    (loop : ∀ c crlf c', c.xfer = none → c.buf.findCRLF = some crlf →
      codec.handleLine env (c.buf.content.take crlf) { c with buf := c.buf.retrieveUntil (crlf + 2) } = (.loop, c') →
      P c' (codec.onMessage env c') → P c (codec.onMessage env c'))
    (ret : ∀ c crlf c', c.xfer = none → c.buf.findCRLF = some crlf →
      codec.handleLine env (c.buf.content.take crlf) { c with buf := c.buf.retrieveUntil (crlf + 2) } = (.ret, c') →
      P c c')
    (raise : ∀ c crlf c' e, c.xfer = none → c.buf.findCRLF = some crlf →
      codec.handleLine env (c.buf.content.take crlf) { c with buf := c.buf.retrieveUntil (crlf + 2) } = (.raise e, c') →
      P c { c' with raised := some e }) (c : Conn) : P c (codec.onMessage env c) := by
  induction hn : c.left using Nat.strong_induction_on generalizing c with
  | _ n ih =>
    subst hn
    by_cases hcontent : c.buf.content = []
    · rw [codec.onMessage_of_empty env hcontent]
      exact empty c hcontent
    have hpos : 0 < c.buf.readableBytes :=
      Nat.pos_of_ne_zero fun e => hcontent (c.buf.readableBytes_eq_zero.1 e)
    cases hx : c.xfer with
    | some st =>
      rw [codec.onMessage_of_transfer env hcontent hx]
      exact receive c st hcontent hx (ih _ (left_receive hpos hx) _ rfl)
    | none =>
      cases hcrlf : c.buf.findCRLF with
      | none =>
        rw [codec.onMessage_of_noCRLF env hx hcrlf]
        exact unfinished c hx hcrlf
      | some crlf =>
        rw [codec.onMessage_of_CRLF env hx hcrlf]
        have hleft := codec.left_handleLine env hcrlf (c.buf.content.take crlf)
        rcases hhandle : codec.handleLine env (c.buf.content.take crlf)
          { c with buf := c.buf.retrieveUntil (crlf + 2) } with ⟨_ | _ | e, c'⟩
        · rw [hhandle] at hleft
          exact loop c crlf c' hx hcrlf hhandle (ih _ hleft c' rfl)
        · exact ret c crlf c' hx hcrlf hhandle
        · exact raise c crlf c' e hx hcrlf hhandle

/-- Nothing is taken back. -/
theorem log_handleLine {l : Bytes} {c c' : Conn} {ctl : Control} (h : codec.handleLine env l c = (ctl, c')) :
    ∃ effects, c'.log = c.log ++ effects := by
  obtain rfl : (codec.handleLine env l c).2 = c' := congrArg Prod.snd h
  unfold handleLine
  rcases codec.readFrame env l with (_ | _ | _ | _) | ⟨filename, fileSize⟩ | _ | js
  · exact ⟨_, rfl⟩
  · exact ⟨[], (List.append_nil _).symm⟩
  · exact ⟨[], (List.append_nil _).symm⟩
  · exact ⟨[], (List.append_nil _).symm⟩
  · by_cases hopens : env.opens c.log (codec.dir ++ filename) = true
    · simp only [if_pos hopens]
      exact ⟨_, rfl⟩
    · simp only [if_neg hopens]
      exact ⟨_, rfl⟩
  · exact ⟨_, List.append_assoc ..⟩
  · exact ⟨_, rfl⟩

theorem log_onMessage (c : Conn) : ∃ effects, (codec.onMessage env c).log = c.log ++ effects := by
  refine onMessage_induct (P := fun c d => ∃ effects, d.log = c.log ++ effects) ?_ ?_ ?_ ?_ ?_ ?_ c
  · exact fun c _ => ⟨[], by simp⟩
  · exact fun c _ _ => ⟨[], by simp⟩
  · rintro c st - - ⟨effects, h⟩
    exact ⟨_, by rw [h, receive, List.append_assoc]⟩
  · rintro c crlf c' - - hhandle ⟨effects, h⟩
    obtain ⟨effects', h'⟩ := log_handleLine hhandle
    exact ⟨_, by rw [h, h', List.append_assoc]⟩
  · intro c crlf c' _ _ hhandle
    obtain ⟨effects, h⟩ := log_handleLine hhandle
    exact ⟨effects, h⟩
  · intro c crlf c' e _ _ hhandle
    obtain ⟨effects, h⟩ := log_handleLine hhandle
    exact ⟨effects, h⟩

theorem log_foldl (chunks : List Bytes) (c : Conn) :
    ∃ effects, (chunks.foldl (codec.handleRead env) c).log = c.log ++ effects := by
  induction chunks generalizing c with
  | nil => exact ⟨[], by simp⟩
  | cons chunk chunks ih =>
    obtain ⟨effects, h⟩ := ih (codec.handleRead env c chunk)
    have hread : ∃ effects', (codec.handleRead env c chunk).log = c.log ++ effects' := by
      unfold handleRead
      split
      · exact ⟨[], by simp⟩
      · exact log_onMessage _
    obtain ⟨effects', h'⟩ := hread
    exact ⟨_, by rw [List.foldl_cons, h, h', List.append_assoc]⟩

/-- The loop leaves no more than it had. -/
theorem left_onMessage (c : Conn) : (codec.onMessage env c).left ≤ c.left := by
  have hline : ∀ {c c' : Conn} {crlf : ℕ} {ctl : Control}, c.buf.findCRLF = some crlf →
      codec.handleLine env (c.buf.content.take crlf) { c with buf := c.buf.retrieveUntil (crlf + 2) } = (ctl, c') →
      c'.left < c.left := by
    intro c c' crlf ctl hcrlf hhandle
    have hleft := codec.left_handleLine env hcrlf (c.buf.content.take crlf)
    rwa [hhandle] at hleft
  refine onMessage_induct (P := fun c d => d.left ≤ c.left) (fun c _ => le_rfl) (fun c _ _ => le_rfl) ?_ ?_ ?_ ?_ c
  · intro c st hcontent hx h
    have hpos : 0 < c.buf.readableBytes :=
      Nat.pos_of_ne_zero fun e => hcontent (c.buf.readableBytes_eq_zero.1 e)
    exact Nat.le_trans h (Nat.le_of_lt (left_receive hpos hx))
  · exact fun c crlf c' _ hcrlf hhandle h => Nat.le_trans h (Nat.le_of_lt (hline hcrlf hhandle))
  · exact fun c crlf c' _ hcrlf hhandle => Nat.le_of_lt (hline hcrlf hhandle)
  · intro c crlf c' e _ hcrlf hhandle
    have hlt : c'.left < c.left := hline hcrlf hhandle
    exact Nat.le_of_lt hlt

theorem Comes.trans {b : Conn} (h : codec.Comes env b c) (h' : codec.Comes env c d) : codec.Comes env b d := by
  induction h with
  | here => exact h'
  | line hx hcrlf hhandle _ ih => exact .line hx hcrlf hhandle (ih h')
  | receive hcontent hx _ ih => exact .receive hcontent hx (ih h')

theorem Comes.onMessage (h : codec.Comes env c d) : codec.onMessage env c = codec.onMessage env d := by
  induction h with
  | here => rfl
  | line hx hcrlf hhandle _ ih =>
    rw [codec.onMessage_of_CRLF env hx hcrlf, hhandle]
    exact ih
  | receive hcontent hx _ ih => rw [codec.onMessage_of_transfer env hcontent hx, ih]

theorem Comes.raised (h : codec.Comes env c d) : d.raised = c.raised := by
  induction h with
  | here => rfl
  | @line c c' d crlf hx hcrlf hhandle _ ih =>
    have hraised := codec.raised_handleLine env (c.buf.content.take crlf)
      { c with buf := c.buf.retrieveUntil (crlf + 2) }
    rw [hhandle] at hraised
    exact ih.trans hraised
  | receive hcontent hx _ ih => exact ih

/-! ## The reads after a rejection -/

/-- A thread that an exception has left reads no more. -/
theorem foldl_of_raised (chunks : List Bytes) (h : c.raised.isSome) : chunks.foldl (codec.handleRead env) c = c := by
  induction chunks with
  | nil => rfl
  | cons chunk chunks ih => rw [List.foldl_cons, handleRead, if_pos h, ih]

theorem feed_append (chunks chunks' : List Bytes) :
    codec.feed env (chunks ++ chunks') = chunks'.foldl (codec.handleRead env) (codec.feed env chunks) :=
  List.foldl_append ..

theorem ServedNext.exists_line {log : List Effect} {l : Bytes} (h : codec.ServedNext env log l) :
    ∃ crlf, searchCRLF l = some crlf := by
  cases h with
  | here hcrlf => exact ⟨_, hcrlf⟩
  | fileEnd hcrlf => exact ⟨_, hcrlf⟩

/-- The first line of what is in the buffer is that of the bytes to come. -/
theorem first_line (h : c.buf.findCRLF = some crlf) (bytes : Bytes) :
    searchCRLF (c.buf.content ++ bytes) = some crlf ∧
      (c.buf.content ++ bytes).take crlf = c.buf.content.take crlf ∧
      (c.buf.content ++ bytes).drop (crlf + 2) = (c.buf.retrieveUntil (crlf + 2)).content ++ bytes := by
  have hbound := searchCRLF_bound h
  refine ⟨searchCRLF_append h bytes, List.take_append_of_le_length (by omega), ?_⟩
  rw [Buffer.content_retrieveUntil, List.drop_append_of_le_length hbound]

/-- With the first line served in prospect, one read serves it or leaves the prospect. -/
theorem serves_onMessage (bytes : Bytes) (c : Conn) (hx : c.xfer = none) (hraised : c.raised = none)
    (hnext : codec.ServedNext env c.log (c.buf.content ++ bytes)) :
    (∃ effects, (codec.onMessage env c).log = c.log ++ effects ∧ ∃ e ∈ effects, e.serves = true) ∨
      bytes ≠ [] ∧ (codec.onMessage env c).xfer = none ∧ (codec.onMessage env c).raised = none ∧
        codec.ServedNext env (codec.onMessage env c).log ((codec.onMessage env c).buf.content ++ bytes) := by
  have hwait : ∀ c : Conn, c.xfer = none → c.raised = none → c.buf.findCRLF = none →
      codec.ServedNext env c.log (c.buf.content ++ bytes) → bytes ≠ [] ∧ (codec.onMessage env c).xfer = none ∧
        (codec.onMessage env c).raised = none ∧
        codec.ServedNext env (codec.onMessage env c).log ((codec.onMessage env c).buf.content ++ bytes) := by
    intro c hx hraised hfind hnext
    rw [codec.onMessage_of_noCRLF env hx hfind]
    refine ⟨?_, hx, hraised, hnext⟩
    rintro rfl
    obtain ⟨crlf, hcrlf⟩ := hnext.exists_line
    rw [List.append_nil] at hcrlf
    exact absurd (hfind.symm.trans hcrlf) (by simp)
  generalize hD : c.buf.content ++ bytes = D at hnext
  generalize hlog : c.log = log at hnext
  induction hnext generalizing c with
  | @here log D crlf hcrlf hserves =>
    subst hD hlog
    cases hfind : c.buf.findCRLF with
    | none => exact .inr (hwait c hx hraised hfind (.here hcrlf hserves))
    | some i =>
      obtain ⟨hsearch, htake, -⟩ := first_line hfind bytes
      obtain rfl : crlf = i := Option.some.inj (hcrlf.symm.trans hsearch)
      rw [htake] at hserves
      obtain ⟨e, effects, c', hhandle, hlog, he⟩ :=
        handleLine_of_serves (c := { c with buf := c.buf.retrieveUntil (crlf + 2) }) hserves
      rw [codec.onMessage_of_CRLF env hx hfind, hhandle]
      obtain ⟨effects', hlog'⟩ := @log_onMessage codec env c'
      exact .inl ⟨e :: effects ++ effects', by simp [hlog', hlog], e, by simp, he⟩
  | @fileEnd log D crlf hcrlf hend hnext ih =>
    subst hD hlog
    cases hfind : c.buf.findCRLF with
    | none => exact .inr (hwait c hx hraised hfind (.fileEnd hcrlf hend hnext))
    | some i =>
      obtain ⟨hsearch, htake, hdrop⟩ := first_line hfind bytes
      obtain rfl : crlf = i := Option.some.inj (hcrlf.symm.trans hsearch)
      rw [htake] at hend
      have hhandle := handleLine_of_fileEnd (c := { c with buf := c.buf.retrieveUntil (crlf + 2) }) hend hx
      rw [codec.onMessage_of_CRLF env hx hfind, hhandle]
      rcases ih { c with buf := c.buf.retrieveUntil (crlf + 2), log := c.log ++ codec.fileEnds } hx hraised hdrop.symm
        rfl with ⟨effects, hlog, e, he, hserves⟩ | hlater
      · exact .inl ⟨codec.fileEnds ++ effects, by rw [← List.append_assoc]; exact hlog, e, by simp [he], hserves⟩
      · exact .inr hlater

/-- Reads that bring the first line serve it. -/
theorem serves_foldl {chunks : List Bytes} (hne : chunks ≠ []) (hx : c.xfer = none) (hraised : c.raised = none)
    (hnext : codec.ServedNext env c.log (c.buf.content ++ chunks.flatten)) :
    ∃ effects, (chunks.foldl (codec.handleRead env) c).log = c.log ++ effects ∧ ∃ e ∈ effects, e.serves = true := by
  induction chunks generalizing c with
  | nil => exact absurd rfl hne
  | cons chunk chunks ih =>
    have hread : codec.handleRead env c chunk = codec.onMessage env { c with buf := c.buf.readFd chunk } := by
      rw [handleRead, if_neg (by simp [hraised])]
    rw [List.foldl_cons, hread]
    rcases serves_onMessage chunks.flatten { c with buf := c.buf.readFd chunk } hx hraised
      (by simpa using hnext) with ⟨effects, hlog, e, he, hserves⟩ | ⟨hmore, hx', hraised', hnext'⟩
    · obtain ⟨effects', hlog'⟩ := @log_foldl codec env chunks
        (codec.onMessage env { c with buf := c.buf.readFd chunk })
      exact ⟨effects ++ effects', by rw [hlog', hlog, List.append_assoc], e, by simp [he], hserves⟩
    · obtain ⟨effects, hlog, e, he, hserves⟩ := ih (fun h => hmore (by simp [h])) hx' hraised' hnext'
      obtain ⟨effects', hlog'⟩ := @log_onMessage codec env { c with buf := c.buf.readFd chunk }
      exact ⟨effects' ++ effects, by rw [hlog, hlog', List.append_assoc], e, by simp [he], hserves⟩

theorem not_serves_fileEnds : ∀ e ∈ codec.fileEnds, e.serves = false := by
  unfold fileEnds
  split <;> simp [Effect.serves]

/-- With nothing served in prospect, a line serves nothing; what the loop does behind it depends on whether it was
rejected. -/
theorem unserved_handleLine {ref c' : Conn} {bytes : Bytes} {ctl : Control} (hcrlf : c.buf.findCRLF = some crlf)
    (hhandle : codec.handleLine env (c.buf.content.take crlf) { c with buf := c.buf.retrieveUntil (crlf + 2) } =
      (ctl, c')) (hun : Unserved ref c) (hnext : ¬codec.ServedNext env c.log (c.buf.content ++ bytes)) :
    Unserved ref c' ∧ (ctl = .loop ∧ ¬codec.ServedNext env c'.log (c'.buf.content ++ bytes) ∨
      codec.Rejects env c.log (c.buf.content.take crlf) ∧
        c' = { c with buf := c.buf.retrieveUntil (crlf + 2), log := c.log ++ [.shutdown] } ∧
        (codec.readFrame env (c.buf.content.take crlf) = .error .parseError ∧ ctl = .loop ∨ ctl = .ret) ∨
      ∃ e, ctl = .raise e) := by
  obtain ⟨hsearch, htake, hdrop⟩ := first_line hcrlf bytes
  rcases @line_cases codec env c.log (c.buf.content.take crlf) with
    hserves | hreject | hend | ⟨e, hraise⟩
  · exact absurd (.here hsearch (htake ▸ hserves)) hnext
  · by_cases hparse : codec.readFrame env (c.buf.content.take crlf) = .error .parseError
    · rw [handleLine_of_parseError hparse] at hhandle
      obtain ⟨rfl, rfl⟩ := Prod.mk.inj hhandle
      exact ⟨hun.of_log hun.1 rfl (by simp [Effect.serves]), .inr (.inl ⟨hreject, rfl, .inl ⟨hparse, rfl⟩⟩)⟩
    · rw [handleLine_of_not_open (c := { c with buf := c.buf.retrieveUntil (crlf + 2) }) hreject hparse] at hhandle
      obtain ⟨rfl, rfl⟩ := Prod.mk.inj hhandle
      exact ⟨hun.of_log hun.1 rfl (by simp [Effect.serves]), .inr (.inl ⟨hreject, rfl, .inr rfl⟩)⟩
  · rw [handleLine_of_fileEnd (c := { c with buf := c.buf.retrieveUntil (crlf + 2) }) hend hun.1] at hhandle
    obtain ⟨rfl, rfl⟩ := Prod.mk.inj hhandle
    refine ⟨hun.of_log hun.1 rfl not_serves_fileEnds, .inl ⟨rfl, fun hlater => hnext ?_⟩⟩
    exact .fileEnd hsearch (htake ▸ hend) (hdrop ▸ hlater)
  · rw [hraise] at hhandle
    obtain ⟨rfl, rfl⟩ := Prod.mk.inj hhandle
    exact ⟨hun.of_log hun.1 (List.append_nil _).symm (by simp), .inr (.inr ⟨e, rfl⟩)⟩

/-- With nothing served in prospect, one read serves nothing, and what it rejects decides what comes after it. -/
theorem unserved_onMessage {ref start : Conn} {bytes : Bytes} {more : Prop}
    (hrejects : ∀ d crlf, codec.Comes env start d → d.xfer = none → d.buf.findCRLF = some crlf →
      codec.Rejects env d.log (d.buf.content.take crlf) →
      (codec.readFrame env (d.buf.content.take crlf) = .error .parseError →
        NoCRLF (d.buf.retrieveUntil (crlf + 2)).content) ∧
      (more → ¬codec.ServedNext env (d.log ++ [.shutdown]) ((d.buf.retrieveUntil (crlf + 2)).content ++ bytes)))
    (c : Conn) : codec.Comes env start c → Unserved ref c →
      ¬codec.ServedNext env c.log (c.buf.content ++ bytes) →
      Unserved ref (codec.onMessage env c) ∧ ((codec.onMessage env c).raised = none → more →
        ¬codec.ServedNext env (codec.onMessage env c).log ((codec.onMessage env c).buf.content ++ bytes)) := by
  refine onMessage_induct (P := fun c d => codec.Comes env start c → Unserved ref c →
      ¬codec.ServedNext env c.log (c.buf.content ++ bytes) →
      Unserved ref d ∧ (d.raised = none → more → ¬codec.ServedNext env d.log (d.buf.content ++ bytes)))
    ?empty ?unfinished ?receive ?loop ?ret ?raise c
  case empty => exact fun c _ _ hun hnext => ⟨hun, fun _ _ => hnext⟩
  case unfinished => exact fun c _ _ _ hun hnext => ⟨hun, fun _ _ => hnext⟩
  case receive =>
    intro c st _ hx _ _ hun
    exact absurd (hun.1.symm.trans hx) (by simp)
  case loop =>
    intro c crlf c' hx hcrlf hhandle ih hcomes hun hnext
    obtain ⟨hun', ⟨-, hnext'⟩ | ⟨hreject, rfl, ⟨hparse, -⟩ | hret⟩ | ⟨e, hraise⟩⟩ :=
      unserved_handleLine hcrlf hhandle hun hnext
    · exact ih (hcomes.trans (.line hx hcrlf hhandle (.here c'))) hun' hnext'
    · obtain ⟨hline, hmore⟩ := hrejects c crlf hcomes hx hcrlf hreject
      rw [codec.onMessage_of_noCRLF env hun'.1 (hline hparse)]
      exact ⟨hun', fun _ => hmore⟩
    · cases hret
    · cases hraise
  case ret =>
    intro c crlf c' hx hcrlf hhandle hcomes hun hnext
    obtain ⟨hun', ⟨hloop, -⟩ | ⟨hreject, rfl, -⟩ | ⟨e, hraise⟩⟩ := unserved_handleLine hcrlf hhandle hun hnext
    · cases hloop
    · exact ⟨hun', fun _ => (hrejects c crlf hcomes hx hcrlf hreject).2⟩
    · cases hraise
  case raise =>
    intro c crlf c' e hx hcrlf hhandle hcomes hun hnext
    obtain ⟨hun', -⟩ := unserved_handleLine hcrlf hhandle hun hnext
    exact ⟨⟨hun'.1, hun'.2⟩, fun h => by cases h⟩

end Lemmas

/-! ## Every rejection in the course of the reads -/

section Reads

variable {codec env} {chunks : List Bytes}

namespace Rejection

variable (r : Rejection codec env chunks)

theorem ended_eq : r.ended = codec.onMessage env r.c := by
  rw [ended, handleRead, if_neg (by simp [r.running]), r.comes.onMessage]

theorem xfer_left : r.left.xfer = none := r.noTransfer

theorem raised_left : r.left.raised = none := r.comes.raised.trans r.running

theorem ended_of_parseError (h : codec.readFrame env r.line = .error .parseError) :
    r.ended = codec.onMessage env r.left := by
  have hhandle := handleLine_of_parseError (c := { r.c with buf := r.c.buf.retrieveUntil (r.crlf + 2) }) h
  rw [line] at hhandle
  rw [ended_eq, codec.onMessage_of_CRLF env r.noTransfer r.isLine, hhandle]
  rfl

theorem ended_of_not_open (h : codec.readFrame env r.line ≠ .error .parseError) : r.ended = r.left := by
  have hhandle := handleLine_of_not_open (c := { r.c with buf := r.c.buf.retrieveUntil (r.crlf + 2) }) r.rejects h
  rw [ended_eq, codec.onMessage_of_CRLF env r.noTransfer r.isLine, hhandle]
  rfl

end Rejection

/-- The loop stops at once only where no line is complete. -/
theorem noCRLF_of_onMessage_eq {c : Conn} (hx : c.xfer = none) (h : codec.onMessage env c = c) :
    NoCRLF c.buf.content := by
  cases hfind : c.buf.findCRLF with
  | none => exact hfind
  | some crlf =>
    have hleft := codec.left_handleLine env hfind (c.buf.content.take crlf)
    have hc := congrArg Conn.left h
    rw [codec.onMessage_of_CRLF env hx hfind] at hc
    rcases hhandle : codec.handleLine env (c.buf.content.take crlf)
      { c with buf := c.buf.retrieveUntil (crlf + 2) } with ⟨_ | _ | e, c'⟩
    · rw [hhandle] at hc hleft
      have hle := @left_onMessage codec env c'
      simp only at hc hleft
      omega
    · rw [hhandle] at hc hleft
      simp only at hc hleft
      omega
    · rw [hhandle] at hc hleft
      simp only [Conn.left] at hc hleft
      omega

/-- If nothing follows the rejections, nobody is served while no line is in prospect. -/
theorem unserved_foldl (hquiet : codec.NothingFollows env chunks) {ref : Conn} {before later : List Bytes}
    (hreads : chunks = before ++ later) (hun : Unserved ref (codec.feed env before))
    (hnext : (codec.feed env before).raised = none → later ≠ [] →
      ¬codec.ServedNext env (codec.feed env before).log ((codec.feed env before).buf.content ++ later.flatten))
    {later' : List Bytes} (hlater : later' <+: later) :
    Unserved ref (later'.foldl (codec.handleRead env) (codec.feed env before)) := by
  induction later generalizing before later' with
  | nil =>
    obtain rfl := List.prefix_nil.1 hlater
    exact hun
  | cons chunk later ih =>
    cases hraised : (codec.feed env before).raised with
    | some e => rwa [foldl_of_raised _ (by simp [hraised])]
    | none =>
      cases later' with
      | nil => exact hun
      | cons chunk' later' =>
        obtain ⟨rfl, hlater'⟩ := List.cons_prefix_cons.1 hlater
        have hread : codec.feed env (before ++ [chunk']) = codec.onMessage env
            { codec.feed env before with buf := (codec.feed env before).buf.readFd chunk' } := by
          rw [feed_append, List.foldl_cons, List.foldl_nil, handleRead, if_neg (by simp [hraised])]
        have hnext' := hnext hraised (by simp)
        have hrejects : ∀ d crlf, codec.Comes env
            { codec.feed env before with buf := (codec.feed env before).buf.readFd chunk' } d → d.xfer = none →
            d.buf.findCRLF = some crlf → codec.Rejects env d.log (d.buf.content.take crlf) →
            (codec.readFrame env (d.buf.content.take crlf) = .error .parseError →
              NoCRLF (d.buf.retrieveUntil (crlf + 2)).content) ∧
            (later ≠ [] → ¬codec.ServedNext env (d.log ++ [.shutdown])
              ((d.buf.retrieveUntil (crlf + 2)).content ++ later.flatten)) :=
          fun d crlf hcomes hx hcrlf hreject => hquiet
            { before, chunk := chunk', later, reads := hreads, running := hraised, c := d, comes := hcomes, crlf
              noTransfer := hx, isLine := hcrlf, rejects := hreject }
        have hun' : Unserved ref { codec.feed env before with buf := (codec.feed env before).buf.readFd chunk' } :=
          ⟨hun.1, hun.2⟩
        obtain ⟨hun', hmore⟩ := unserved_onMessage hrejects _ (.here _) hun' (by simpa using hnext')
        rw [← hread] at hun' hmore
        have hfold := ih (by simp [hreads] : chunks = (before ++ [chunk']) ++ later) hun' hmore hlater'
        rwa [feed_append, List.foldl_cons, List.foldl_nil] at hfold

/-- What follows is served. -/
theorem nothingFollows_of_notServedFurther (h : codec.NotServedFurther env chunks) : codec.NothingFollows env chunks := by
  intro r
  obtain ⟨hended, hun⟩ := h r
  refine ⟨fun hparse => ?_, fun hmore hnext => ?_⟩
  · -- the loop has gone on from the state that the rejection left, and has ended there
    have hstay : codec.onMessage env r.left = r.left := by
      rw [← r.ended_of_parseError hparse, hended]
    exact noCRLF_of_onMessage_eq r.xfer_left hstay
  · obtain ⟨effects, hlog, e, he, hserves⟩ := serves_foldl hmore r.xfer_left r.raised_left hnext
    obtain ⟨-, effects', hlog', heffects'⟩ := hun r.later (List.prefix_refl _)
    rw [hended, hlog, List.append_cancel_left_eq] at hlog'
    rw [heffects' e (hlog' ▸ he)] at hserves
    cases hserves

theorem notServedFurther_of_nothingFollows (h : codec.NothingFollows env chunks) :
    codec.NotServedFurther env chunks := by
  intro r
  obtain ⟨hparse, hmore⟩ := h r
  have hended : r.ended = r.left := by
    by_cases hp : codec.readFrame env r.line = .error .parseError
    · rw [r.ended_of_parseError hp, codec.onMessage_of_noCRLF env r.xfer_left (hparse hp)]
    · exact r.ended_of_not_open hp
  refine ⟨hended, fun later hlater => ?_⟩
  have hfeed : codec.feed env (r.before ++ [r.chunk]) = r.ended := by
    rw [feed_append]
    rfl
  rw [← hfeed]
  refine unserved_foldl h (by simp [r.reads]) ?_ ?_ hlater
  · rw [hfeed, hended]
    exact ⟨r.noTransfer, [], by simp, by simp⟩
  · intro _ hne
    rw [hfeed, hended]
    exact hmore hne

end Reads

/-- **When a rejected connection is not served further.** For every stream and every way to cut it into reads: nothing
of a connection is dispatched or received after a rejection, and the rejection leaves the same state on both paths,
exactly when no line follows one that does not parse in the same read and the first line that is read after a
rejection, other than the end of a file, is not served. -/
theorem not_served_further_iff (chunks : List Bytes) :
    codec.NotServedFurther env chunks ↔ codec.NothingFollows env chunks :=
  ⟨nothingFollows_of_notServedFurther, notServedFurther_of_nothingFollows⟩

/-- The first line of the first read is rejected. -/
def Rejection.first (chunk : Bytes) (later : List Bytes) {crlf : ℕ} (hcrlf : searchCRLF chunk = some crlf)
    (hrejects : codec.Rejects env [] (chunk.take crlf)) : codec.Rejection env (chunk :: later) where
  before := []
  chunk := chunk
  later := later
  reads := rfl
  running := rfl
  c := { Conn.new with buf := Buffer.new.readFd chunk }
  comes := .here _
  crlf := crlf
  noTransfer := rfl
  isLine := by simpa [Buffer.findCRLF] using hcrlf
  rejects := by simpa [Conn.new] using hrejects

/-- A line that does not parse, and a login in the same read; a file that does not open, and a login in the next. -/
theorem served_after_rejection :
    let login : Json := .obj [("msgid", .msg .loginMsg)]
    let file : Json := .obj [("filename", .str "a"), ("filesize", .num 1), ("msgid", .msg .sendFile)]
    let env : Env := ⟨.ofList [login, file], fun _ _ => false⟩
    ¬ServerJsonCodec.NotServedFurther env [[120] ++ CRLF ++ login.dump ++ CRLF] ∧
      ¬ServerJsonCodec.NotServedFurther env [file.dump ++ CRLF, login.dump ++ CRLF] := by
  intro login file env
  have hlogin : ServerJsonCodec.readFrame env login.dump = .ok (.message login) := by
    have hparse : env.lib.parse login.dump = .ok login := by simp [env, JsonLib.ofList]
    rw [readFrame_of_parse ServerJsonCodec env hparse (by rfl : login.intField "msgid" = .ok EnMsgType.loginMsg.code)]
    rfl
  have hfile : ServerJsonCodec.readFrame env file.dump = .ok (.header "a" 1) := by
    have hne : login.dump ≠ file.dump := by decide +kernel
    have hparse : env.lib.parse file.dump = .ok file := by simp [env, JsonLib.ofList, hne]
    rw [readFrame_of_parse ServerJsonCodec env hparse (by rfl : file.intField "msgid" = .ok EnMsgType.sendFile.code)]
    rfl
  have hlast : searchCRLF (login.dump ++ CRLF) = some login.dump.length := by decide +kernel
  constructor
  · intro h
    have hx : ServerJsonCodec.readFrame env [120] = .error .parseError := by
      have hlogin' : login.dump ≠ [120] := by decide +kernel
      have hfile' : file.dump ≠ [120] := by decide +kernel
      have hparse : env.lib.parse [120] = .error .parseError := by simp [env, JsonLib.ofList, hlogin', hfile']
      rw [readFrame, hparse]
      rfl
    have htake : ([120] ++ CRLF ++ login.dump ++ CRLF).take 1 = [120] := by simp
    have hrejects : ServerJsonCodec.Rejects env [] (([120] ++ CRLF ++ login.dump ++ CRLF).take 1) := by
      rw [htake]
      exact .inl hx
    let r := Rejection.first ServerJsonCodec env ([120] ++ CRLF ++ login.dump ++ CRLF) [] rfl hrejects
    have hrest := (nothingFollows_of_notServedFurther h r).1 (by simpa [r, Rejection.first, Rejection.line] using hx)
    have hleft : r.left.buf.content = login.dump ++ CRLF := by simp [r, Rejection.first, Rejection.left]
    rw [hleft] at hrest
    exact absurd (hlast.symm.trans hrest) (by simp)
  · intro h
    have hfirst : searchCRLF (file.dump ++ CRLF) = some file.dump.length := by decide +kernel
    have hrejects : ServerJsonCodec.Rejects env [] ((file.dump ++ CRLF).take file.dump.length) := by
      rw [List.take_left]
      exact .inr ⟨"a", 1, hfile, rfl⟩
    let r := Rejection.first ServerJsonCodec env (file.dump ++ CRLF) [login.dump ++ CRLF] hfirst hrejects
    refine (nothingFollows_of_notServedFurther h r).2 (by simp [r, Rejection.first]) ?_
    have hleft : r.left.buf.content = [] := by simp [r, Rejection.first, Rejection.left]
    rw [hleft]
    have hline : searchCRLF ([] ++ [login.dump ++ CRLF].flatten) = some login.dump.length := by
      simpa [r, Rejection.first] using hlast
    refine .here hline (.inl ⟨login, ?_⟩)
    simpa [r, Rejection.first] using hlogin

end JsonCodec

end Chatroom.Codec
