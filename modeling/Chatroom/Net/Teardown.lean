import Chatroom.Net.TcpServer

/-!
# A connection is torn down once

A connection goes from stage to stage, and at every stage at most one functor that moves it on is queued, in one of the
loops (`At`). `handleClose` leaves the state as it is, so that until `connectDestroyed` has run a `forceClose`, a
hang-up or an end of file can lead to it again; where it is entered only while the channel still wants to read
(`Clean`), the stages follow each other (`tornDownOnce_of_run`).
-/

namespace Chatroom.Net

open Lib

inductive Stage where
  /-- not yet there -/
  | fresh
  /-- `connectEstablished` is queued -/
  | connecting
  | up
  /-- `removeConnectionInLoop` is queued -/
  | closing
  /-- `connectDestroyed` is queued -/
  | removed
  | destroyed
  deriving DecidableEq

namespace Stage

/-- The loop in which the connection is moved on, and by which functor. -/
def awaits (c loop : ℕ) : Stage → Option (ℕ × Functor)
  | connecting => some (loop, .connectEstablished c)
  | closing => some (0, .removeConnectionInLoop c)
  | removed => some (loop, .connectDestroyed c)
  | _ => none

/-- It is in `m_connections`. -/
def Listed (stage : Stage) : Prop := stage = connecting ∨ stage = up ∨ stage = closing

/-- What the connection and its channel are like. -/
structure Fits (stage : Stage) (p : Peer) : Prop where
  isReading : p.isReading = decide (stage = up)
  connecting : stage = fresh ∨ stage = connecting → p.conn.state = .kConnecting
  live : stage = up ∨ stage = closing ∨ stage = removed →
    (p.conn.state = .kConnected ∨ p.conn.state = .kDisconnecting) ∧ p.index ≠ .kNew

/-- What has happened. -/
def Tells (c : ℕ) : Stage → List TeardownEvent → Prop
  | closing, log => log = [.closeCallback c]
  | removed, log => log = [.closeCallback c, .erased c 1]
  | destroyed, log => ∃ state, (state = .kConnected ∨ state = .kDisconnecting) ∧
    log = [.closeCallback c, .erased c 1, .connectDestroyed c state]
  | _, log => log = []

end Stage

/-- The connection that the functor moves on. -/
def Functor.moves? : Functor → Option ℕ
  | .connectEstablished c | .connectDestroyed c | .removeConnectionInLoop c => some c
  | _ => none

/-- The functors that the loop is going to run. -/
def ServerLoop.queue (loop : ServerLoop) : List Functor :=
  (match loop.phase with
    | .calling functors => functors
    | _ => []) ++ loop.pendingFunctors

namespace TcpServer

/-- The functors that are going to move the connection on in the loop `i`. -/
def todo (s : TcpServer) (c i : ℕ) : List Functor := (s.loops i).queue.filter fun f => f.moves? = some c

/-- What has happened to the connection. -/
def history (s : TcpServer) (c : ℕ) : List TeardownEvent := s.log.filter fun e => e.conn = c

/-- The functor, in its loop only. -/
def awaited (w : Option (ℕ × Functor)) (i : ℕ) : List Functor :=
  match w with
  | some (j, f) => if i = j then [f] else []
  | none => []

/-- The connection is at the stage, and `w` is going to move it on. -/
structure At (s : TcpServer) (c : ℕ) (stage : Stage) (w : Option (ℕ × Functor)) : Prop where
  fits : stage.Fits (s.peers c)
  fresh : s.nextConnId ≤ c → stage = .fresh
  listed : c ∈ s.connections ↔ stage.Listed
  todo : ∀ i, s.todo c i = awaited w i
  tells : stage.Tells c (s.history c)
  calls : ∀ call ∈ s.calls, call.conn = c → stage ≠ .fresh ∧ stage ≠ .connecting

/-! ## What leaves a stage alone -/

section Frame

variable {s t : TcpServer} {c : ℕ} {stage : Stage} {w : Option (ℕ × Functor)}

/-- The loops and what is about the connection are the same. -/
theorem At.congr (h : At s c stage w) (hpeer : stage.Fits (t.peers c)) (hnext : t.nextConnId = s.nextConnId)
    (hlisted : c ∈ t.connections ↔ c ∈ s.connections) (htodo : ∀ i, t.todo c i = s.todo c i)
    (hlog : t.log = s.log) (hcalls : ∀ call ∈ t.calls, call.conn = c → stage ≠ .fresh ∧ stage ≠ .connecting) :
    At t c stage w where
  fits := hpeer
  fresh := by rw [hnext]; exact h.fresh
  listed := hlisted.trans h.listed
  todo i := (htodo i).trans (h.todo i)
  tells := by
    rw [history, hlog]
    exact h.tells
  calls := hcalls

theorem At.setPeer (h : At s c stage w) {d : ℕ} {p : Peer} (hfits : d = c → stage.Fits p) :
    At (s.setPeer d p) c stage w := by
  refine h.congr ?_ rfl .rfl (fun _ => rfl) rfl h.calls
  show stage.Fits (Function.update s.peers d p c)
  rw [Function.update_apply]
  split
  case isTrue hd => exact hfits hd.symm
  case isFalse => exact h.fits

theorem todo_queueInLoop (s : TcpServer) (c i j : ℕ) (f : Functor) : (s.queueInLoop i f).todo c j =
    s.todo c j ++ if j = i ∧ f.moves? = some c then [f] else [] := by
  simp only [TcpServer.todo, queueInLoop, Function.update_apply]
  by_cases hj : j = i
  · subst hj
    simp only [if_true, true_and, ServerLoop.queue, ← List.append_assoc, List.filter_append]
    by_cases hf : f.moves? = some c <;> simp [hf]
  · simp [hj]

/-- A functor that is not about the connection, or not about its stages, is queued. -/
theorem At.queueInLoop (h : At s c stage w) (i : ℕ) {f : Functor} (hf : f.moves? ≠ some c) :
    At (s.queueInLoop i f) c stage w := by
  refine h.congr h.fits rfl .rfl (fun j => ?_) rfl h.calls
  rw [todo_queueInLoop, if_neg fun hj => hf hj.2, List.append_nil]

/-- The functor that moves the connection on is queued. -/
theorem At.await (h : At s c stage none) (i : ℕ) {f : Functor} (hf : f.moves? = some c) :
    At (s.queueInLoop i f) c stage (some (i, f)) where
  fits := h.fits
  fresh := h.fresh
  listed := h.listed
  todo j := by
    rw [todo_queueInLoop, h.todo]
    by_cases hj : j = i <;> simp [awaited, hj, hf]
  tells := h.tells
  calls := h.calls

/-- The loop goes to another phase, in which it has the same functors of the connection. -/
theorem At.setPhase (h : At s c stage w) {i : ℕ} {phase : LoopPhase}
    (hqueue : (ServerLoop.mk phase (s.loops i).pendingFunctors).queue.filter (fun f => f.moves? = some c) =
      s.todo c i) : At (s.setPhase i phase) c stage w := by
  refine h.congr h.fits rfl .rfl (fun j => ?_) rfl h.calls
  simp only [TcpServer.todo, TcpServer.setPhase, Function.update_apply]
  split
  case isTrue hj => rw [hj]; exact hqueue
  case isFalse => rfl

theorem At.event (h : At s c stage w) {e : TeardownEvent} (he : e.conn ≠ c) : At (s.event e) c stage w where
  fits := h.fits
  fresh := h.fresh
  listed := h.listed
  todo := h.todo
  tells := by
    have hhistory : (s.event e).history c = s.history c := by
      simp [history, TcpServer.event, List.filter_append, he]
    rw [hhistory]
    exact h.tells
  calls := h.calls

theorem At.abort (h : At s c stage w) : At s.abort c stage w :=
  h.congr h.fits rfl .rfl (fun _ => rfl) rfl h.calls

theorem At.connectEstablished (h : At s c stage w) {d : ℕ} (hd : d ≠ c) : At (s.connectEstablished d) c stage w := by
  unfold TcpServer.connectEstablished
  dsimp only
  split
  · exact h.setPeer fun heq => absurd heq hd
  · exact h.abort

theorem At.removeConnectionInLoop (h : At s c stage w) {d : ℕ} (hd : d ≠ c) :
    At (s.removeConnectionInLoop d) c stage w := by
  have herase : At { s with connections := s.connections.erase d } c stage w :=
    h.congr h.fits rfl (by simp [hd.symm]) (fun _ => rfl) rfl h.calls
  unfold TcpServer.removeConnectionInLoop
  dsimp only
  split
  · exact (herase.event (e := .erased d _) hd).queueInLoop _ fun heq => hd (Option.some.inj heq)
  · exact (herase.event (e := .erased d _) hd).abort

theorem At.removeConnection (h : At s c stage w) {d : ℕ} (hd : d ≠ c) (i : ℕ) :
    At (s.removeConnection i d) c stage w := by
  unfold TcpServer.removeConnection
  dsimp only
  split
  · exact (h.event (e := .closeCallback d) hd).removeConnectionInLoop hd
  · exact (h.event (e := .closeCallback d) hd).queueInLoop 0 fun heq => hd (Option.some.inj heq)

theorem At.handleClose (h : At s c stage w) {d : ℕ} (hd : d ≠ c) (i : ℕ) : At (s.handleClose i d) c stage w := by
  unfold TcpServer.handleClose
  dsimp only
  split
  · exact (h.setPeer fun heq => absurd heq hd).removeConnection hd i
  · exact h.abort

theorem At.connectDestroyed (h : At s c stage w) {d : ℕ} (hd : d ≠ c) : At (s.connectDestroyed d) c stage w := by
  have hevent := h.event (e := .connectDestroyed d (s.peers d).conn.state) hd
  unfold TcpServer.connectDestroyed
  dsimp only
  split
  · split
    · exact hevent.setPeer fun heq => absurd heq hd
    · exact hevent.abort
  · exact hevent.abort

end Frame

/-! ## What a peer keeps -/

section Peer

variable {p : Peer} {stage : Stage}

theorem index_updateChannel (p : Peer) : p.updateChannel.index ≠ .kNew := by
  unfold Peer.updateChannel
  cases p.index with
  | kAdded => cases p.isNoneEvent <;> simp
  | _ => simp

theorem fits_write (h : stage.Fits p) {conn : Connection} (hstate : conn.state = p.conn.state) :
    stage.Fits (p.write conn) := by
  unfold Peer.write
  split
  · exact ⟨h.isReading, fun hs => hstate.trans (h.connecting hs), fun hs => ⟨hstate ▸ (h.live hs).1, (h.live hs).2⟩⟩
  · refine ⟨h.isReading, fun hs => hstate.trans (h.connecting hs), fun hs => ?_⟩
    exact ⟨hstate ▸ (h.live hs).1, index_updateChannel _⟩

/-- Once it is up, the state can be set to `kDisconnecting` at any time. -/
theorem fits_setState (h : stage.Fits p) (hstage : stage ≠ .fresh ∧ stage ≠ .connecting) :
    stage.Fits (p.setState .kDisconnecting) where
  isReading := h.isReading
  connecting hs := (hs.elim hstage.1 hstage.2).elim
  live hs := ⟨.inr rfl, (h.live hs).2⟩

end Peer

/-! ## From stage to stage -/

section Stages

variable {s : TcpServer} {c : ℕ} {stage : Stage} {w : Option (ℕ × Functor)}

theorem At.completing (h : At s c stage w) {d : ℕ} {done : Connection × Bool}
    (hstate : done.1.state = (s.peers d).conn.state) : At (s.completing d done) c stage w := by
  have hset : At (s.setPeer d ((s.peers d).write done.1)) c stage w := by
    refine h.setPeer fun hd => ?_
    subst hd
    exact fits_write h.fits hstate
  unfold TcpServer.completing
  dsimp only
  split
  · exact hset.queueInLoop _ nofun
  · exact hset

theorem history_event (s : TcpServer) {e : TeardownEvent} (he : e.conn = c) :
    (s.event e).history c = s.history c ++ [e] := by
  simp [history, TcpServer.event, List.filter_append, he]

/-- The connection is at a stage at which nothing but what it awaits is queued for it. -/
def Staged (s : TcpServer) (c : ℕ) : Prop := ∃ (stage : Stage) (loop : ℕ), At s c stage (stage.awaits c loop)

theorem staged_established (h : At s c .connecting none) :
    Staged (s.connectEstablished c) c ∧ (s.connectEstablished c).aborted = s.aborted := by
  have hstate : (s.peers c).conn.state = .kConnecting := h.fits.connecting (.inr rfl)
  unfold TcpServer.connectEstablished
  dsimp only
  rw [if_pos hstate]
  refine ⟨⟨.up, 0, ?_, ?_, ?_, h.todo, h.tells, fun call hcall hc => ?_⟩, rfl⟩
  · show Stage.Fits .up (Function.update s.peers c _ c)
    rw [Function.update_self]
    exact ⟨rfl, by simp, fun _ => ⟨.inl rfl, index_updateChannel _⟩⟩
  · exact fun hle => (nomatch h.fresh hle)
  · exact h.listed.trans (by simp [Stage.Listed])
  · exact absurd rfl (h.calls call hcall hc).2

theorem staged_erased (h : At s c .closing none) :
    Staged (s.removeConnectionInLoop c) c ∧ (s.removeConnectionInLoop c).aborted = s.aborted := by
  have hmem : c ∈ s.connections := h.listed.2 (.inr (.inr rfl))
  unfold TcpServer.removeConnectionInLoop
  dsimp only
  rw [if_pos hmem, if_pos rfl]
  refine ⟨⟨.removed, _, At.await ?_ _ rfl⟩, rfl⟩
  refine ⟨⟨h.fits.isReading, by simp, fun _ => h.fits.live (by simp)⟩, fun hle => (nomatch h.fresh hle), ?_, h.todo,
    ?_, ?_⟩
  · simp [TcpServer.event, Stage.Listed]
  · have hhistory : s.history c = [.closeCallback c] := h.tells
    refine (history_event { s with connections := s.connections.erase c } (e := .erased c 1) rfl).trans ?_
    exact congrArg (· ++ [TeardownEvent.erased c 1]) hhistory
  · exact fun _ _ _ => ⟨nofun, nofun⟩

/-- `handleClose` while the channel wants to read. -/
theorem staged_closed (h : At s c .up none) (i : ℕ) :
    Staged (s.handleClose i c) c ∧ (s.handleClose i c).aborted = s.aborted := by
  obtain ⟨hlive, hindex⟩ := h.fits.live (.inl rfl)
  let p : Peer :=
    { s.peers c with conn := { (s.peers c).conn with isWriting := false, closed := true }, isReading := false }
  -- the close callback is called, and the connection is still to be removed
  have hclosing : At ((s.setPeer c p.updateChannel).event (.closeCallback c)) c .closing none := by
    refine ⟨?_, fun hle => (nomatch h.fresh hle), h.listed.trans (by simp [Stage.Listed]), h.todo, ?_, ?_⟩
    · show Stage.Fits .closing (Function.update s.peers c _ c)
      rw [Function.update_self]
      exact ⟨rfl, by simp, fun _ => ⟨hlive, index_updateChannel _⟩⟩
    · have hhistory : s.history c = [] := h.tells
      refine (history_event (s.setPeer c p.updateChannel) (e := .closeCallback c) rfl).trans ?_
      exact congrArg (· ++ [TeardownEvent.closeCallback c]) hhistory
    · exact fun _ _ _ => ⟨nofun, nofun⟩
  have hclose : s.handleClose i c = (s.setPeer c p.updateChannel).removeConnection i c := by
    unfold TcpServer.handleClose Connection.handleClose
    dsimp only
    rw [if_pos hlive]
  rw [hclose]
  unfold TcpServer.removeConnection
  dsimp only
  split
  · exact staged_erased hclosing
  · exact ⟨⟨.closing, 0, hclosing.await 0 rfl⟩, rfl⟩

theorem staged_destroyed (h : At s c .removed none) :
    Staged (s.connectDestroyed c) c ∧ (s.connectDestroyed c).aborted = s.aborted := by
  obtain ⟨hlive, -⟩ := h.fits.live (.inr (.inr rfl))
  let p : Peer := { s.peers c with
    conn := { (s.peers c).conn with state := .kDisconnected, isWriting := false }, isReading := false }
  have hremove : p.updateChannel.removeChannel = some { p.updateChannel with index := .kNew } :=
    if_pos ⟨rfl, index_updateChannel p⟩
  have hdestroy : s.connectDestroyed c = (s.event (.connectDestroyed c (s.peers c).conn.state)).setPeer c
      { p.updateChannel with index := .kNew } := by
    unfold TcpServer.connectDestroyed Connection.connectDestroyed
    dsimp only
    rw [if_pos hlive]
    dsimp only
    rw [hremove]
  rw [hdestroy]
  refine ⟨⟨.destroyed, 0, ?_, fun hle => (nomatch h.fresh hle), h.listed.trans (by simp [Stage.Listed]), h.todo,
    ?_, ?_⟩, rfl⟩
  · show Stage.Fits .destroyed (Function.update s.peers c _ c)
    rw [Function.update_self]
    exact ⟨rfl, by simp, by simp⟩
  · have hhistory : s.history c = [.closeCallback c, .erased c 1] := h.tells
    refine ⟨(s.peers c).conn.state, hlive, ?_⟩
    refine (history_event s (e := .connectDestroyed c (s.peers c).conn.state) rfl).trans ?_
    exact congrArg (· ++ [TeardownEvent.connectDestroyed c (s.peers c).conn.state]) hhistory
  · exact fun _ _ _ => ⟨nofun, nofun⟩

end Stages

/-! ## Every step -/

/-- The connection on which the step enters `handleClose`. -/
def closes (s : TcpServer) : Action → Option ℕ
  | .callback i read _ => match (s.loops i).phase with
    | .handling ((c, .close) :: _) => some c
    | .handling ((c, .read) :: _) => if read = .endOfFile then some c else none
    | _ => none
  | .functor i _ => match (s.loops i).phase with
    | .calling (.forceCloseInLoop c :: _) =>
      let state := (s.peers c).conn.state
      if state = .kConnected ∨ state = .kDisconnecting then some c else none
    | _ => none
  | _ => none

/-- What a step must not do: enter `handleClose` when the channel does not want to read any more. -/
def Clean (s : TcpServer) (a : Action) : Prop := ∀ c, s.closes a = some c → (s.peers c).isReading = true

structure Inv (s : TcpServer) : Prop where
  running : s.aborted = false
  staged : ∀ c, Staged s c

section Steps

variable {s : TcpServer} {c : ℕ}

theorem stage_of_isReading (hs : Staged s c) (hreading : (s.peers c).isReading = true) : At s c .up none := by
  obtain ⟨stage, loop, hstage⟩ := hs
  have hup : stage = .up := by simpa [hreading] using hstage.fits.isReading
  subst hup
  exact hstage

theorem inv_handleClose (h : Inv s) {d : ℕ} (hd : (s.peers d).isReading = true) (i : ℕ) : Inv (s.handleClose i d) := by
  obtain ⟨hstaged, haborted⟩ := staged_closed (stage_of_isReading (h.staged d) hd) i
  refine ⟨haborted.trans h.running, fun c => ?_⟩
  by_cases hc : d = c
  · exact hc ▸ hstaged
  · obtain ⟨stage, loop, hstage⟩ := h.staged c
    exact ⟨stage, loop, hstage.handleClose hc i⟩

/-- What keeps every stage keeps the invariant. -/
theorem Inv.of_at (h : Inv s) {t : TcpServer} (hrunning : t.aborted = s.aborted)
    (hat : ∀ c stage w, At s c stage w → At t c stage w) : Inv t := by
  refine ⟨hrunning.trans h.running, fun c => ?_⟩
  obtain ⟨stage, loop, hstage⟩ := h.staged c
  exact ⟨stage, loop, hat c stage _ hstage⟩

theorem aborted_completing (s : TcpServer) (c : ℕ) (done : Connection × Bool) :
    (s.completing c done).aborted = s.aborted := by
  unfold TcpServer.completing
  dsimp only
  split <;> rfl

theorem Inv.completing (h : Inv s) {d : ℕ} {done : Connection × Bool}
    (hstate : done.1.state = (s.peers d).conn.state) : Inv (s.completing d done) :=
  h.of_at (aborted_completing s d done) fun _ _ _ hat => hat.completing hstate

/-- A callback of a channel. -/
theorem Inv.callback (h : Inv s) {i d : ℕ} {read : ReadResult} {result : WriteResult} {b : Callback}
    (hclean : b = .close ∨ (b = .read ∧ read = .endOfFile) → (s.peers d).isReading = true) :
    Inv (s.callback i d read result b) := by
  cases b with
  | close => exact inv_handleClose h (hclean (.inl rfl)) i
  | error => exact h
  | read =>
    simp only [TcpServer.callback]
    split
    · exact inv_handleClose h (hclean (.inr ⟨rfl, ‹_›⟩)) i
    · exact h
  | write => exact h.completing (Connection.state_handleWrite _)

theorem queue_of_calling {loop : ServerLoop} {functors : List Functor} (h : loop.phase = .calling functors) :
    loop.queue = functors ++ loop.pendingFunctors := by
  rw [ServerLoop.queue, h]

theorem todo_setPhase (s : TcpServer) (c i j : ℕ) (phase : LoopPhase) : (s.setPhase i phase).todo c j =
    if j = i then (ServerLoop.mk phase (s.loops i).pendingFunctors).queue.filter fun f => f.moves? = some c
    else s.todo c j := by
  simp only [TcpServer.todo, setPhase, Function.update_apply]
  split <;> rfl

section Pop

variable {stage : Stage} {w : Option (ℕ × Functor)} {i : ℕ} {f : Functor} {functors : List Functor}

theorem todo_of_calling (hphase : (s.loops i).phase = .calling (f :: functors)) : s.todo c i =
    (if f.moves? = some c then [f] else []) ++ (s.setPhase i (.calling functors)).todo c i := by
  rw [todo_setPhase, if_pos rfl, TcpServer.todo, queue_of_calling hphase, queue_of_calling rfl, List.cons_append,
    List.filter_cons]
  by_cases hf : f.moves? = some c <;> simp [hf]

/-- The loop takes a functor that does not move the connection on. -/
theorem At.pop (h : At s c stage w) (hphase : (s.loops i).phase = .calling (f :: functors))
    (hf : f.moves? ≠ some c) : At (s.setPhase i (.calling functors)) c stage w := by
  refine h.congr h.fits rfl .rfl (fun j => ?_) rfl h.calls
  by_cases hj : j = i
  · rw [hj, todo_of_calling hphase, if_neg hf, List.nil_append]
  · rw [todo_setPhase, if_neg hj]

/-- The functor that moves the connection on is the one that it awaits, and there is no other. -/
theorem At.take (h : At s c stage w) (hphase : (s.loops i).phase = .calling (f :: functors))
    (hf : f.moves? = some c) : w = some (i, f) ∧ At (s.setPhase i (.calling functors)) c stage none := by
  have htodo := h.todo i
  rw [todo_of_calling hphase, if_pos hf] at htodo
  obtain ⟨rfl, hrest⟩ : w = some (i, f) ∧ (s.setPhase i (.calling functors)).todo c i = [] := by
    cases w with
    | none => cases htodo
    | some p =>
      obtain ⟨j, g⟩ := p
      by_cases hj : i = j
      · rw [awaited, if_pos hj, List.singleton_append] at htodo
        obtain ⟨rfl, hnil⟩ := List.cons.inj htodo
        exact ⟨by rw [hj], hnil⟩
      · rw [awaited, if_neg hj] at htodo
        cases htodo
  refine ⟨rfl, h.fits, h.fresh, h.listed, fun j => ?_, h.tells, h.calls⟩
  by_cases hj : j = i
  · rw [hj, hrest]
    rfl
  · rw [todo_setPhase, if_neg hj, h.todo, awaited, if_neg hj]
    rfl

end Pop

/-- A functor is called. -/
theorem Inv.call (h : Inv s) {i : ℕ} {f : Functor} {functors : List Functor} {result : WriteResult}
    (hphase : (s.loops i).phase = .calling (f :: functors)) (hclean : Clean s (.functor i result)) :
    Inv ((s.setPhase i (.calling functors)).call i result f) := by
  -- the functor moves no connection on
  have hpop : f.moves? = none → Inv (s.setPhase i (.calling functors)) := fun hf =>
    h.of_at rfl fun c _ _ hat => hat.pop hphase (by rw [hf]; nofun)
  -- the functor moves one on, and leaves the others where they are
  have hmove : ∀ (op : TcpServer → ℕ → TcpServer) (d : ℕ), f.moves? = some d →
      (∀ stage w, stage.awaits d w = some (i, f) → At (s.setPhase i (.calling functors)) d stage none →
        Staged (op (s.setPhase i (.calling functors)) d) d ∧
          (op (s.setPhase i (.calling functors)) d).aborted = s.aborted) →
      (∀ c stage w, d ≠ c → At (s.setPhase i (.calling functors)) c stage w →
        At (op (s.setPhase i (.calling functors)) d) c stage w) →
      Inv (op (s.setPhase i (.calling functors)) d) := by
    intro op d hf hown hother
    obtain ⟨stage, loop, hat⟩ := h.staged d
    obtain ⟨hawaits, htaken⟩ := hat.take hphase hf
    obtain ⟨hstaged, haborted⟩ := hown stage loop hawaits htaken
    refine ⟨haborted.trans h.running, fun c => ?_⟩
    by_cases hc : d = c
    · exact hc ▸ hstaged
    · obtain ⟨stage', loop', hat'⟩ := h.staged c
      exact ⟨stage', loop', hother c _ _ hc (hat'.pop hphase (by rw [hf]; exact fun heq => hc (Option.some.inj heq)))⟩
  cases f with
  | connectEstablished d =>
    refine hmove TcpServer.connectEstablished d rfl (fun stage w hawaits hat => ?_) fun _ _ _ hc hat =>
      hat.connectEstablished hc
    cases stage with
    | connecting => exact staged_established hat
    | _ => cases hawaits
  | connectDestroyed d =>
    refine hmove TcpServer.connectDestroyed d rfl (fun stage w hawaits hat => ?_) fun _ _ _ hc hat =>
      hat.connectDestroyed hc
    cases stage with
    | removed => exact staged_destroyed hat
    | _ => cases hawaits
  | removeConnectionInLoop d =>
    refine hmove TcpServer.removeConnectionInLoop d rfl (fun stage w hawaits hat => ?_) fun _ _ _ hc hat =>
      hat.removeConnectionInLoop hc
    cases stage with
    | closing => exact staged_erased hat
    | _ => cases hawaits
  | forceCloseInLoop d =>
    simp only [TcpServer.call, TcpServer.forceCloseInLoop]
    split
    case isTrue hlive =>
      refine inv_handleClose (hpop rfl) (hclean d ?_) i
      rw [closes, hphase]
      exact if_pos hlive
    case isFalse => exact hpop rfl
  | sendInLoop d message => exact (hpop rfl).completing (Connection.state_sendInLoop _ _)
  | shutdownInLoop d => exact hpop rfl
  | writeComplete d => exact hpop rfl

/-- A connection is accepted. -/
theorem Inv.newConnection (h : Inv s) : Inv s.newConnection := by
  obtain ⟨ioLoop, next, hnext⟩ : ∃ ioLoop next, s.getNextLoop = (ioLoop, { s with next }) := by
    unfold getNextLoop
    split
    · exact ⟨0, s.next, rfl⟩
    · exact ⟨_, _, rfl⟩
  -- the connection is there, and is still to be established
  let s₁ : TcpServer :=
    { s with next, nextConnId := s.nextConnId + 1, connections := insert s.nextConnId s.connections }
  let s₂ := s₁.setPeer s.nextConnId (.new ioLoop s.writeCompleteCallback)
  have hnew : At s₂ s.nextConnId .connecting none := by
    obtain ⟨stage, loop, hat⟩ := h.staged s.nextConnId
    have hfresh : stage = .fresh := hat.fresh le_rfl
    subst hfresh
    refine ⟨?_, ?_, ?_, hat.todo, hat.tells, fun call hcall hc => absurd rfl (hat.calls call hcall hc).1⟩
    · show Stage.Fits .connecting (Function.update s.peers s.nextConnId _ s.nextConnId)
      rw [Function.update_self]
      exact ⟨rfl, fun _ => rfl, by simp⟩
    · exact fun hle => absurd hle (Nat.not_succ_le_self _)
    · exact iff_of_true (Finset.mem_insert_self _ _) (.inl rfl)
  have hother : ∀ c, s.nextConnId ≠ c → Staged s₂ c := by
    intro c hc
    obtain ⟨stage, loop, hat⟩ := h.staged c
    have hfits : stage.Fits (s₂.peers c) := by
      show stage.Fits (Function.update s.peers s.nextConnId _ c)
      rw [Function.update_of_ne hc.symm]
      exact hat.fits
    refine ⟨stage, loop, hfits, ?_, ?_, hat.todo, hat.tells, hat.calls⟩
    · exact fun hle => hat.fresh (Nat.le_of_succ_le hle)
    · rw [← hat.listed]
      show c ∈ insert s.nextConnId s.connections ↔ _
      rw [Finset.mem_insert, or_iff_right hc.symm]
  unfold TcpServer.newConnection
  rw [hnext]
  dsimp only
  split
  case isTrue =>
    obtain ⟨hstaged, haborted⟩ := staged_established hnew
    refine ⟨haborted.trans h.running, fun c => ?_⟩
    by_cases hc : s.nextConnId = c
    · exact hc ▸ hstaged
    · obtain ⟨stage, loop, hat⟩ := hother c hc
      exact ⟨stage, loop, hat.connectEstablished hc⟩
  case isFalse =>
    refine ⟨h.running, fun c => ?_⟩
    by_cases hc : s.nextConnId = c
    · exact hc ▸ ⟨.connecting, ioLoop, hnew.await ioLoop rfl⟩
    · obtain ⟨stage, loop, hat⟩ := hother c hc
      exact ⟨stage, loop, hat.queueInLoop ioLoop fun heq => hc (Option.some.inj heq)⟩

/-- The calls in progress are others, about connections that are up. -/
theorem At.withCalls {stage : Stage} {w : Option (ℕ × Functor)} (h : At s c stage w) {calls : List PendingCall}
    (hcalls : ∀ call ∈ calls, call.conn = c → stage ≠ .fresh ∧ stage ≠ .connecting) :
    At { s with calls } c stage w :=
  h.congr h.fits rfl .rfl (fun _ => rfl) rfl hcalls

/-- A thread has found the connection in a state in which it was up. -/
theorem Inv.spawn (h : Inv s) {call : PendingCall}
    (hlive : (s.peers call.conn).conn.state = .kConnected ∨ (s.peers call.conn).conn.state = .kDisconnecting) :
    Inv { s with calls := s.calls ++ [call] } := by
  refine h.of_at rfl fun c stage w hat => hat.withCalls fun call' hcall' hc => ?_
  rcases List.mem_append.1 hcall' with hcall' | hcall'
  · exact hat.calls call' hcall' hc
  · obtain rfl := List.mem_singleton.1 hcall'
    have hnot : ¬ (stage = .fresh ∨ stage = .connecting) := by
      intro hstage
      rw [hc, hat.fits.connecting hstage] at hlive
      simp at hlive
    exact not_or.1 hnot

/-- The thread queues its functor. -/
theorem Inv.queue (h : Inv s) (i k : ℕ) {f : Functor} (hf : f.moves? = none) :
    Inv { s.queueInLoop i f with calls := s.calls.eraseIdx k } := by
  refine h.of_at rfl fun c stage w hat => ?_
  exact (hat.queueInLoop i (by rw [hf]; nofun)).withCalls fun call hcall =>
    hat.calls call (List.mem_of_mem_eraseIdx hcall)

/-- The thread sets the state. -/
theorem Inv.set (h : Inv s) {k : ℕ} {call call' : PendingCall} (hk : s.calls[k]? = some call)
    (hsame : call'.conn = call.conn) :
    Inv { s.setPeer call.conn ((s.peers call.conn).setState .kDisconnecting) with calls := s.calls.set k call' } := by
  refine h.of_at rfl fun c stage w hat => ?_
  have hup : call.conn = c → stage ≠ .fresh ∧ stage ≠ .connecting := hat.calls call (List.mem_of_getElem? hk)
  refine (hat.setPeer fun hc => ?_).withCalls fun call'' hcall'' hc => ?_
  · subst hc
    exact fits_setState hat.fits (hup rfl)
  · rcases List.mem_or_eq_of_mem_set hcall'' with hmem | rfl
    · exact hat.calls call'' hmem hc
    · exact hup (hsame ▸ hc)

theorem Inv.proceed (h : Inv s) {k : ℕ} {call : PendingCall} (hk : s.calls[k]? = some call) :
    Inv (s.proceed k call) := by
  cases call with
  | forceClose c set =>
    cases set with
    | false => exact h.set hk rfl
    | true => exact h.queue _ k rfl
  | shutdown c set =>
    cases set with
    | false => exact h.set hk rfl
    | true => exact h.queue _ k rfl
  | send c message => exact h.queue _ k rfl

/-- A loop goes to a phase in which it has the same functors to run. -/
theorem Inv.setPhase (h : Inv s) {i : ℕ} {phase : LoopPhase}
    (hqueue : (ServerLoop.mk phase (s.loops i).pendingFunctors).queue = (s.loops i).queue) :
    Inv (s.setPhase i phase) :=
  h.of_at rfl fun c _ _ hat => hat.setPhase (by rw [hqueue]; rfl)

theorem queue_of_handling {loop : ServerLoop} {callbacks : List (ℕ × Callback)} (h : loop.phase = .handling callbacks) :
    loop.queue = loop.pendingFunctors := by
  rw [ServerLoop.queue, h, List.nil_append]

/-- **What every clean step keeps.** -/
theorem inv_step {t : TcpServer} {a : Action} (hclean : Clean s a) (hst : s.step a = some t) (h : Inv s) : Inv t := by
  have hrunning : ¬ (s.aborted = true) := by simp [h.running]
  unfold step at hst
  rw [if_neg hrunning] at hst
  cases a with
  | newConnection =>
    dsimp only at hst
    split at hst
    · exact Option.some.inj hst ▸ h.newConnection
    · cases hst
  | poll i activeChannels =>
    dsimp only at hst
    split at hst
    case h_1 hphase =>
      obtain ⟨-, heq⟩ := Option.ite_none_right_eq_some.1 hst
      obtain rfl := Option.some.inj heq
      exact h.setPhase (by rw [queue_of_handling rfl, ServerLoop.queue, hphase, List.nil_append])
    case h_2 => cases hst
  | callback i read result =>
    dsimp only at hst
    split at hst
    case h_1 c b callbacks hphase =>
      obtain rfl := Option.some.inj hst
      have hpop : Inv (s.setPhase i (.handling callbacks)) :=
        h.setPhase (by rw [queue_of_handling rfl, queue_of_handling hphase])
      refine hpop.callback fun hclose => hclean c ?_
      rw [closes, hphase]
      rcases hclose with rfl | ⟨rfl, rfl⟩
      · rfl
      · rfl
    case h_2 => cases hst
  | swap i =>
    dsimp only at hst
    split at hst
    case h_1 hphase =>
      obtain rfl := Option.some.inj hst
      refine h.of_at rfl fun c stage w hat => hat.congr hat.fits rfl .rfl (fun j => ?_) rfl hat.calls
      simp only [TcpServer.todo, Function.update_apply]
      split
      case isTrue hj => rw [hj, queue_of_handling hphase, queue_of_calling rfl, List.append_nil]
      case isFalse => rfl
    case h_2 => cases hst
  | functor i result =>
    dsimp only at hst
    split at hst
    case h_1 f functors hphase =>
      obtain rfl := Option.some.inj hst
      exact h.call hphase hclean
    case h_2 => cases hst
  | done i =>
    dsimp only at hst
    split at hst
    case h_1 hphase =>
      obtain rfl := Option.some.inj hst
      exact h.setPhase (by rw [queue_of_calling hphase]; rfl)
    case h_2 => cases hst
  | forceClose c =>
    obtain ⟨⟨-, hlive⟩, heq⟩ := Option.ite_none_right_eq_some.1 hst
    exact Option.some.inj heq ▸ h.spawn hlive
  | shutdown c =>
    obtain ⟨⟨-, hconnected⟩, heq⟩ := Option.ite_none_right_eq_some.1 hst
    exact Option.some.inj heq ▸ h.spawn (.inl hconnected)
  | send c message =>
    obtain ⟨⟨-, hconnected⟩, heq⟩ := Option.ite_none_right_eq_some.1 hst
    exact Option.some.inj heq ▸ h.spawn (.inl hconnected)
  | sendInLoop c message result =>
    dsimp only at hst
    split at hst
    case h_1 => cases hst
    case h_2 =>
      obtain ⟨-, heq⟩ := Option.ite_none_right_eq_some.1 hst
      exact Option.some.inj heq ▸ h.completing (Connection.state_sendInLoop _ _)
  | proceed k =>
    obtain ⟨call, hk, rfl⟩ := Option.map_eq_some_iff.1 hst
    exact h.proceed hk

end Steps

/-! ## Every run -/

/-- The connection is torn down at most once: its close callback is called, its entry is erased, and it is destroyed
in a state in which it was connected, in this order and as far as it has come. -/
def TornDownOnce (s : TcpServer) (c : ℕ) : Prop := ∃ state, (state = .kConnected ∨ state = .kDisconnecting) ∧
  s.history c <+: [.closeCallback c, .erased c 1, .connectDestroyed c state]

theorem inv_new (numThreads : ℕ) (writeCompleteCallback : Bool) : Inv (new numThreads writeCompleteCallback) := by
  refine ⟨rfl, fun c => ⟨.fresh, 0, ⟨rfl, fun _ => rfl, by simp⟩, fun _ => rfl, ?_, fun _ => rfl, rfl, nofun⟩⟩
  exact iff_of_false (Finset.notMem_empty c) (by simp [Stage.Listed])

theorem tornDownOnce_of_staged {s : TcpServer} {c : ℕ} (h : Staged s c) : TornDownOnce s c := by
  obtain ⟨stage, loop, hat⟩ := h
  have htells := hat.tells
  cases stage with
  | fresh | connecting | up => exact ⟨.kConnected, .inl rfl, by rw [htells]; exact List.nil_prefix⟩
  | closing => exact ⟨.kConnected, .inl rfl, by rw [htells]; exact ⟨_, rfl⟩⟩
  | removed => exact ⟨.kConnected, .inl rfl, by rw [htells]; exact ⟨_, rfl⟩⟩
  | destroyed =>
    obtain ⟨state, hstate, htold⟩ := htells
    exact ⟨state, hstate, by rw [htold]⟩

/-- **Every connection is torn down at most once, and no assertion fails**, in every run whose steps are clean, with
any number of loops and of threads that call `forceClose`, `shutdown` and `send`. -/
theorem tornDownOnce_of_run {numThreads : ℕ} {writeCompleteCallback : Bool} {l : List Action} {s : TcpServer}
    (h : machine.Run Clean (new numThreads writeCompleteCallback) l s) :
    s.aborted = false ∧ ∀ c, TornDownOnce s c := by
  have hinv : Inv s := h.invariant (fun _ _ _ hclean hst hs => inv_step hclean hst hs) (inv_new _ _)
  exact ⟨hinv.running, fun c => tornDownOnce_of_staged (hinv.staged c)⟩

/-- A connection in the loop 1 is accepted and established, and its peer closes it. -/
def peerCloses : List Action :=
  [.poll 0 [], .newConnection, .swap 0, .done 0, .poll 1 [], .swap 1, .functor 1 .error, .done 1,
    .poll 1 [(1, ⟨true, false, false, false, false⟩)], .callback 1 .endOfFile .error]

/-- It is removed and destroyed. -/
def isRemoved : List Action :=
  [.poll 0 [], .swap 0, .functor 0 .error, .swap 1, .functor 1 .error]

theorem clean_of_none {s : TcpServer} {a : Action} (h : s.closes a = none) : Clean s a := by
  intro c hc
  rw [h] at hc
  cases hc

theorem clean_of_some {s : TcpServer} {a : Action} {c : ℕ} (h : s.closes a = some c)
    (hreading : (s.peers c).isReading = true) : Clean s a := by
  intro d hd
  obtain rfl := Option.some.inj (h.symm.trans hd)
  exact hreading

theorem tornDownOnce_of_run_peerCloses : ∃ s, machine.Run Clean (new 1 false) (peerCloses ++ isRemoved) s ∧
    s.history 1 = [.closeCallback 1, .erased 1 1, .connectDestroyed 1 .kConnected] ∧ TornDownOnce s 1 := by
  obtain ⟨s, hrun, hhistory⟩ : ∃ s, machine.Run Clean (new 1 false) (peerCloses ++ isRemoved) s ∧
      s.history 1 = [.closeCallback 1, .erased 1 1, .connectDestroyed 1 .kConnected] := by
    refine ⟨_, .cons (clean_of_none rfl) rfl <| .cons (clean_of_none rfl) rfl <| .cons (clean_of_none rfl) rfl <|
      .cons (clean_of_none rfl) rfl <| .cons (clean_of_none rfl) rfl <| .cons (clean_of_none rfl) rfl <|
      .cons (clean_of_none rfl) rfl <| .cons (clean_of_none rfl) rfl <| .cons (clean_of_none rfl) rfl <|
      .cons (clean_of_some rfl rfl) rfl <| .cons (clean_of_none rfl) rfl <| .cons (clean_of_none rfl) rfl <|
      .cons (clean_of_none rfl) rfl <| .cons (clean_of_none rfl) rfl <| .cons (clean_of_none rfl) rfl <| .nil _, ?_⟩
    rfl
  exact ⟨s, hrun, hhistory, (tornDownOnce_of_run hrun).2 1⟩

/-- While it is still to be removed, the heartbeat closes it too. -/
def heartbeatCloses : List Action :=
  [.forceClose 1, .proceed 0, .proceed 0, .swap 1, .functor 1 .error, .poll 0 [], .swap 0, .functor 0 .error,
    .functor 0 .error]

/-- The close callback is called twice, and the second time there is nothing to erase. -/
theorem torn_down_twice : ∃ s, machine.exec (new 1 false) (peerCloses ++ heartbeatCloses) = some s ∧
    s.history 1 = [.closeCallback 1, .closeCallback 1, .erased 1 1, .erased 1 0] ∧ s.aborted = true ∧
    ¬ TornDownOnce s 1 := by
  have hnot : ∀ s : TcpServer, s.history 1 = [.closeCallback 1, .closeCallback 1, .erased 1 1, .erased 1 0] →
      ¬ TornDownOnce s 1 := by
    rintro s hs ⟨state, -, hprefix⟩
    rw [hs] at hprefix
    obtain ⟨-, h⟩ := List.cons_prefix_cons.1 hprefix
    cases (List.cons_prefix_cons.1 h).1
  exact ⟨_, rfl, rfl, rfl, hnot _ rfl⟩

end TcpServer

end Chatroom.Net
