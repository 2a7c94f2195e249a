import Chatroom.Net.Connector

/-!
# A `Connector` attempts one socket at a time

The connector's `Stage` says where the next `startInLoop` comes from, or which socket the attempt under way is made
with. `connect` may be called only when no `startInLoop` is still to come: `stop` takes none of them back, as the
cancellation of the retry timer finds no timer. Where every call waits for that (`Careful`), each step leads from stage
to stage, and only the socket of the attempt is open.
-/

namespace Chatroom.Net.Connector

open Lib

variable {ι : Type*}

inductive Stage (ι : Type*) where
  | idle
  /-- the thread is about to call `startInLoop` or to queue it -/
  | starting (thread : Option ι)
  /-- `startInLoop` is queued -/
  | queued
  /-- the retry timer with the number is pending -/
  | timer (q : ℤ)
  | attempt (sockfd : ℕ)
  | connected

namespace Stage

def state : Stage ι → States
  | attempt _ => .kConnecting
  | connected => .kConnected
  | _ => .kDisconnected

def sockfd? : Stage ι → Option ℕ
  | attempt sockfd => some sockfd
  | _ => none

end Stage

structure At (s : Connector ι) (stage : Stage ι) : Prop where
  timers : s.timers.Inv
  numbered : ∀ q ∈ s.retries, q ≤ s.timers.numCreated
  oneShot : ∀ p, (s.timers.heap p).isSome → (s.timers.timer p).sequence ∈ s.retries →
    (s.timers.timer p).repeats = false
  starting : ∀ thread, s.inside thread = .starting → stage = .starting thread
  queued : .startInLoop ∈ s.loop.queued → stage = .queued
  pending : ∀ q ∈ s.retries, s.timers.IsPending q → stage = .timer q
  behind : s.loop.queued.Pairwise fun cb later => cb = .startInLoop → later ≠ .startInLoop ∧ later ≠ .resetChannel
  ready : stage = .starting none → .resetChannel ∉ s.loop.queued
  attempt : ∀ sockfd, stage = .attempt sockfd → s.m_Channel = some ⟨sockfd, true⟩ ∧ .resetChannel ∉ s.loop.queued
  removed : stage.sockfd? = none →
    ∀ channel ∈ s.m_Channel, channel.registered = false ∧ .resetChannel ∈ s.loop.queued

structure Sockets (s : Connector ι) (sockfd? : Option ℕ) : Prop where
  isOpen : ∀ i, s.IsOpen i ↔ sockfd? = some i
  created : ∀ i, i ∈ s.closed ∨ i ∈ s.handed → i < s.sockets
  notBoth : ∀ i ∈ s.closed, i ∉ s.handed

structure Valid (s : Connector ι) (stage : Stage ι) : Prop extends At s stage where
  asserted : s.asserted = true
  state : s.m_state = stage.state
  sockets : Sockets s stage.sockfd?

def Inv (s : Connector ι) : Prop := ∃ stage, Valid s stage

section Frame

variable {s t : Connector ι} {stage : Stage ι}

theorem assert_eq {b : Prop} [Decidable b] (h : b) : s.assert b = s := by
  simp [assert, h]

theorem At.congr (h : At s stage) (htimers : t.timers = s.timers) (hretries : t.retries = s.retries)
    (hinside : t.inside = s.inside) (hqueued : t.loop.queued = s.loop.queued) (hchannel : t.m_Channel = s.m_Channel) :
    At t stage := by
  constructor
  all_goals simp only [htimers, hretries, hinside, hqueued, hchannel]
  exacts [h.timers, h.numbered, h.oneShot, h.starting, h.queued, h.pending, h.behind, h.ready, h.attempt, h.removed]

theorem Valid.congr (h : Valid s stage) (hat : At t stage) (hasserted : t.asserted = s.asserted)
    (hstate : t.m_state = s.m_state) (hsockets : t.sockets = s.sockets) (hclosed : t.closed = s.closed)
    (hhanded : t.handed = s.handed) : Valid t stage := by
  refine ⟨hat, hasserted.trans h.asserted, hstate.trans h.state, ⟨fun i => ?_, ?_, ?_⟩⟩
  · rw [IsOpen, hsockets, hclosed, hhanded]
    exact h.sockets.isOpen i
  · rw [hsockets, hclosed, hhanded]
    exact h.sockets.created
  · rw [hclosed, hhanded]
    exact h.sockets.notBoth

/-- No `startInLoop` is to come, and no attempt is under way. -/
theorem At.idle (h : At s stage) (hsockfd : stage.sockfd? = none) (hstarting : ∀ thread, s.inside thread ≠ .starting)
    (hqueued : .startInLoop ∉ s.loop.queued) (hpending : ∀ q ∈ s.retries, ¬s.timers.IsPending q) : At s .idle where
  timers := h.timers
  numbered := h.numbered
  oneShot := h.oneShot
  starting thread hthread := absurd hthread (hstarting thread)
  queued hmem := absurd hmem hqueued
  pending q hq hpends := absurd hpends (hpending q hq)
  behind := h.behind
  ready := nofun
  attempt := nofun
  removed _ := h.removed hsockfd

theorem At.of_idle (h : At s .idle) (hsockfd : stage.sockfd? = none) (hready : stage ≠ .starting none) : At s stage where
  timers := h.timers
  numbered := h.numbered
  oneShot := h.oneShot
  starting thread hthread := nomatch h.starting thread hthread
  queued hmem := nomatch h.queued hmem
  pending q hq hpends := nomatch h.pending q hq hpends
  behind := h.behind
  ready heq := absurd heq hready
  attempt sockfd heq := by
    rw [heq] at hsockfd
    cases hsockfd
  removed _ := h.removed rfl

/-- The next timer has a number of its own. -/
theorem At.next_notMem (h : At s stage) : s.timers.numCreated + 1 ∉ s.retries := by
  intro hmem
  have hle := h.numbered _ hmem
  omega

/-- A step of the timers that calls no callback of the connector. -/
theorem At.timersStep (h : At s stage) {a : TimerQueue.Action} {timers : TimerQueue}
    (hstep : s.timers.step a = some timers) : At { s with timers } stage where
  timers := TimerQueue.inv_step (fun _ _ => True) s.timers a timers trivial hstep h.timers
  numbered q hq := (h.numbered q hq).trans (TimerQueue.numCreated_le_of_step h.timers hstep)
  oneShot p hp hmem := by
    rcases TimerQueue.timer_of_step h.timers hstep hp with ⟨hlive, hseq, hrepeats⟩ | ⟨when, interval, -, htimer⟩
    · exact hrepeats.trans (h.oneShot p hlive (hseq ▸ hmem))
    · rw [htimer] at hmem
      exact absurd hmem h.next_notMem
  starting := h.starting
  queued := h.queued
  pending q hq hpends := by
    rcases hpends.of_step h.timers hstep with hpends | ⟨-, rfl⟩
    · exact h.pending q hq hpends
    · exact absurd hq h.next_notMem
  behind := h.behind
  ready := h.ready
  attempt := h.attempt
  removed := h.removed

/-! ## The loop -/

/-- Only the functors that are queued matter. -/
theorem At.loop (h : At s stage) {loop : EventLoop ι Functor} (hqueued : loop.queued = s.loop.queued) :
    At { s with loop } stage :=
  h.congr rfl rfl rfl hqueued rfl

/-- A functor is taken to be run. -/
theorem At.pop (h : At s stage) {cb : Functor} {loop : EventLoop ι Functor} (hqueued : s.loop.queued = cb :: loop.queued)
    (hcb : cb ≠ .resetChannel) : At { s with loop } stage := by
  have hmem : ∀ cb', cb' ∈ loop.queued → cb' ∈ s.loop.queued := by
    intro cb' hcb'
    rw [hqueued]
    exact List.mem_cons_of_mem cb hcb'
  have hbehind := h.behind
  rw [hqueued] at hbehind
  refine ⟨h.timers, h.numbered, h.oneShot, h.starting, fun hstart => h.queued (hmem _ hstart), h.pending,
    (List.pairwise_cons.1 hbehind).2, fun hstage hreset => h.ready hstage (hmem _ hreset), fun sockfd hstage => ?_,
    fun hstage channel hchannel => ?_⟩
  · exact ⟨(h.attempt sockfd hstage).1, fun hreset => (h.attempt sockfd hstage).2 (hmem _ hreset)⟩
  · obtain ⟨hremoved, hreset⟩ := h.removed hstage channel hchannel
    rw [hqueued, List.mem_cons] at hreset
    exact ⟨hremoved, hreset.resolve_left (Ne.symm hcb)⟩

/-- `resetChannel` is run. -/
theorem At.reset (h : At s stage) {loop : EventLoop ι Functor} (hqueued : s.loop.queued = .resetChannel :: loop.queued) :
    At ({ s with loop }.resetChannel) stage := by
  have hmem : ∀ cb', cb' ∈ loop.queued → cb' ∈ s.loop.queued := by
    intro cb' hcb'
    rw [hqueued]
    exact List.mem_cons_of_mem _ hcb'
  have hreset : .resetChannel ∈ s.loop.queued := hqueued ▸ List.mem_cons_self
  have hbehind := h.behind
  rw [hqueued] at hbehind
  exact ⟨h.timers, h.numbered, h.oneShot, h.starting, fun hstart => h.queued (hmem _ hstart), h.pending,
    (List.pairwise_cons.1 hbehind).2, fun hstage => absurd hreset (h.ready hstage),
    fun sockfd hstage => absurd hreset (h.attempt sockfd hstage).2, nofun⟩

variable [DecidableEq ι]

theorem mem_queue {thread : Option ι} {cb cb' : Functor} (h : cb' ∈ (s.queue thread cb).loop.queued) :
    cb' ∈ s.loop.queued ∨ cb' = cb := by
  rw [queue, EventLoop.queued_queueInLoop, List.mem_append, List.mem_singleton] at h
  exact h

theorem mem_queue_of_mem {thread : Option ι} {cb cb' : Functor} (h : cb' ∈ s.loop.queued) :
    cb' ∈ (s.queue thread cb).loop.queued := by
  rw [queue, EventLoop.queued_queueInLoop]
  exact List.mem_append_left _ h

theorem behind_queue {thread : Option ι} {cb : Functor}
    (h : s.loop.queued.Pairwise fun cb later => cb = .startInLoop → later ≠ .startInLoop ∧ later ≠ .resetChannel)
    (hcb : .startInLoop ∈ s.loop.queued → cb ≠ .startInLoop ∧ cb ≠ .resetChannel) :
    (s.queue thread cb).loop.queued.Pairwise
      fun cb later => cb = .startInLoop → later ≠ .startInLoop ∧ later ≠ .resetChannel := by
  rw [queue, EventLoop.queued_queueInLoop, List.pairwise_append]
  refine ⟨h, List.pairwise_singleton .., fun first hfirst later hlater heq => ?_⟩
  rw [List.mem_singleton.1 hlater]
  exact hcb (heq ▸ hfirst)

/-- Another functor is queued. -/
theorem At.push (h : At s stage) (thread : Option ι) {cb : Functor} (hstart : cb ≠ .startInLoop)
    (hreset : cb ≠ .resetChannel) : At (s.queue thread cb) stage where
  timers := h.timers
  numbered := h.numbered
  oneShot := h.oneShot
  starting := h.starting
  queued hmem := h.queued ((mem_queue hmem).resolve_right (Ne.symm hstart))
  pending := h.pending
  behind := behind_queue h.behind fun _ => ⟨hstart, hreset⟩
  ready hstage hmem := h.ready hstage ((mem_queue hmem).resolve_right (Ne.symm hreset))
  attempt sockfd hstage :=
    ⟨(h.attempt sockfd hstage).1, fun hmem =>
      (h.attempt sockfd hstage).2 ((mem_queue hmem).resolve_right (Ne.symm hreset))⟩
  removed hstage channel hchannel := (h.removed hstage channel hchannel).imp_right mem_queue_of_mem

@[simp] theorem inside_enter (s : Connector ι) (thread : Option ι) (inside : Inside) :
    (s.enter thread inside).inside thread = inside := Function.update_self ..

theorem starting_enter {thread th : Option ι} {inside : Inside} (hne : inside ≠ .starting)
    (h : (s.enter thread inside).inside th = .starting) : th ≠ thread ∧ s.inside th = .starting := by
  by_cases heq : th = thread
  · subst heq
    rw [inside_enter] at h
    exact absurd h hne
  · exact ⟨heq, (Function.update_of_ne heq ..).symm.trans h⟩

theorem At.enter (h : At s stage) (thread : Option ι) {inside : Inside} (hne : inside ≠ .starting) :
    At (s.enter thread inside) stage :=
  ⟨h.timers, h.numbered, h.oneShot, fun th hth => h.starting th (starting_enter hne hth).2, h.queued,
    h.pending, h.behind, h.ready, h.attempt, h.removed⟩

end Frame

/-! ## What the connector does -/

section Calls

variable {s t : Connector ι} {o : Outcome} {sockfd : ℕ}

theorem Sockets.close (h : Sockets s (some sockfd)) : Sockets (s.close sockfd) none := by
  obtain ⟨hlt, hclosed, hhanded⟩ := (h.isOpen sockfd).2 rfl
  refine ⟨fun i => ⟨?_, nofun⟩, ?_, ?_⟩
  · rintro ⟨hi, hi', hi''⟩
    obtain rfl := Option.some.inj ((h.isOpen i).1 ⟨hi, fun hmem => hi' (List.mem_cons_of_mem _ hmem), hi''⟩)
    exact absurd List.mem_cons_self hi'
  · rintro i (hi | hi)
    · exact (List.mem_cons.1 hi).elim (fun heq => heq ▸ hlt) fun hi => h.created i (.inl hi)
    · exact h.created i (.inr hi)
  · rintro i hi
    exact (List.mem_cons.1 hi).elim (fun heq => heq ▸ hhanded) (h.notBoth i)

theorem Sockets.hand (h : Sockets s (some sockfd)) : Sockets { s with handed := sockfd :: s.handed } none := by
  obtain ⟨hlt, hclosed, hhanded⟩ := (h.isOpen sockfd).2 rfl
  refine ⟨fun i => ⟨?_, nofun⟩, ?_, ?_⟩
  · rintro ⟨hi, hi', hi''⟩
    obtain rfl := Option.some.inj ((h.isOpen i).1 ⟨hi, hi', fun hmem => hi'' (List.mem_cons_of_mem _ hmem)⟩)
    exact absurd List.mem_cons_self hi''
  · rintro i (hi | hi)
    · exact h.created i (.inl hi)
    · exact (List.mem_cons.1 hi).elim (fun heq => heq ▸ hlt) fun hi => h.created i (.inr hi)
  · intro i hi hmem
    rcases List.mem_cons.1 hmem with rfl | hmem
    · exact hclosed hi
    · exact h.notBoth i hi hmem

/-- The next socket is created. -/
theorem Sockets.create (h : Sockets s none) : Sockets { s with sockets := s.sockets + 1 } (some s.sockets) := by
  have hfresh : s.sockets ∉ s.closed ∧ s.sockets ∉ s.handed :=
    ⟨fun hmem => lt_irrefl _ (h.created _ (.inl hmem)), fun hmem => lt_irrefl _ (h.created _ (.inr hmem))⟩
  refine ⟨fun i => ⟨?_, ?_⟩, fun i hi => Nat.lt_succ_of_lt (h.created i hi), h.notBoth⟩
  · rintro ⟨hi, hi', hi''⟩
    rcases Nat.lt_succ_iff_lt_or_eq.1 hi with hlt | rfl
    · exact nomatch (h.isOpen i).1 ⟨hlt, hi', hi''⟩
    · rfl
  · rintro heq
    obtain rfl := Option.some.inj heq
    exact ⟨Nat.lt_succ_self _, hfresh⟩

/-- The timer is the one source of the next `startInLoop`. -/
theorem At.runAfter (h : At s .idle) {delayMs : ℕ} (hrun : s.runAfter delayMs o = some t) :
    At t (.timer (s.timers.numCreated + 1)) ∧ t.m_state = s.m_state ∧ t.asserted = s.asserted ∧ t.sockets = s.sockets ∧
      t.closed = s.closed ∧ t.handed = s.handed := by
  obtain ⟨timers, hnew, hrun⟩ := Option.bind_eq_some_iff.1 hrun
  obtain ⟨timers', hadd, rfl⟩ := Option.map_eq_some_iff.1 hrun
  refine ⟨?_, rfl, rfl, rfl, rfl, rfl⟩
  have htimers : At { s with timers } .idle := h.timersStep hnew
  have hcreated : timers.numCreated = s.timers.numCreated + 1 := by
    obtain ⟨-, heq⟩ := Option.ite_none_right_eq_some.1 hnew
    exact (Option.some.inj heq) ▸ rfl
  have hretries : At { s with timers, retries := (s.timers.numCreated + 1) :: s.retries }
      (.timer (s.timers.numCreated + 1)) := by
    constructor
    case starting => exact fun thread hthread => nomatch h.starting thread hthread
    case queued => exact fun hmem => nomatch h.queued hmem
    case ready => exact nofun
    case attempt => exact nofun
    case timers => exact htimers.timers
    case behind => exact h.behind
    case removed => exact fun _ => h.removed rfl
    case numbered =>
      intro q hq
      rcases List.mem_cons.1 hq with rfl | hq
      · exact hcreated.ge
      · exact htimers.numbered q hq
    case pending =>
      intro q hq hpends
      rcases List.mem_cons.1 hq with rfl | hq
      · rfl
      · exact nomatch htimers.pending q hq hpends
    case oneShot =>
      intro p hp hmem
      rcases TimerQueue.timer_of_step h.timers hnew hp with ⟨hlive, hseq, hrepeats⟩ | ⟨when, interval, heq, htimer⟩
      · have hle := TimerQueue.sequence_le h.timers hlive
        refine hrepeats.trans (h.oneShot p hlive (hseq ▸ (List.mem_cons.1 hmem).resolve_left fun heq => ?_))
        have heq : (timers.timer p).sequence = s.timers.numCreated + 1 := heq
        omega
      · cases heq
        rw [htimer]
        rfl
  exact (hretries.timersStep hadd).congr rfl rfl rfl rfl rfl

theorem Valid.inv {stage : Stage ι} (h : Valid s stage) : Inv s := ⟨stage, h⟩

/-- The socket is closed, and if the connector is to go on, the retry timer is set. -/
theorem inv_retry (hat : At s .idle) (hasserted : s.asserted = true) (hsockets : Sockets s (some sockfd))
    (hretry : s.retry sockfd o = some t) : Inv t ∧ t.m_state = .kDisconnected := by
  have hclosed : At { s.close sockfd with m_state := .kDisconnected } .idle := hat.congr rfl rfl rfl rfl rfl
  have hsockets' := hsockets.close
  unfold retry at hretry
  dsimp only at hretry
  split at hretry
  case isTrue =>
    obtain ⟨u, hrun, rfl⟩ := Option.map_eq_some_iff.1 hretry
    obtain ⟨hat', hstate, hasserted', hcreated, hclosed', hhanded⟩ := hclosed.runAfter hrun
    refine ⟨⟨_, hat'.congr rfl rfl rfl rfl rfl, hasserted'.trans hasserted, hstate, ?_⟩, hstate⟩
    refine ⟨fun i => ?_, fun i => ?_, fun i => ?_⟩
    · show (i < u.sockets ∧ i ∉ u.closed ∧ i ∉ u.handed) ↔ _
      rw [hcreated, hclosed', hhanded]
      exact hsockets'.isOpen i
    · show i ∈ u.closed ∨ i ∈ u.handed → i < u.sockets
      rw [hcreated, hclosed', hhanded]
      exact hsockets'.created i
    · show i ∈ u.closed → i ∉ u.handed
      rw [hclosed', hhanded]
      exact hsockets'.notBoth i
  case isFalse =>
    obtain rfl := Option.some.inj hretry
    exact ⟨⟨.idle, hclosed, hasserted, rfl, hsockets'.isOpen, hsockets'.created, hsockets'.notBoth⟩, rfl⟩

theorem inv_connecting (hat : At s .idle) (hasserted : s.asserted = true) (hsockets : Sockets s (some sockfd))
    (hready : .resetChannel ∉ s.loop.queued) : Inv (s.connecting sockfd) := by
  have hempty : s.m_Channel = none := by
    by_contra hne
    obtain ⟨channel, hchannel⟩ := Option.ne_none_iff_exists'.1 hne
    exact hready (hat.removed rfl channel hchannel).2
  refine ⟨.attempt sockfd, ⟨?_, ?_, rfl, hsockets.isOpen, hsockets.created, hsockets.notBoth⟩⟩
  · constructor
    case starting => exact fun thread hthread => nomatch hat.starting thread hthread
    case queued => exact fun hmem => nomatch hat.queued hmem
    case pending => exact fun q hq hpends => nomatch hat.pending q hq hpends
    case timers => exact hat.timers
    case numbered => exact hat.numbered
    case oneShot => exact hat.oneShot
    case behind => exact hat.behind
    case ready => exact nofun
    case removed => exact nofun
    case attempt =>
      intro i heq
      obtain rfl := Stage.attempt.inj heq
      exact ⟨rfl, hready⟩
  · show (s.asserted && decide (s.m_Channel = none)) = true
    simp [hasserted, hempty]

/-- `startInLoop` finds no other source of it left. -/
theorem Valid.startInLoop (h : Valid s .idle)
    (hready : s.m_connect = true → Begins o.errno → .resetChannel ∉ s.loop.queued)
    (hstart : s.startInLoop o = some t) : Inv t := by
  unfold Connector.startInLoop at hstart
  rw [assert_eq (show s.m_state = .kDisconnected from h.state)] at hstart
  dsimp only at hstart
  split at hstart
  case isFalse =>
    obtain rfl := Option.some.inj hstart
    exact h.inv
  case isTrue hconnect =>
    have hat : At { s with sockets := s.sockets + 1 } .idle := h.toAt.congr rfl rfl rfl rfl rfl
    have hsockets : Sockets { s with sockets := s.sockets + 1 } (some s.sockets) := h.sockets.create
    unfold Connector.connect at hstart
    dsimp only at hstart
    split at hstart
    case isTrue hbegins =>
      obtain rfl := Option.some.inj hstart
      exact inv_connecting hat h.asserted hsockets (hready hconnect hbegins)
    case isFalse =>
      split at hstart
      case isTrue => exact (inv_retry hat h.asserted hsockets hstart).1
      case isFalse =>
        obtain rfl := Option.some.inj hstart
        exact ⟨.idle, hat.congr rfl rfl rfl rfl rfl, h.asserted, h.state, hsockets.close⟩

variable [DecidableEq ι]

/-- The attempt is over, and its socket is still open. -/
theorem Valid.remove (h : Valid s (.attempt sockfd)) : s.removeAndResetChannel.1 = sockfd ∧
    At s.removeAndResetChannel.2 .idle ∧ s.removeAndResetChannel.2.asserted = true ∧
      Sockets s.removeAndResetChannel.2 (some sockfd) := by
  obtain ⟨hchannel, hreset⟩ := h.attempt sockfd rfl
  have heq : s.removeAndResetChannel =
      (sockfd, { s with m_Channel := some ⟨sockfd, false⟩ }.queue none .resetChannel) := by
    unfold removeAndResetChannel
    rw [assert_eq (by rw [hchannel]; rfl)]
    dsimp only
    rw [hchannel]
    rfl
  rw [heq]
  refine ⟨rfl, ?_, h.asserted, h.sockets.isOpen, h.sockets.created, h.sockets.notBoth⟩
  have hqueued : .startInLoop ∉ s.loop.queued := fun hmem => nomatch h.queued hmem
  constructor
  case starting => exact fun thread hthread => nomatch h.starting thread hthread
  case queued => exact fun hmem => absurd ((mem_queue hmem).resolve_right nofun) hqueued
  case pending => exact fun q hq hpends => nomatch h.pending q hq hpends
  case timers => exact h.timers
  case numbered => exact h.numbered
  case oneShot => exact h.oneShot
  case behind => exact behind_queue h.behind fun hmem => absurd hmem hqueued
  case ready => exact nofun
  case attempt => exact nofun
  case removed =>
    intro _ channel hchannel
    obtain rfl := Option.some.inj hchannel
    refine ⟨rfl, ?_⟩
    rw [queue, EventLoop.queued_queueInLoop]
    exact List.mem_append_right _ List.mem_cons_self

theorem Valid.handleError (h : Valid s (.attempt sockfd)) (herror : s.handleError o = some t) :
    Inv t ∧ t.m_state = .kDisconnected := by
  unfold Connector.handleError at herror
  rw [assert_eq (show s.m_state = .kConnecting from h.state)] at herror
  obtain ⟨hsockfd, hat, hasserted, hsockets⟩ := h.remove
  rw [← hsockfd] at hsockets
  exact inv_retry hat hasserted hsockets herror

theorem Valid.handleWrite (h : Valid s (.attempt sockfd)) (hwrite : s.handleWrite o = some t) : Inv t := by
  unfold Connector.handleWrite at hwrite
  rw [if_pos (show s.m_state = .kConnecting from h.state)] at hwrite
  obtain ⟨hsockfd, hat, hasserted, hsockets⟩ := h.remove
  rw [← hsockfd] at hsockets
  dsimp only at hwrite
  split at hwrite
  case isTrue => exact (inv_retry hat hasserted hsockets hwrite).1
  case isFalse =>
    split at hwrite
    case isTrue => exact (inv_retry hat hasserted hsockets hwrite).1
    case isFalse =>
      have hconnected : At s.removeAndResetChannel.2 .connected := hat.of_idle rfl nofun
      split at hwrite
      case isTrue =>
        obtain rfl := Option.some.inj hwrite
        have hhanded := hsockets.hand
        exact ⟨.connected, hconnected.congr rfl rfl rfl rfl rfl, hasserted, rfl, hhanded.isOpen, hhanded.created,
          hhanded.notBoth⟩
      case isFalse =>
        obtain rfl := Option.some.inj hwrite
        have hclosed := hsockets.close
        exact ⟨.connected, hconnected.congr rfl rfl rfl rfl rfl, hasserted, rfl, hclosed.isOpen, hclosed.created,
          hclosed.notBoth⟩

/-- After an error, the write callback finds the connector disconnected. -/
theorem Valid.handleEvent (h : Valid s (.attempt sockfd)) {error write : Bool}
    (hevent : s.handleEvent error write o = some t) : Inv t := by
  unfold Connector.handleEvent at hevent
  obtain ⟨u, hu, hevent⟩ := Option.bind_eq_some_iff.1 hevent
  split at hu
  case isTrue =>
    obtain ⟨hinv, hstate⟩ := h.handleError hu
    split at hevent
    case isTrue =>
      unfold Connector.handleWrite at hevent
      rw [if_neg (by rw [hstate]; decide), assert_eq hstate] at hevent
      exact Option.some.inj hevent ▸ hinv
    case isFalse => exact Option.some.inj hevent ▸ hinv
  case isFalse =>
    obtain rfl := Option.some.inj hu
    split at hevent
    case isTrue => exact h.handleWrite hevent
    case isFalse => exact Option.some.inj hevent ▸ h.inv

omit [DecidableEq ι] in
theorem Valid.cancelInLoop {stage : Stage ι} (h : Valid s stage) {id : TimerId} (hcancel : s.cancelInLoop id = some t) :
    Inv t := by
  obtain ⟨timers, hstep, rfl⟩ := Option.map_eq_some_iff.1 hcancel
  exact (h.congr (h.toAt.timersStep hstep) rfl rfl rfl rfl rfl).inv

end Calls

/-! ## What a step keeps -/

section Steps

variable [DecidableEq ι] {s t : Connector ι} {stage : Stage ι}

theorem Valid.connect (h : Valid s stage) {thread : Option ι} (hcan : s.CanStart thread) :
    Inv ({ s with m_connect := true }.enter thread .starting) := by
  obtain ⟨hstate, hqueued, hstarting, hpending, hready⟩ := hcan
  have hsockfd : stage.sockfd? = none := by
    have hstage := h.state
    cases stage with
    | attempt sockfd => exact nomatch hstate.symm.trans hstage
    | _ => rfl
  have hat := h.toAt.idle hsockfd hstarting hqueued hpending
  have hsockets := h.sockets
  rw [hsockfd] at hsockets
  refine ⟨.starting thread, ⟨?_, h.asserted, hstate, hsockets.isOpen, hsockets.created, hsockets.notBoth⟩⟩
  constructor
  case starting =>
    intro th hth
    by_cases heq : th = thread
    · rw [heq]
    · exact absurd ((Function.update_of_ne heq ..).symm.trans hth) (hstarting th)
  case queued => exact fun hmem => absurd hmem hqueued
  case pending => exact fun q hq hpends => absurd hpends (hpending q hq)
  case timers => exact hat.timers
  case numbered => exact hat.numbered
  case oneShot => exact hat.oneShot
  case behind => exact hat.behind
  case ready => exact fun heq => hready (Stage.starting.inj heq)
  case attempt => exact nofun
  case removed => exact fun _ => hat.removed rfl

/-- The thread goes on to what it was about to do. -/
theorem Valid.begin (h : Valid s stage) {thread : Option ι} (hstarting : s.inside thread = .starting) :
    stage = .starting thread ∧ Valid (s.enter thread .idle) .idle := by
  obtain rfl := h.starting thread hstarting
  refine ⟨rfl, ?_⟩
  have hat : At (s.enter thread .idle) .idle := by
    refine (h.toAt.enter thread (by decide)).idle rfl (fun th hth => ?_) (fun hmem => nomatch h.queued hmem)
      fun q hq hpends => nomatch h.pending q hq hpends
    obtain ⟨hne, hth⟩ := starting_enter (by decide) hth
    exact hne (Stage.starting.inj (h.starting th hth)).symm
  exact ⟨hat, h.asserted, h.state, h.sockets.isOpen, h.sockets.created, h.sockets.notBoth⟩

/-- `startInLoop` is queued, behind any `resetChannel`. -/
theorem Valid.queueStart (h : Valid s .idle) (thread : Option ι) : Valid (s.queue thread .startInLoop) .queued := by
  refine ⟨?_, h.asserted, h.state, h.sockets.isOpen, h.sockets.created, h.sockets.notBoth⟩
  constructor
  case starting => exact fun thread hthread => nomatch h.starting thread hthread
  case queued => exact fun _ => rfl
  case pending => exact fun q hq hpends => nomatch h.pending q hq hpends
  case timers => exact h.timers
  case numbered => exact h.numbered
  case oneShot => exact h.oneShot
  case behind => exact behind_queue h.behind fun hmem => nomatch h.queued hmem
  case ready => exact nofun
  case attempt => exact nofun
  case removed => exact fun _ channel hchannel => (h.removed rfl channel hchannel).imp_right mem_queue_of_mem

theorem Valid.enter (h : Valid s stage) (thread : Option ι) {inside : Inside} (hne : inside ≠ .starting) :
    Valid (s.enter thread inside) stage :=
  h.congr (h.toAt.enter thread hne) rfl rfl rfl rfl rfl

theorem Valid.push (h : Valid s stage) (thread : Option ι) {cb : Functor} (hstart : cb ≠ .startInLoop)
    (hreset : cb ≠ .resetChannel) : Valid (s.queue thread cb) stage :=
  h.congr (h.toAt.push thread hstart hreset) rfl rfl rfl rfl rfl

theorem Valid.runInLoop (h : Valid s stage) {thread : Option ι} {o : Outcome}
    (hrun : s.runInLoop thread o = some t) : Inv t := by
  have hidle : Inside.idle ≠ .starting := by decide
  unfold Connector.runInLoop at hrun
  split at hrun
  case h_1 hstarting =>
    obtain ⟨rfl, hbegun⟩ := h.begin hstarting
    exact hbegun.startInLoop (fun _ _ => h.ready rfl) hrun
  case h_2 i hstarting =>
    obtain rfl := Option.some.inj hrun
    exact ((h.begin hstarting).2.queueStart _).inv
  case h_3 => exact (h.enter none hidle).cancelInLoop hrun
  case h_4 i _ =>
    obtain rfl := Option.some.inj hrun
    exact ((h.enter (some i) hidle).push _ (by nofun) (by nofun)).inv
  case h_5 => cases hrun

theorem Valid.functor (h : Valid s stage) {o : Outcome} (hstep : s.step (.functor o) = some t) : Inv t := by
  obtain ⟨-, hstep⟩ := Option.ite_none_right_eq_some.1 hstep
  obtain ⟨cb, hcb, hstep⟩ := Option.bind_eq_some_iff.1 hstep
  obtain ⟨loop, hloop, hcall⟩ := Option.bind_eq_some_iff.1 hstep
  have hqueued := EventLoop.queued_of_functor hloop hcb
  cases cb with
  | startInLoop =>
    obtain rfl := h.queued (hqueued ▸ List.mem_cons_self)
    have hbehind := h.behind
    rw [hqueued] at hbehind
    have hlater := fun later hlater => (List.pairwise_cons.1 hbehind).1 later hlater rfl
    have hidle : At { s with loop } .idle := by
      refine (h.toAt.pop hqueued (by simp)).idle rfl (fun th hth => ?_) (fun hmem => ?_) fun q hq hpends => ?_
      · cases h.starting th hth
      · exact (hlater _ hmem).1 rfl
      · cases h.pending q hq hpends
    have hvalid : Valid { s with loop } .idle :=
      ⟨hidle, h.asserted, h.state, h.sockets.isOpen, h.sockets.created, h.sockets.notBoth⟩
    exact hvalid.startInLoop (fun _ _ hmem => (hlater _ hmem).2 rfl) hcall
  | resetChannel =>
    obtain rfl := Option.some.inj hcall
    exact (h.congr (h.toAt.reset hqueued) rfl rfl rfl rfl rfl).inv
  | cancelInLoop id =>
    have hvalid : Valid { s with loop } stage := h.congr (h.toAt.pop hqueued (by simp)) rfl rfl rfl rfl rfl
    exact hvalid.cancelInLoop hcall
  | other =>
    obtain rfl := Option.some.inj hcall
    exact (h.congr (h.toAt.pop hqueued (by simp)) rfl rfl rfl rfl rfl).inv

/-- A callback of the timers is called; of the connector's timers, it is the one that is pending. -/
theorem Valid.run (h : Valid s stage) {o : Outcome} (hcan : s.CanRetry o) (hstep : s.step (.run o) = some t) :
    Inv t := by
  obtain ⟨-, hstep⟩ := Option.ite_none_right_eq_some.1 hstep
  obtain ⟨q, hq, hstep⟩ := Option.bind_eq_some_iff.1 hstep
  obtain ⟨timers, htimers, hcall⟩ := Option.bind_eq_some_iff.1 hstep
  have hat : At { s with timers } stage := h.toAt.timersStep htimers
  split at hcall
  case isFalse =>
    obtain rfl := Option.some.inj hcall
    exact (h.congr hat rfl rfl rfl rfl rfl).inv
  case isTrue hmem =>
    obtain ⟨now, expired, e, rest, hhandling, rfl⟩ : ∃ now expired e rest,
        s.timers.handling = some ⟨now, expired, e :: rest⟩ ∧ q = (s.timers.timer (ofLex e).2).sequence := by
      unfold next? at hq
      split at hq
      case h_1 now expired e rest hhandling => exact ⟨now, expired, e, rest, hhandling, (Option.some.inj hq).symm⟩
      case h_2 => cases hq
    have hlive := TimerQueue.isSome_of_handling h.timers hhandling
    obtain ⟨hpends, hdone⟩ :=
      TimerQueue.isPending_of_run h.timers hhandling (h.oneShot _ hlive hmem) htimers
    obtain rfl := h.pending _ hmem hpends
    have hidle : At { s with timers } .idle := by
      refine hat.idle rfl (fun th hth => nomatch h.starting th hth) (fun hmem => nomatch h.queued hmem)
        fun q hq hpends' => hdone ?_
      obtain rfl := Stage.timer.inj (hat.pending q hq hpends')
      exact hpends'
    have hvalid : Valid { s with timers } .idle :=
      ⟨hidle, h.asserted, h.state, h.sockets.isOpen, h.sockets.created, h.sockets.notBoth⟩
    exact hvalid.startInLoop (hcan (by rw [hq]; simpa using hmem)) hcall

/-- A step of the loop that calls no functor. -/
theorem Valid.loop (h : Valid s stage) {a : EventLoop.Action ι Functor} (hevents : s.loop.events a = [])
    {loop : EventLoop ι Functor} (hstep : s.loop.step a = some loop) : Inv { s with loop } := by
  exact (h.congr (h.toAt.loop (EventLoop.queued_of_quiet hstep hevents)) rfl rfl rfl rfl rfl).inv

theorem Inv.step (h : Inv s) {a : Action ι} (hcareful : s.Careful a) (hstep : s.step a = some t) : Inv t := by
  obtain ⟨stage, h⟩ := h
  cases a with
  | connect thread =>
    obtain ⟨-, heq⟩ := Option.ite_none_right_eq_some.1 hstep
    obtain rfl := Option.some.inj heq
    exact h.connect hcareful
  | stop thread =>
    obtain ⟨-, heq⟩ := Option.ite_none_right_eq_some.1 hstep
    obtain rfl := Option.some.inj heq
    have hcleared : Valid { s with m_connect := false } stage :=
      h.congr (h.toAt.congr rfl rfl rfl rfl rfl) rfl rfl rfl rfl rfl
    exact (hcleared.enter thread (by decide)).inv
  | runInLoop thread o => exact h.runInLoop hstep
  | queueOther thread =>
    obtain ⟨-, heq⟩ := Option.ite_none_right_eq_some.1 hstep
    obtain rfl := Option.some.inj heq
    exact (h.push thread (by nofun) (by nofun)).inv
  | quit thread =>
    obtain ⟨-, hmap⟩ := Option.ite_none_right_eq_some.1 hstep
    obtain ⟨loop, hloop, rfl⟩ := Option.map_eq_some_iff.1 hmap
    exact h.loop rfl hloop
  | wakeup thread =>
    obtain ⟨loop, hloop, rfl⟩ := Option.map_eq_some_iff.1 hstep
    exact h.loop rfl hloop
  | functor o => exact h.functor hstep
  | loop a =>
    obtain ⟨⟨-, -, hne⟩, hmap⟩ := Option.ite_none_right_eq_some.1 hstep
    obtain ⟨loop, hloop, rfl⟩ := Option.map_eq_some_iff.1 hmap
    refine h.loop ?_ hloop
    cases a with
    | functor => exact absurd rfl hne
    | _ => rfl
  | handleEvent error write o =>
    obtain ⟨⟨-, -, hregistered⟩, hevent⟩ := Option.ite_none_right_eq_some.1 hstep
    obtain ⟨channel, hchannel, hregistered⟩ := (Option.any_eq_true _ _).1 hregistered
    obtain ⟨sockfd, rfl⟩ : ∃ sockfd, stage = .attempt sockfd := by
      cases stage with
      | attempt sockfd => exact ⟨sockfd, rfl⟩
      | _ => exact absurd ((h.removed rfl channel hchannel).1.symm.trans hregistered) nofun
    exact h.handleEvent hevent
  | run o => exact h.run hcareful hstep
  | timers a =>
    obtain ⟨-, hmap⟩ := Option.ite_none_right_eq_some.1 hstep
    obtain ⟨timers, htimers, rfl⟩ := Option.map_eq_some_iff.1 hmap
    exact (h.congr (h.toAt.timersStep htimers) rfl rfl rfl rfl rfl).inv

omit [DecidableEq ι] in
theorem inv_new : Inv (new : Connector ι) := by
  refine ⟨.idle, ⟨?_, rfl, rfl, fun i => ⟨fun hi => absurd hi.1 (Nat.not_lt_zero i), nofun⟩, by simp [new], nofun⟩⟩
  exact {
    timers := TimerQueue.inv_init
    numbered := nofun
    oneShot := fun p hp => absurd hp (by simp [new, TimerQueue.init])
    starting := fun thread hthread => absurd hthread (by simp [new])
    queued := fun hmem => absurd hmem (List.not_mem_nil)
    pending := nofun
    behind := .nil
    ready := nofun
    attempt := nofun
    removed := nofun }

omit [DecidableEq ι] in
theorem Inv.sound (h : Inv s) : Sound s := by
  obtain ⟨stage, h⟩ := h
  refine ⟨h.asserted, fun i j hi hj => ?_, h.sockets.notBoth⟩
  exact Option.some.inj (((h.sockets.isOpen i).1 hi).symm.trans ((h.sockets.isOpen j).1 hj))

/-- **One socket at a time**: in a run in which `connect` is called only when no `startInLoop` is still to come
(`Careful`), no assertion fails, at most one socket is open, and none is both closed and handed over. -/
theorem sound_of_run {l : List (Action ι)} (h : machine.Run Careful new l s) : Sound s :=
  Inv.sound (h.invariant (fun _ _ _ hcareful hstep hinv => hinv.step hcareful hstep) inv_new)

end Steps

section Samples

/-- The step is no `connect`, and a retry begins no attempt too early. -/
def Retrying (s : Connector (Fin 1)) : Action (Fin 1) → Prop
  | .connect _ => False
  | .run o => s.CanRetry o
  | _ => True

instance (s : Connector (Fin 1)) (a : Action (Fin 1)) : Decidable (Retrying s a) :=
  match a with
  | .connect _ => .isFalse id
  | .run o => inferInstanceAs (Decidable (s.next?.any (· ∈ s.retries) → s.m_connect = true → Begins o.errno →
      .resetChannel ∉ s.loop.queued))
  | .stop _ | .runInLoop .. | .queueOther _ | .quit _ | .wakeup _ | .functor _ | .loop _ | .handleEvent .. |
    .timers _ => .isTrue trivial

/-- What the system returns when `connect(2)` gives the `errno`, at the time `now`. -/
def outcome (errno : Errno) (timer : Address) (now : Timestamp) : Outcome := ⟨errno, 0, false, timer, now, now⟩

/-- The loop's thread is in the handler of another channel. -/
def busy : Connector (Fin 1) :=
  { (new : Connector (Fin 1)) with loop := { (EventLoop.new : EventLoop (Fin 1) Functor) with phase := .handler [] } }

/-- It has called `connect`, which has set `m_connect`. -/
def begun : Connector (Fin 1) := { busy with m_connect := true }.enter none .starting

/-- The first attempt is refused, the second one fails, and the third one succeeds. -/
def thirdAttempt : List (Action (Fin 1)) :=
  [.runInLoop none (outcome .ECONNREFUSED 8 0), .loop .returns, .loop .doPendingFunctors, .loop .swap, .loop .done,
    .loop .test, .loop (.poll [false]), .loop .handleEvent, .timers (.handleRead 500000),
    .run (outcome .EINPROGRESS 8 500000), .timers (.reset 500000), .handleEvent true true (outcome 0 16 600000),
    .loop .returns, .loop .doPendingFunctors, .loop .swap, .functor (outcome 0 8 600000), .loop .returns, .loop .done,
    .loop .test, .loop (.poll [false]), .loop .handleEvent, .timers (.handleRead 1600000),
    .run (outcome 0 8 1600000), .timers (.reset 1600000), .handleEvent false true (outcome 0 8 1600000)]

theorem sound_of_run_thirdAttempt :
    ∃ s, machine.Run Careful new
        ([.loop .test, .loop (.poll [false]), .loop .handleEvent, .connect none] ++ thirdAttempt) s ∧
      Sound s ∧ s.closed = [1, 0] ∧ s.handed = [2] := by
  have hcan : busy.CanStart none := by
    refine ⟨rfl, by decide, fun th hth => ?_, fun q hq => ?_, fun _ => by decide⟩
    · cases hth
    · cases hq
  have hbegun : machine.Run Careful new [.loop .test, .loop (.poll [false]), .loop .handleEvent, .connect none] begun :=
    .cons trivial rfl (.cons trivial rfl (.cons trivial rfl (.cons hcan rfl (.nil _))))
  obtain ⟨s, hs, hsockets⟩ := (Option.any_eq_true (fun s : Connector (Fin 1) => decide (s.closed = [1, 0] ∧
    s.handed = [2])) (machine.execIf Retrying begun thirdAttempt)).1 (by decide +kernel)
  have hrun := hbegun.append ((Machine.run_of_execIf hs).mono fun s a ha => by
    cases a with
    | connect => exact ha.elim
    | run o => exact ha
    | _ => trivial)
  exact ⟨s, hrun, sound_of_run hrun, of_decide_eq_true hsockets⟩

/-- `stop` and `connect` while an attempt is under way. -/
theorem not_sound_of_restart :
    ∃ s : Connector (Fin 1), machine.Run (fun _ _ => True) new
        [.loop .test, .loop (.poll [false]), .loop .handleEvent, .connect none,
          .runInLoop none (outcome .EINPROGRESS 8 0), .stop none, .runInLoop none (outcome 0 8 0), .connect none,
          .runInLoop none (outcome .EINPROGRESS 8 0)] s ∧
      ¬Sound s ∧ s.IsOpen 0 ∧ s.IsOpen 1 := by
  obtain ⟨s, hs, hfailed⟩ := (Option.any_eq_true (fun s : Connector (Fin 1) => decide (s.asserted = false ∧
    s.sockets = 2 ∧ s.closed = [] ∧ s.handed = [])) (machine.exec new
      [.loop .test, .loop (.poll [false]), .loop .handleEvent, .connect none,
        .runInLoop none (outcome .EINPROGRESS 8 0), .stop none, .runInLoop none (outcome 0 8 0), .connect none,
        .runInLoop none (outcome .EINPROGRESS 8 0)])).1 (by decide +kernel)
  obtain ⟨hasserted, hsockets, hclosed, hhanded⟩ := of_decide_eq_true hfailed
  refine ⟨s, Machine.run_of_exec hs, fun hsound => ?_, ?_, ?_⟩
  · exact Bool.false_ne_true (hasserted.symm.trans hsound.asserted)
  · simp [IsOpen, hsockets, hclosed, hhanded]
  · simp [IsOpen, hsockets, hclosed, hhanded]

end Samples

end Chatroom.Net.Connector
