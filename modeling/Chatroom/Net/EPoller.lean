import Mathlib.Data.Fintype.Basic
import Mathlib.Logic.Function.Basic
import Chatroom.Lib.Machine
import Chatroom.Net.TcpServer

/-!
# `EPoller`

The channels of a loop, `m_channels` of its `EPoller`, and the set that the kernel keeps for `m_epollfd`. Every call of
`epoll_ctl` is logged with whether its descriptor was in the set. A function that fails an assertion has no result. The
map, the set and the indices of the channels move together (`bookkeeping_of_run`).
-/

namespace Chatroom.Net

open Lib

/-! ## `Channel` -/

/-- A `Channel`, as far as its poller sees it. -/
structure Channel (κ : Type*) where
  fd : ℕ
  /-- `m_events` -/
  events : BitVec 32
  /-- `m_index` -/
  index : κ

namespace Channel

def kNoneEvent : BitVec 32 := 0

/-- `POLLIN | POLLPRI` -/
def kReadEvent : BitVec 32 := 0x001 ||| 0x002

/-- `POLLOUT` -/
def kWriteEvent : BitVec 32 := 0x004

def isNoneEvent {κ : Type*} (channel : Channel κ) : Bool := channel.events = kNoneEvent

end Channel

/-- The functions of a `Channel` that call `update`, and `update` itself. -/
inductive Interest where
  | enableReading
  | enableWriting
  | disableWriting
  | disableAll
  | update

/-- What becomes of `m_events`. -/
def Interest.apply (events : BitVec 32) : Interest → BitVec 32
  | enableReading => events ||| Channel.kReadEvent
  | enableWriting => events ||| Channel.kWriteEvent
  | disableWriting => events &&& ~~~Channel.kWriteEvent
  | disableAll => Channel.kNoneEvent
  | update => events

/-- What a poller is asked to do. `χ` are the channels. -/
inductive PollerCall (χ : Type*) where
  | updateChannel (c : χ) (interest : Interest)
  | removeChannel (c : χ)

/-! ## `epoll_ctl` -/

inductive EpollOp where
  | EPOLL_CTL_ADD
  | EPOLL_CTL_MOD
  | EPOLL_CTL_DEL
  deriving DecidableEq

/-- `struct epoll_event` -/
structure EpollEvent (χ : Type*) where
  events : BitVec 32
  ptr : χ

/-- A call of `epoll_ctl`. -/
structure EpollCtl where
  op : EpollOp
  fd : ℕ
  /-- the descriptor was in the set -/
  present : Bool

/-- No descriptor is added that is there, and none is changed or deleted that is not. -/
def EpollCtl.Valid (ctl : EpollCtl) : Prop := ctl.present = true ↔ ctl.op ≠ .EPOLL_CTL_ADD

/-- What the kernel makes of the set: `EEXIST` and `ENOENT` leave it as it is. -/
def epollCtl {χ : Type*} (set : ℕ → Option (EpollEvent χ)) (op : EpollOp) (fd : ℕ) (event : EpollEvent χ) :
    ℕ → Option (EpollEvent χ) :=
  match op, set fd with
  | .EPOLL_CTL_ADD, none | .EPOLL_CTL_MOD, some _ => Function.update set fd (some event)
  | .EPOLL_CTL_DEL, some _ => Function.update set fd none
  | _, _ => set

/-! ## The poller -/

structure EPoller (χ : Type*) where
  channel : χ → Channel Index
  /-- `m_channels` -/
  channels : ℕ → Option χ
  /-- what `m_epollfd` refers to -/
  epoll : ℕ → Option (EpollEvent χ)
  /-- the calls of `epoll_ctl` -/
  log : List EpollCtl

namespace EPoller

variable {χ : Type*}

/-- The channels are new, each with its descriptor. -/
def new (fd : χ → ℕ) : EPoller χ := ⟨fun c => ⟨fd c, Channel.kNoneEvent, .kNew⟩, fun _ => none, fun _ => none, []⟩

variable [DecidableEq χ] (s : EPoller χ) (c : χ)

def setIndex (index : Index) : EPoller χ :=
  { s with channel := Function.update s.channel c { s.channel c with index } }

def setEvents (events : BitVec 32) : EPoller χ :=
  { s with channel := Function.update s.channel c { s.channel c with events } }

omit [DecidableEq χ] in
/-- `update`, whose failures are only logged. -/
def update (op : EpollOp) : EPoller χ :=
  let fd := (s.channel c).fd
  { s with
    epoll := epollCtl s.epoll op fd ⟨(s.channel c).events, c⟩
    log := s.log ++ [⟨op, fd, (s.epoll fd).isSome⟩] }

def updateChannel : Option (EPoller χ) :=
  let fd := (s.channel c).fd
  match (s.channel c).index with
  | .kNew =>
    if s.channels fd = none then
      some (({ s with channels := Function.update s.channels fd (some c) }.setIndex c .kAdded).update c .EPOLL_CTL_ADD)
    else none
  | .kDeleted =>
    if s.channels fd = some c then some ((s.setIndex c .kAdded).update c .EPOLL_CTL_ADD) else none
  | .kAdded =>
    if s.channels fd = some c then
      if (s.channel c).isNoneEvent then some ((s.update c .EPOLL_CTL_DEL).setIndex c .kDeleted)
      else some (s.update c .EPOLL_CTL_MOD)
    else none

def removeChannel : Option (EPoller χ) :=
  let fd := (s.channel c).fd
  if s.channels fd = some c ∧ (s.channel c).isNoneEvent = true ∧ (s.channel c).index ≠ .kNew then
    let index := (s.channel c).index
    let s := { s with channels := Function.update s.channels fd none }
    let s := if index = .kAdded then s.update c .EPOLL_CTL_DEL else s
    some (s.setIndex c .kNew)
  else none

def step : PollerCall χ → Option (EPoller χ)
  | .updateChannel c interest => (s.setEvents c (interest.apply (s.channel c).events)).updateChannel c
  | .removeChannel c => s.removeChannel c

def machine : Machine (EPoller χ) (PollerCall χ) := ⟨step⟩

/-! ## The bookkeeping -/

omit [DecidableEq χ] in
/-- The channel is in `m_channels`. -/
def Registered : Prop := s.channels (s.channel c).fd = some c

instance : Decidable (s.Registered c) := inferInstanceAs (Decidable (_ = _))

omit [DecidableEq χ] in
/-- The channels in `m_channels` have descriptors of their own, and none is removed that is not there or wants events. -/
def Admissible : PollerCall χ → Prop
  | .updateChannel c _ => ∀ d, s.Registered d → (s.channel d).fd = (s.channel c).fd → d = c
  | .removeChannel c => s.Registered c ∧ (s.channel c).events = Channel.kNoneEvent

instance [Fintype χ] (call : PollerCall χ) : Decidable (s.Admissible call) := by
  cases call <;> unfold Admissible <;> infer_instance

omit [DecidableEq χ] in
/-- The map has the channels that are not new, and the set those that are added. -/
structure Kept : Prop where
  channels : ∀ fd c, s.channels fd = some c ↔ (s.channel c).fd = fd ∧ (s.channel c).index ≠ .kNew
  epoll : ∀ fd event, s.epoll fd = some event ↔
    ∃ c, (s.channel c).fd = fd ∧ (s.channel c).index = .kAdded ∧ event = ⟨(s.channel c).events, c⟩
  valid : ∀ ctl ∈ s.log, ctl.Valid

/-! ### One call -/

/-- What becomes of the index in `updateChannel`. -/
def updated (isNoneEvent : Bool) : Index → Index
  | .kNew | .kDeleted => .kAdded
  | .kAdded => if isNoneEvent then .kDeleted else .kAdded

omit [DecidableEq χ] in
/-- The part of `EPoller` that the connections of a `TcpServer` carry with them. -/
theorem index_updateChannel (p : Peer) : p.updateChannel.index = updated p.isNoneEvent p.index := by
  cases h : p.index <;> simp [Peer.updateChannel, updated, h]

/-- The channel becomes `ch`, with its place in the map and in the set. -/
structure Moves (ch : Channel Index) (t : EPoller χ) : Prop where
  channel : t.channel = Function.update s.channel c ch
  channels : t.channels = Function.update s.channels ch.fd (if ch.index = .kNew then none else some c)
  epoll : t.epoll = Function.update s.epoll ch.fd (if ch.index = .kAdded then some ⟨ch.events, c⟩ else none)
  log : t.log = s.log ∨ ∃ ctl : EpollCtl, ctl.Valid ∧ t.log = s.log ++ [ctl]

section Lemmas

variable {s t : EPoller χ} {c : χ}

omit [DecidableEq χ]

/-- The channels in `m_channels` have descriptors of their own. -/
theorem Registered.eq {d : χ} (hc : s.Registered c) (hd : s.Registered d)
    (hfd : (s.channel d).fd = (s.channel c).fd) : d = c :=
  Option.some.inj ((hfd ▸ hd : s.channels _ = some d).symm.trans hc)

theorem Kept.registered_iff (h : s.Kept) : s.Registered c ↔ (s.channel c).index ≠ .kNew :=
  (h.channels _ c).trans (and_iff_right rfl)

/-- What the map and the set have at the descriptor of a channel. -/
theorem Kept.slot (h : s.Kept) (hother : ∀ d, s.Registered d → (s.channel d).fd = (s.channel c).fd → d = c) :
    s.channels (s.channel c).fd = (if (s.channel c).index = .kNew then none else some c) ∧
      s.epoll (s.channel c).fd =
        if (s.channel c).index = .kAdded then some ⟨(s.channel c).events, c⟩ else none := by
  constructor
  · split
    case isTrue hnew =>
      rw [Option.eq_none_iff_forall_ne_some]
      intro d hd
      obtain ⟨hfd, hindex⟩ := (h.channels _ d).1 hd
      obtain rfl := hother d (h.registered_iff.2 hindex) hfd
      exact hindex hnew
    case isFalse hold => exact h.registered_iff.2 hold
  · split
    case isTrue hadded => exact (h.epoll _ _).2 ⟨c, rfl, hadded, rfl⟩
    case isFalse hnot =>
      rw [Option.eq_none_iff_forall_ne_some]
      intro event hevent
      obtain ⟨d, hfd, hindex, -⟩ := (h.epoll _ _).1 hevent
      obtain rfl := hother d (h.registered_iff.2 (by simp [hindex])) hfd
      exact hnot hindex

variable [DecidableEq χ]

theorem Kept.moves (h : s.Kept) (hother : ∀ d, s.Registered d → (s.channel d).fd = (s.channel c).fd → d = c)
    {ch : Channel Index} (hfd : ch.fd = (s.channel c).fd) (hm : s.Moves c ch t) : t.Kept := by
  have hne : ∀ d, d ≠ c → (s.channel d).index ≠ .kNew → (s.channel d).fd ≠ ch.fd :=
    fun d hd hindex heq => hd (hother d (h.registered_iff.2 hindex) (heq.trans hfd))
  constructor
  · intro fd d
    rw [hm.channels, hm.channel]
    by_cases hd : d = c
    · subst hd
      rw [Function.update_self]
      by_cases hslot : fd = ch.fd
      · subst hslot
        rw [Function.update_self]
        cases ch.index <;> simp
      · rw [Function.update_of_ne hslot, h.channels, ← hfd]
        exact iff_of_false (fun heq => hslot heq.1.symm) fun heq => hslot heq.1.symm
    · rw [Function.update_of_ne hd]
      by_cases hslot : fd = ch.fd
      · subst hslot
        rw [Function.update_self]
        refine iff_of_false (fun heq => ?_) fun heq => hne d hd heq.2 heq.1
        split at heq
        · cases heq
        · exact hd (Option.some.inj heq).symm
      · rw [Function.update_of_ne hslot, h.channels]
  · intro fd event
    rw [hm.epoll, hm.channel]
    by_cases hslot : fd = ch.fd
    · subst hslot
      rw [Function.update_self]
      constructor
      · intro heq
        split at heq
        case isTrue hadded => exact ⟨c, by simp, by simp [hadded], by simpa using heq.symm⟩
        case isFalse => cases heq
      · rintro ⟨d, hd, hadded, rfl⟩
        obtain rfl : d = c := by
          by_contra hd'
          rw [Function.update_of_ne hd'] at hd hadded
          exact hne d hd' (by simp [hadded]) hd
        rw [Function.update_self] at hadded ⊢
        rw [if_pos hadded]
    · rw [Function.update_of_ne hslot, h.epoll]
      refine exists_congr fun d => ?_
      by_cases hd : d = c
      · subst hd
        rw [Function.update_self, ← hfd]
        exact iff_of_false (fun heq => hslot heq.1.symm) fun heq => hslot heq.1.symm
      · rw [Function.update_of_ne hd]
  · intro ctl hctl
    rcases hm.log with hlog | ⟨ctl', hvalid, hlog⟩
    · exact h.valid ctl (hlog ▸ hctl)
    · rcases List.mem_append.1 (hlog ▸ hctl) with hctl | hctl
      · exact h.valid ctl hctl
      · rwa [List.mem_singleton.1 hctl]

/-- The channels that are registered after a call are those before it, except for its own. -/
theorem Kept.registered_of_moves (h : s.Kept) (ht : t.Kept) {ch : Channel Index} (hm : s.Moves c ch t) (d : χ) :
    t.Registered d ↔ if d = c then ch.index ≠ .kNew else s.Registered d := by
  rw [ht.registered_iff, hm.channel]
  split
  case isTrue hd => rw [hd, Function.update_self]
  case isFalse hd => rw [Function.update_of_ne hd, h.registered_iff]

omit [DecidableEq χ] in
theorem epollCtl_eq_update {set : ℕ → Option (EpollEvent χ)} {op : EpollOp} {fd : ℕ} {event : EpollEvent χ}
    (h : (set fd).isSome = true ↔ op ≠ .EPOLL_CTL_ADD) :
    epollCtl set op fd event = Function.update set fd (if op = .EPOLL_CTL_DEL then none else some event) := by
  unfold epollCtl
  cases op <;> cases hslot : set fd <;> simp_all

/-- A call of `epoll_ctl` for the channel: it leaves the set with its index. -/
theorem Moves.of_ctl {ch : Channel Index} (op : EpollOp) (hchannel : t.channel = Function.update s.channel c ch)
    (hchannels : t.channels = Function.update s.channels ch.fd (if ch.index = .kNew then none else some c))
    (hpresent : (s.epoll ch.fd).isSome = true ↔ op ≠ .EPOLL_CTL_ADD)
    (hop : op = .EPOLL_CTL_DEL ↔ ch.index ≠ .kAdded)
    (hepoll : t.epoll = epollCtl s.epoll op ch.fd ⟨ch.events, c⟩)
    (hlog : t.log = s.log ++ [⟨op, ch.fd, (s.epoll ch.fd).isSome⟩]) : s.Moves c ch t where
  channel := hchannel
  channels := hchannels
  epoll := by
    rw [hepoll, epollCtl_eq_update hpresent]
    by_cases hadded : ch.index = .kAdded
    · rw [if_pos hadded, if_neg fun hdel => hop.1 hdel hadded]
    · rw [if_neg hadded, if_pos (hop.2 hadded)]
  log := .inr ⟨⟨op, ch.fd, (s.epoll ch.fd).isSome⟩, hpresent, hlog⟩

/-- **`updateChannel` passes its assertions**, and the index goes on. -/
theorem Kept.updateChannel (h : s.Kept)
    (hother : ∀ d, s.Registered d → (s.channel d).fd = (s.channel c).fd → d = c) (events : BitVec 32) :
    ∃ t, (s.setEvents c events).updateChannel c = some t ∧ s.Moves c
      ⟨(s.channel c).fd, events, updated (decide (events = Channel.kNoneEvent)) (s.channel c).index⟩ t := by
  obtain ⟨hchannels, hepoll⟩ := h.slot hother
  have hself : (s.setEvents c events).channel c = { s.channel c with events } := Function.update_self ..
  unfold EPoller.updateChannel
  rw [hself]
  cases hindex : (s.channel c).index with
  | kNew =>
    rw [hindex] at hchannels hepoll
    refine ⟨_, if_pos hchannels, .of_ctl .EPOLL_CTL_ADD ?_ ?_ (by simp [hepoll]) (by simp [updated]) ?_ ?_⟩ <;>
      simp [EPoller.update, setIndex, setEvents, updated]
  | kDeleted =>
    rw [hindex] at hchannels hepoll
    refine ⟨_, if_pos hchannels, .of_ctl .EPOLL_CTL_ADD ?_ ?_ (by simp [hepoll]) (by simp [updated]) ?_ ?_⟩ <;>
      simp [EPoller.update, setIndex, setEvents, updated]
    exact hchannels
  | kAdded =>
    rw [hindex, if_neg (by decide)] at hchannels
    rw [hindex, if_pos rfl] at hepoll
    by_cases hnone : events = Channel.kNoneEvent
    · refine ⟨_, (if_pos hchannels).trans (if_pos (by simpa [Channel.isNoneEvent] using hnone)),
        .of_ctl .EPOLL_CTL_DEL ?_ ?_ (by simp [hepoll]) (by simp [updated, hnone]) ?_ ?_⟩ <;>
        simp [EPoller.update, setIndex, setEvents, updated, hnone]
      exact hchannels
    · refine ⟨_, (if_pos hchannels).trans (if_neg (by simpa [Channel.isNoneEvent] using hnone)),
        .of_ctl .EPOLL_CTL_MOD ?_ ?_ (by simp [hepoll]) (by simp [updated, hnone]) ?_ ?_⟩ <;>
        simp [EPoller.update, setEvents, updated, hnone, hindex]
      exact hchannels

/-- **`removeChannel` passes its assertions**, and the channel is as good as new. -/
theorem Kept.removeChannel (h : s.Kept) (hc : s.Registered c) (hnone : (s.channel c).events = Channel.kNoneEvent) :
    ∃ t, s.removeChannel c = some t ∧ s.Moves c { s.channel c with index := .kNew } t := by
  have hindex := h.registered_iff.1 hc
  obtain ⟨-, hepoll⟩ := h.slot fun _ => hc.eq
  refine ⟨_, if_pos ⟨hc, by simpa [Channel.isNoneEvent] using hnone, hindex⟩, ?_⟩
  by_cases hadded : (s.channel c).index = .kAdded
  · rw [if_pos hadded] at hepoll
    dsimp only
    rw [if_pos hadded]
    refine .of_ctl .EPOLL_CTL_DEL ?_ ?_ (by simp [hepoll]) (by simp) ?_ ?_ <;>
      simp [EPoller.update, setIndex]
  · rw [if_neg hadded] at hepoll
    dsimp only
    rw [if_neg hadded]
    refine ⟨rfl, by simp [setIndex], ?_, .inl rfl⟩
    have : s.epoll = Function.update s.epoll (s.channel c).fd none :=
      (Function.update_eq_self_iff.2 hepoll.symm).symm
    simpa [setIndex] using this

/-- **An admissible call has a result**, and the bookkeeping goes on. -/
theorem Kept.step {call : PollerCall χ} (h : s.Kept) (hok : s.Admissible call) :
    ∃ t, s.step call = some t ∧ t.Kept := by
  cases call with
  | updateChannel c interest =>
    obtain ⟨t, ht, hm⟩ := h.updateChannel hok (interest.apply (s.channel c).events)
    exact ⟨t, ht, h.moves hok (by rfl) hm⟩
  | removeChannel c =>
    obtain ⟨t, ht, hm⟩ := h.removeChannel hok.1 hok.2
    exact ⟨t, ht, h.moves (fun _ => hok.1.eq) (by rfl) hm⟩

omit [DecidableEq χ] in
theorem kept_new (fd : χ → ℕ) : (new fd).Kept :=
  ⟨by simp [new], by simp [new], by simp [new]⟩

theorem kept_of_run {fd : χ → ℕ} {calls : List (PollerCall χ)}
    (h : machine.Run Admissible (new fd) calls s) : s.Kept := by
  refine h.invariant (fun s call t hok hst hs => ?_) (kept_new fd)
  obtain ⟨t', ht, hkept⟩ := hs.step hok
  obtain rfl : t' = t := Option.some.inj (ht.symm.trans hst)
  exact hkept

end Lemmas

/-- **The bookkeeping of an `EPoller` matches the kernel's set** after every admissible sequence of calls, and no
assertion fails in the next one. -/
theorem bookkeeping_of_run {fd : χ → ℕ} {calls : List (PollerCall χ)} {s : EPoller χ}
    (h : machine.Run Admissible (new fd) calls s) :
    (∀ fd c, s.channels fd = some c ↔ (s.channel c).fd = fd ∧ (s.channel c).index ≠ .kNew) ∧
      (∀ fd event, s.epoll fd = some event ↔
        ∃ c, (s.channel c).fd = fd ∧ (s.channel c).index = .kAdded ∧ event = ⟨(s.channel c).events, c⟩) ∧
      (∀ ctl ∈ s.log, ctl.present = true ↔ ctl.op ≠ .EPOLL_CTL_ADD) ∧
      ∀ call, s.Admissible call → ∃ t, s.step call = some t := by
  obtain ⟨hchannels, hepoll, hvalid⟩ := kept_of_run h
  refine ⟨hchannels, hepoll, hvalid, fun call hok => ?_⟩
  obtain ⟨t, ht, -⟩ := (kept_of_run h).step hok
  exact ⟨t, ht⟩

/-- A channel whose interest is dropped twice and restored before it is removed; the next has its descriptor. -/
def reuse : List (PollerCall Bool) :=
  [.updateChannel false .enableReading, .updateChannel false .disableAll, .updateChannel false .disableAll,
    .updateChannel false .enableWriting, .updateChannel false .disableAll, .removeChannel false,
    .updateChannel true .enableReading]

theorem bookkeeping_of_reuse :
    ∃ s : EPoller Bool, machine.Run Admissible (new fun _ => 5) reuse s ∧ (s.channel true).fd = 5 ∧
      (s.channel true).index ≠ .kNew ∧ ∀ ctl ∈ s.log, ctl.present = true ↔ ctl.op ≠ .EPOLL_CTL_ADD := by
  obtain ⟨s, hs, hlast⟩ := (Option.any_eq_true (fun s : EPoller Bool => decide (s.channels 5 = some true))
    (machine.execIf Admissible (new fun _ => 5) reuse)).1 (by decide +kernel)
  obtain ⟨hchannels, -, hvalid, -⟩ := bookkeeping_of_run (Machine.run_of_execIf hs)
  obtain ⟨hfd, hindex⟩ := (hchannels 5 true).1 (of_decide_eq_true hlast)
  exact ⟨s, Machine.run_of_execIf hs, hfd, hindex, hvalid⟩

end EPoller

end Chatroom.Net
