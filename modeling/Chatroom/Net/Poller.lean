import Chatroom.Net.EPoller

/-!
# `Poller`, next to `EPoller`

`m_pollfds` has an element for each registered channel, at the channel's index, and a descriptor that is not to be
watched is turned into `-fd - 1`. Both pollers are given the same calls. `updateChannel` of a registered channel does
not turn the descriptor back, and `EPoller` adds a deleted channel to its set whatever its events are: the two watch
the same descriptors as long as no interest is restored and none dropped that is not there (`alike_of_run`).
-/

namespace Chatroom.Net

open Lib

/-- `struct pollfd`, less the `revents`, which the kernel writes. -/
structure PollFd where
  fd : ℤ
  events : BitVec 16

/-- The descriptor of a channel that is not watched. -/
def unwatched (fd : ℕ) : ℤ := -fd - 1

structure Poller (χ : Type*) where
  channel : χ → Channel ℤ
  /-- `m_pollfds` -/
  pollfds : List PollFd
  /-- `m_channels` -/
  channels : ℕ → Option χ

namespace Poller

variable {χ : Type*}

def new (fd : χ → ℕ) : Poller χ := ⟨fun c => ⟨fd c, Channel.kNoneEvent, -1⟩, [], fun _ => none⟩

variable [DecidableEq χ] (s : Poller χ) (c : χ)

def setIndex (index : ℤ) : Poller χ :=
  { s with channel := Function.update s.channel c { s.channel c with index } }

def setEvents (events : BitVec 32) : Poller χ :=
  { s with channel := Function.update s.channel c { s.channel c with events } }

omit [DecidableEq χ] in
/-- `m_pollfds[idx]`, where the assertion on `idx` holds -/
def pollfd (idx : ℤ) : Option PollFd := if 0 ≤ idx then s.pollfds[idx.toNat]? else none

def updateChannel : Option (Poller χ) :=
  let channel := s.channel c
  let events := channel.events.setWidth 16
  if channel.index < 0 then
    if s.channels channel.fd = none then
      let pfd : PollFd := ⟨channel.fd, events⟩
      let s := { s with pollfds := s.pollfds ++ [pfd] }
      let s := s.setIndex c (s.pollfds.length - 1)
      some { s with channels := Function.update s.channels channel.fd (some c) }
    else none
  else if s.channels channel.fd = some c then
    match s.pollfd channel.index with
    | some pfd =>
      if pfd.fd = channel.fd ∨ pfd.fd = unwatched channel.fd then
        let pfd := { pfd with events }
        let pfd := if channel.isNoneEvent then { pfd with fd := unwatched channel.fd } else pfd
        some { s with pollfds := s.pollfds.set channel.index.toNat pfd }
      else none
    | none => none
  else none

/-- The last element goes to the place of the channel that is removed. -/
def removeChannel : Option (Poller χ) :=
  let channel := s.channel c
  let idx := channel.index
  if s.channels channel.fd = some c ∧ channel.isNoneEvent = true then
    match s.pollfd idx, s.pollfds.getLast? with
    | some pfd, some back =>
      if pfd.fd = unwatched channel.fd ∨ pfd.events.signExtend 32 = channel.events then
        let s := { s with channels := Function.update s.channels channel.fd none }
        if idx = s.pollfds.length - 1 then some { s with pollfds := s.pollfds.dropLast }
        else
          let channelAtEnd := if back.fd < 0 then -back.fd - 1 else back.fd
          match s.channels channelAtEnd.toNat with
          | some d => some ({ s with pollfds := (s.pollfds.set idx.toNat back).dropLast }.setIndex d idx)
          | none => none
      else none
    | _, _ => none
  else none

def step : PollerCall χ → Option (Poller χ)
  | .updateChannel c interest => (s.setEvents c (interest.apply (s.channel c).events)).updateChannel c
  | .removeChannel c => s.removeChannel c

/-! ### One call -/

/-- The channel has these events and the element `i`, which has this descriptor. -/
structure Sets (events : BitVec 32) (i : ℕ) (fd : ℤ) (t : Poller χ) : Prop where
  channel : t.channel = Function.update s.channel c ⟨(s.channel c).fd, events, i⟩
  channels : t.channels = Function.update s.channels (s.channel c).fd (some c)
  pollfds : ∀ j, t.pollfds[j]? = if j = i then some ⟨fd, events.setWidth 16⟩ else s.pollfds[j]?

section Lemmas

variable {s : Poller χ} {c : χ} {i : ℕ} {pfd : PollFd}

theorem updateChannel_new (interest : Interest) (hc : s.channels (s.channel c).fd = none)
    (hindex : (s.channel c).index < 0) :
    ∃ t, s.step (.updateChannel c interest) = some t ∧
      s.Sets c (interest.apply (s.channel c).events) s.pollfds.length (s.channel c).fd t := by
  generalize hevents : interest.apply (s.channel c).events = events
  have hself : (s.setEvents c events).channel c = { s.channel c with events } := Function.update_self ..
  rw [step, hevents, updateChannel, hself]
  refine ⟨_, (if_pos hindex).trans (if_pos hc), ?_, rfl, fun j => ?_⟩
  · simp [setIndex, setEvents]
  · simp only [setIndex, setEvents]
    split
    case isTrue hj => simp [hj]
    case isFalse hj =>
      rcases Nat.lt_or_gt_of_ne hj with hlt | hgt
      · rw [List.getElem?_append_left hlt]
      · rw [List.getElem?_eq_none (by simp; omega), List.getElem?_eq_none (by omega)]

/-- A descriptor that is not watched stays so. -/
theorem updateChannel_registered (interest : Interest) (hc : s.channels (s.channel c).fd = some c)
    (hindex : (s.channel c).index = i) (hpfd : s.pollfds[i]? = some pfd)
    (hfd : pfd.fd = (s.channel c).fd ∨ pfd.fd = unwatched (s.channel c).fd) :
    ∃ t, s.step (.updateChannel c interest) = some t ∧
      s.Sets c (interest.apply (s.channel c).events) i
        (if interest.apply (s.channel c).events = Channel.kNoneEvent then unwatched (s.channel c).fd else pfd.fd) t := by
  generalize hevents : interest.apply (s.channel c).events = events
  have hself : (s.setEvents c events).channel c = { s.channel c with events } := Function.update_self ..
  have hlt : i < s.pollfds.length := (List.getElem?_eq_some_iff.1 hpfd).1
  have hslot : (s.setEvents c events).pollfd i = some pfd := by simpa [pollfd, setEvents] using hpfd
  rw [step, hevents, updateChannel, hself]
  simp only [hindex, hslot]
  rw [if_neg (by omega)]
  refine ⟨_, (if_pos hc).trans (if_pos hfd), ?_, ?_, fun j => ?_⟩
  · simp [setEvents, hindex]
  · exact (Function.update_eq_self_iff.2 hc.symm).symm
  · simp only [setEvents, Int.toNat_natCast, Channel.isNoneEvent, decide_eq_true_eq]
    by_cases hj : j = i
    · rw [if_pos hj, hj, List.getElem?_set_self hlt]
      split <;> rfl
    · rw [if_neg hj, List.getElem?_set_ne (Ne.symm hj)]

/-- What was at the end has the place of the channel that is removed. -/
theorem removeChannel_registered {d : χ} {back : PollFd} (hc : s.channels (s.channel c).fd = some c)
    (hnone : (s.channel c).events = Channel.kNoneEvent) (hindex : (s.channel c).index = i)
    (hpfd : s.pollfds[i]? = some pfd) (hfd : pfd.fd = unwatched (s.channel c).fd)
    (hback : s.pollfds.getLast? = some back) (hd : s.channels (s.channel d).fd = some d)
    (hlast : (s.channel d).index = s.pollfds.length - 1)
    (hend : (if back.fd < 0 then -back.fd - 1 else back.fd) = (s.channel d).fd)
    (hother : (s.channel d).fd = (s.channel c).fd → d = c) :
    ∃ t, s.removeChannel c = some t ∧
      t.channel = Function.update s.channel d { s.channel d with index := i } ∧
      t.channels = Function.update s.channels (s.channel c).fd none ∧
      t.pollfds = (s.pollfds.set i back).dropLast := by
  have hslot : s.pollfd i = some pfd := by simpa [pollfd] using hpfd
  rw [removeChannel, if_pos ⟨hc, by simpa [Channel.isNoneEvent] using hnone⟩]
  simp only [hindex, hslot, hback]
  rw [if_pos (.inl hfd)]
  by_cases hi : (i : ℤ) = s.pollfds.length - 1
  · refine ⟨_, if_pos hi, ?_, rfl, ?_⟩
    · exact (Function.update_eq_self_iff.2 (by rw [hi, ← hlast])).symm
    · have hset : s.pollfds.set i back = s.pollfds := by
        obtain ⟨front, hfront⟩ := List.getLast?_eq_some_iff.1 hback
        obtain rfl : i = front.length := by
          rw [hfront, List.length_append, List.length_singleton] at hi
          omega
        simp [hfront]
      rw [hset]
  · have hne : (s.channel d).fd ≠ (s.channel c).fd := by
      intro hfd
      rw [hother hfd, hindex] at hlast
      exact hi hlast
    rw [if_neg hi, hend, Int.toNat_natCast, Function.update_of_ne hne, hd]
    exact ⟨_, rfl, by simp [setIndex], rfl, by simp [setIndex]⟩

end Lemmas

end Poller

/-! ## The same calls for both -/

structure Pollers (χ : Type*) where
  epoller : EPoller χ
  poller : Poller χ
  removed : List χ

namespace Pollers

variable {χ : Type*}

def new (fd : χ → ℕ) : Pollers χ := ⟨.new fd, .new fd, []⟩

variable [DecidableEq χ] (s : Pollers χ)

def step (call : PollerCall χ) : Option (Pollers χ) := do
  let epoller ← s.epoller.step call
  let poller ← s.poller.step call
  let removed := match call with
    | .updateChannel .. => s.removed
    | .removeChannel c => c :: s.removed
  return ⟨epoller, poller, removed⟩

def machine : Machine (Pollers χ) (PollerCall χ) := ⟨step⟩

omit [DecidableEq χ] in
/-- What is admissible for an `EPoller`, less the channels that were removed. -/
def Admissible (call : PollerCall χ) : Prop :=
  s.epoller.Admissible call ∧ match call with
    | .updateChannel c _ => c ∉ s.removed
    | .removeChannel _ => True

instance [Fintype χ] (call : PollerCall χ) : Decidable (s.Admissible call) :=
  match call with
  | .updateChannel c interest =>
    inferInstanceAs (Decidable (s.epoller.Admissible (.updateChannel c interest) ∧ c ∉ s.removed))
  | .removeChannel c => inferInstanceAs (Decidable (s.epoller.Admissible (.removeChannel c) ∧ True))

/-- The first interest of a channel is not empty, and none follows an empty one. -/
def Lasting : PollerCall χ → Prop
  | .updateChannel c interest =>
    let events := (s.epoller.channel c).events
    if s.epoller.Registered c then events ≠ Channel.kNoneEvent else interest.apply events ≠ Channel.kNoneEvent
  | .removeChannel _ => True

instance (call : PollerCall χ) : Decidable (s.Lasting call) :=
  match call with
  | .updateChannel c interest =>
    inferInstanceAs (Decidable (if s.epoller.Registered c then (s.epoller.channel c).events ≠ Channel.kNoneEvent
      else interest.apply (s.epoller.channel c).events ≠ Channel.kNoneEvent))
  | .removeChannel _ => .isTrue trivial

/-- The descriptor is in the set of the `EPoller`, with these events. -/
def epolls (fd : ℕ) (events : BitVec 32) : Prop := ∃ c, s.epoller.epoll fd = some ⟨events, c⟩

/-- The descriptor is in `m_pollfds`, with these events. -/
def polls (fd : ℕ) (events : BitVec 32) : Prop := ∃ pfd ∈ s.poller.pollfds, pfd.fd = fd ∧ pfd.events.signExtend 32 = events

/-- There is a registered channel with this descriptor and this interest. -/
def wants (fd : ℕ) (events : BitVec 32) : Prop :=
  ∃ c, s.epoller.Registered c ∧ (s.epoller.channel c).fd = fd ∧ (s.epoller.channel c).events = events ∧
    events ≠ Channel.kNoneEvent

/-- Both watch the interested channels. -/
structure Alike : Prop where
  same : ∀ fd events, s.epolls fd events ↔ s.polls fd events
  wanted : ∀ fd events, s.epolls fd events ↔ s.wants fd events

/-! ### What the calls keep -/

/-- The interests that there are. -/
def interests : List (BitVec 32) := [0, 3, 4, 7]

theorem mem_interests {events : BitVec 32} : events ∈ interests ↔ events = 0 ∨ events = 3 ∨ events = 4 ∨ events = 7 := by
  simp [interests]

theorem apply_mem_interests (interest : Interest) {events : BitVec 32} (h : events ∈ interests) :
    interest.apply events ∈ interests := by
  rcases mem_interests.1 h with rfl | rfl | rfl | rfl <;>
    cases interest <;> decide

theorem signExtend_setWidth {events : BitVec 32} (h : events ∈ interests) :
    (events.setWidth 16).signExtend 32 = events := by
  rcases mem_interests.1 h with rfl | rfl | rfl | rfl <;>
    decide

/-- The element of `m_pollfds` for a channel. -/
def entry {κ : Type*} (ch : Channel κ) : PollFd :=
  ⟨if ch.isNoneEvent then unwatched ch.fd else ch.fd, ch.events.setWidth 16⟩

/-- The elements of `m_pollfds` are those of the registered channels, and those are added that want events. -/
structure Tracks : Prop where
  kept : s.epoller.Kept
  channels : s.poller.channels = s.epoller.channels
  fd : ∀ c, (s.poller.channel c).fd = (s.epoller.channel c).fd
  events : ∀ c, (s.poller.channel c).events = (s.epoller.channel c).events
  interests : ∀ c, (s.epoller.channel c).events ∈ interests
  added : ∀ c, s.epoller.Registered c →
    ((s.epoller.channel c).index = .kAdded ↔ (s.epoller.channel c).events ≠ Channel.kNoneEvent)
  fresh : ∀ c, ¬s.epoller.Registered c → c ∉ s.removed → (s.poller.channel c).index < 0
  slot : ∀ c, s.epoller.Registered c → ∃ i : ℕ, (s.poller.channel c).index = i ∧
    s.poller.pollfds[i]? = some (entry (s.epoller.channel c))
  owner : ∀ (i : ℕ) pfd, s.poller.pollfds[i]? = some pfd →
    ∃ c, s.epoller.Registered c ∧ (s.poller.channel c).index = i

section Lemmas

variable {s t : Pollers χ} {c d : χ}

omit [DecidableEq χ]

theorem tracks_new (fd : χ → ℕ) : (new fd).Tracks where
  kept := EPoller.kept_new fd
  channels := rfl
  fd _ := rfl
  events _ := rfl
  interests _ := by simp [new, EPoller.new, Pollers.interests, Channel.kNoneEvent]
  added c hc := by simp [new, EPoller.new, EPoller.Registered] at hc
  fresh _ _ _ := by simp [new, Poller.new]
  slot c hc := by simp [new, EPoller.new, EPoller.Registered] at hc
  owner i pfd hpfd := by simp [new, Poller.new] at hpfd

/-- How `removeChannel` reads a descriptor. -/
theorem entry_fd {κ : Type*} (ch : Channel κ) :
    (if (entry ch).fd < 0 then -(entry ch).fd - 1 else (entry ch).fd) = ch.fd := by
  simp only [entry, unwatched]
  split <;> split <;> omega

theorem Tracks.eq_of_index (h : s.Tracks) (hc : s.epoller.Registered c) (hd : s.epoller.Registered d)
    (hindex : (s.poller.channel c).index = (s.poller.channel d).index) : c = d := by
  obtain ⟨i, hi, hci⟩ := h.slot c hc
  obtain ⟨j, hj, hdj⟩ := h.slot d hd
  obtain rfl : i = j := by omega
  have hentry : entry (s.epoller.channel c) = entry (s.epoller.channel d) := Option.some.inj (hci.symm.trans hdj)
  have hfd : (s.epoller.channel c).fd = (s.epoller.channel d).fd := by
    have hcfd := entry_fd (s.epoller.channel c)
    rw [hentry, entry_fd] at hcfd
    exact_mod_cast hcfd.symm
  exact hd.eq hc hfd

/-- Each element of `m_pollfds` is that of a channel. -/
theorem Tracks.element (h : s.Tracks) {i : ℕ} {pfd : PollFd} (hpfd : s.poller.pollfds[i]? = some pfd) :
    ∃ c, s.epoller.Registered c ∧ (s.poller.channel c).index = i ∧ pfd = entry (s.epoller.channel c) := by
  obtain ⟨c, hc, hindex⟩ := h.owner i pfd hpfd
  obtain ⟨j, hj, hentry⟩ := h.slot c hc
  obtain rfl : i = j := by omega
  exact ⟨c, hc, hindex, Option.some.inj (hpfd.symm.trans hentry)⟩

theorem Tracks.polls_iff (h : s.Tracks) {fd : ℕ} {events : BitVec 32} : s.polls fd events ↔ s.wants fd events := by
  constructor
  · rintro ⟨pfd, hpfd, hfd, hevents⟩
    obtain ⟨i, hi⟩ := List.mem_iff_getElem?.1 hpfd
    obtain ⟨c, hc, -, rfl⟩ := h.element hi
    have hsome : (s.epoller.channel c).isNoneEvent = false := by
      by_contra hnone
      simp only [entry, unwatched, if_pos (eq_true_of_ne_false hnone)] at hfd
      omega
    rw [← hevents]
    refine ⟨c, hc, ?_, ?_, ?_⟩
    · simp only [entry, hsome, Bool.false_eq_true, if_false] at hfd
      exact_mod_cast hfd
    · exact (signExtend_setWidth (h.interests c)).symm
    · rw [entry, signExtend_setWidth (h.interests c)]
      simpa [Channel.isNoneEvent] using hsome
  · rintro ⟨c, hc, rfl, rfl, hsome⟩
    obtain ⟨i, -, hi⟩ := h.slot c hc
    refine ⟨_, List.mem_of_getElem? hi, ?_, signExtend_setWidth (h.interests c)⟩
    exact if_neg (by simpa [Channel.isNoneEvent] using hsome)

theorem Tracks.epolls_iff (h : s.Tracks) {fd : ℕ} {events : BitVec 32} : s.epolls fd events ↔ s.wants fd events := by
  simp only [epolls, wants, h.kept.epoll, EpollEvent.mk.injEq]
  constructor
  · rintro ⟨c, _, rfl, hadded, rfl, rfl⟩
    have hc : s.epoller.Registered c := h.kept.registered_iff.2 (by simp [hadded])
    exact ⟨c, hc, rfl, rfl, (h.added c hc).1 hadded⟩
  · rintro ⟨c, hc, rfl, rfl, hsome⟩
    exact ⟨c, c, rfl, (h.added c hc).2 hsome, rfl, rfl⟩

theorem Tracks.alike (h : s.Tracks) : s.Alike :=
  ⟨fun _ _ => h.epolls_iff.trans h.polls_iff.symm, fun _ _ => h.epolls_iff⟩

variable [DecidableEq χ]

/-- The registered channels that are not the one at hand have other descriptors and other elements. -/
theorem Tracks.other_index (h : s.Tracks) (hd : s.epoller.Registered d) (hdc : d ≠ c) {i : ℕ}
    (hi : if s.epoller.Registered c then (s.poller.channel c).index = i else i = s.poller.pollfds.length) :
    (s.poller.channel d).index ≠ i := by
  intro hdi
  split at hi
  case isTrue hc => exact hdc (h.eq_of_index hd hc (hdi.trans hi.symm))
  case isFalse =>
    obtain ⟨j, hj, hentry⟩ := h.slot d hd
    have hlt := (List.getElem?_eq_some_iff.1 hentry).1
    omega

/-- The channel has its element, in the place that it had or in a new one. -/
theorem Tracks.sets (h : s.Tracks) {ch : Channel Index} {e : EPoller χ} {p : Poller χ} {i : ℕ}
    (hfd : ch.fd = (s.epoller.channel c).fd) (hnew : ch.index ≠ .kNew)
    (hadded : ch.index = .kAdded ↔ ch.events ≠ Channel.kNoneEvent) (hevents : ch.events ∈ Pollers.interests)
    (hkept : e.Kept) (he : s.epoller.Moves c ch e) (hp : s.poller.Sets c ch.events i (entry ch).fd p)
    (hi : if s.epoller.Registered c then (s.poller.channel c).index = i else i = s.poller.pollfds.length) :
    Tracks ⟨e, p, s.removed⟩ := by
  have hregistered : ∀ d, e.Registered d ↔ d = c ∨ s.epoller.Registered d := by
    intro d
    rw [h.kept.registered_of_moves hkept he]
    split
    case isTrue hd => simp [hd, hnew]
    case isFalse hd => simp [hd]
  have hchannel : ∀ d, d ≠ c → e.channel d = s.epoller.channel d :=
    fun d hd => by rw [he.channel, Function.update_of_ne hd]
  have hself : e.channel c = ch := by rw [he.channel, Function.update_self]
  have hpchannel : ∀ d, d ≠ c → p.channel d = s.poller.channel d :=
    fun d hd => by rw [hp.channel, Function.update_of_ne hd]
  have hpself : p.channel c = ⟨ch.fd, ch.events, i⟩ := by rw [hp.channel, Function.update_self, h.fd, hfd]
  constructor
  case kept => exact hkept
  case channels =>
    change p.channels = e.channels
    rw [hp.channels, he.channels, h.channels, h.fd, hfd, if_neg hnew]
  case fd =>
    intro d
    by_cases hd : d = c
    · simp [hd, hself, hpself]
    · simp [hchannel d hd, hpchannel d hd, h.fd]
  case events =>
    intro d
    by_cases hd : d = c
    · simp [hd, hself, hpself]
    · simp [hchannel d hd, hpchannel d hd, h.events]
  case interests =>
    intro d
    by_cases hd : d = c
    · simpa [hd, hself] using hevents
    · simpa [hchannel d hd] using h.interests d
  case added =>
    intro d hd
    by_cases hdc : d = c
    · simpa [hdc, hself] using hadded
    · simpa [hchannel d hdc] using h.added d (((hregistered d).1 hd).resolve_left hdc)
  case fresh =>
    intro d hd hremoved
    rw [hregistered, not_or] at hd
    simpa [hpchannel d hd.1] using h.fresh d hd.2 hremoved
  case slot =>
    intro d hd
    by_cases hdc : d = c
    · refine ⟨i, by simp [hdc, hpself], ?_⟩
      simp [hp.pollfds, hdc, hself, entry]
    · have hd' := ((hregistered d).1 hd).resolve_left hdc
      obtain ⟨j, hj, hentry⟩ := h.slot d hd'
      have hji : j ≠ i := fun heq => h.other_index hd' hdc hi (heq ▸ hj)
      exact ⟨j, by simpa [hpchannel d hdc] using hj, by simpa [hp.pollfds, hji, hchannel d hdc] using hentry⟩
  case owner =>
    intro j pfd hpfd
    by_cases hji : j = i
    · exact ⟨c, (hregistered c).2 (.inl rfl), by simp [hpself, hji]⟩
    · obtain ⟨d, hd, hindex⟩ := h.owner j pfd (by simpa [hp.pollfds, hji] using hpfd)
      have hdc : d ≠ c := by
        rintro rfl
        rw [if_pos hd] at hi
        omega
      exact ⟨d, (hregistered d).2 (.inr hd), by simpa [hpchannel d hdc] using hindex⟩

/-- A channel without an interest is added to the set, and its descriptor in `m_pollfds` is not turned back. -/
theorem Tracks.not_alike_of_idle (h : s.Tracks) {ch : Channel Index} {e : EPoller χ} {p : Poller χ} {i : ℕ}
    (hc : s.epoller.Registered c) (hidle : (s.epoller.channel c).events = Channel.kNoneEvent)
    (hi : (s.poller.channel c).index = i) (he : s.epoller.Moves c ch e) (hch : ch = ⟨(s.epoller.channel c).fd, ch.events,
      EPoller.updated (decide (ch.events = Channel.kNoneEvent)) (s.epoller.channel c).index⟩)
    (hp : s.poller.Sets c ch.events i (unwatched (s.epoller.channel c).fd) p) : ¬Alike ⟨e, p, s.removed⟩ := by
  intro halike
  have hindex : (s.epoller.channel c).index = .kDeleted := by
    cases hindex : (s.epoller.channel c).index with
    | kNew => exact absurd hindex (h.kept.registered_iff.1 hc)
    | kAdded => exact absurd hidle ((h.added c hc).1 hindex)
    | kDeleted => rfl
  rw [hindex] at hch
  have hepolls : epolls ⟨e, p, s.removed⟩ (s.epoller.channel c).fd ch.events :=
    ⟨c, by rw [he.epoll, hch]; simp [EPoller.updated]⟩
  obtain ⟨pfd, hpfd, hfd, -⟩ := (halike.same _ _).1 hepolls
  obtain ⟨j, hj⟩ := List.mem_iff_getElem?.1 hpfd
  rw [hp.pollfds] at hj
  split at hj
  case isTrue =>
    obtain rfl := Option.some.inj hj
    simp only [unwatched] at hfd
    omega
  case isFalse hji =>
    obtain ⟨d, hd, hdj, rfl⟩ := h.element hj
    have hdfd := entry_fd (s.epoller.channel d)
    rw [hfd, if_neg (by omega)] at hdfd
    obtain rfl := hd.eq hc (by omega)
    omega

/-- **`updateChannel` of both.** They pass their assertions, and stay together exactly when the interest lasts. -/
theorem Tracks.updateChannel (h : s.Tracks) {interest : Interest} (hok : s.Admissible (.updateChannel c interest)) :
    ∃ t, s.step (.updateChannel c interest) = some t ∧ (s.Lasting (.updateChannel c interest) → t.Tracks) ∧
      (¬s.Lasting (.updateChannel c interest) → ¬t.Alike) := by
  obtain ⟨e, he, hmoves⟩ := h.kept.updateChannel hok.1 (interest.apply (s.epoller.channel c).events)
  have hkept := h.kept.moves hok.1 (by rfl) hmoves
  by_cases hc : s.epoller.Registered c
  · obtain ⟨i, hi, hentry⟩ := h.slot c hc
    have hchannels : s.poller.channels (s.poller.channel c).fd = some c := by rwa [h.channels, h.fd]
    have hassert : (entry (s.epoller.channel c)).fd = ((s.poller.channel c).fd : ℤ) ∨
        (entry (s.epoller.channel c)).fd = unwatched (s.poller.channel c).fd := by
      rw [h.fd, entry]
      split <;> simp
    obtain ⟨p, hp, hsets⟩ := Poller.updateChannel_registered interest hchannels hi hentry hassert
    rw [h.events, h.fd] at hsets
    refine ⟨⟨e, p, s.removed⟩, by simp [step, EPoller.step, he, hp], fun hlasting => ?_, fun hidle => ?_⟩
    · simp only [Lasting, if_pos hc] at hlasting
      have hindex := (h.added c hc).2 hlasting
      refine h.sets (by rfl) ?_ ?_ ?_ hkept hmoves ?_ (by rwa [if_pos hc])
      · simp only [hindex, EPoller.updated]
        split <;> simp
      · simp only [hindex, EPoller.updated]
        split <;> simp_all
      · exact apply_mem_interests interest (h.interests c)
      · simpa [entry, Channel.isNoneEvent, hlasting] using hsets
    · simp only [Lasting, if_pos hc, not_not] at hidle
      refine h.not_alike_of_idle hc hidle hi hmoves (by rfl) ?_
      simpa [entry, Channel.isNoneEvent, hidle] using hsets
  · have hnew : (s.epoller.channel c).index = .kNew := by
      by_contra hold
      exact hc (h.kept.registered_iff.2 hold)
    have hchannels : s.poller.channels (s.poller.channel c).fd = none := by
      rw [h.channels, h.fd, (h.kept.slot hok.1).1, if_pos hnew]
    obtain ⟨p, hp, hsets⟩ := Poller.updateChannel_new interest hchannels (h.fresh c hc hok.2)
    rw [h.events, h.fd] at hsets
    refine ⟨⟨e, p, s.removed⟩, by simp [step, EPoller.step, he, hp], fun hlasting => ?_, fun hidle => ?_⟩
    · simp only [Lasting, if_neg hc] at hlasting
      refine h.sets (by rfl) ?_ ?_ ?_ hkept hmoves ?_ (by rw [if_neg hc])
      · simp [hnew, EPoller.updated]
      · simpa [hnew, EPoller.updated] using hlasting
      · exact apply_mem_interests interest (h.interests c)
      · simpa [entry, Channel.isNoneEvent, hlasting] using hsets
    · simp only [Lasting, if_neg hc, not_not] at hidle
      intro halike
      obtain ⟨d, -, -, -, hsome⟩ := (halike.wanted (s.epoller.channel c).fd Channel.kNoneEvent).1
        ⟨c, by simp [hmoves.epoll, hnew, EPoller.updated, hidle]⟩
      exact hsome rfl

/-- **`removeChannel` of both.** They pass their assertions, and stay together. -/
theorem Tracks.removeChannel (h : s.Tracks) (hok : s.Admissible (.removeChannel c)) :
    ∃ t, s.step (.removeChannel c) = some t ∧ t.Tracks := by
  obtain ⟨⟨hc, hnone⟩, -⟩ := hok
  obtain ⟨e, he, hmoves⟩ := h.kept.removeChannel hc hnone
  have hkept := h.kept.moves (fun _ => hc.eq) (by rfl) hmoves
  obtain ⟨i, hi, hentry⟩ := h.slot c hc
  have hlt := (List.getElem?_eq_some_iff.1 hentry).1
  obtain ⟨back, hback⟩ : ∃ back, s.poller.pollfds[s.poller.pollfds.length - 1]? = some back :=
    ⟨_, List.getElem?_eq_getElem (by omega)⟩
  obtain ⟨d, hd, hlast, rfl⟩ := h.element hback
  obtain ⟨p, hp, hpchannel, hpchannels, hpollfds⟩ := Poller.removeChannel_registered (s := s.poller) (d := d)
    (by rwa [h.channels, h.fd]) (by rwa [h.events]) hi hentry (by simp [entry, Channel.isNoneEvent, hnone, h.fd])
    (List.getLast?_eq_getElem?.trans hback) (by rwa [h.channels, h.fd]) (by omega) (by rw [entry_fd, h.fd])
    (by rw [h.fd, h.fd]; exact hc.eq hd)
  refine ⟨⟨e, p, c :: s.removed⟩, by simp [step, EPoller.step, Poller.step, he, hp], ?_⟩
  have hregistered : ∀ x, e.Registered x ↔ x ≠ c ∧ s.epoller.Registered x := by
    intro x
    rw [h.kept.registered_of_moves hkept hmoves]
    split
    case isTrue hx => simp [hx]
    case isFalse hx => simp [hx]
  have hchannel : ∀ x, x ≠ c → e.channel x = s.epoller.channel x :=
    fun x hx => by rw [hmoves.channel, Function.update_of_ne hx]
  have hsame : ∀ x, (e.channel x).fd = (s.epoller.channel x).fd ∧
      (e.channel x).events = (s.epoller.channel x).events := by
    intro x
    by_cases hx : x = c
    · simp [hx, hmoves.channel]
    · simp [hchannel x hx]
  have hget : ∀ j : ℕ, p.pollfds[j]? = if j < s.poller.pollfds.length - 1 then
      if j = i then some (entry (s.epoller.channel d)) else s.poller.pollfds[j]? else none := by
    intro j
    rw [hpollfds, List.getElem?_dropLast, List.length_set, List.getElem?_set]
    simp only [hlt, if_true, eq_comm]
  have hindex : ∀ x, x ≠ d → p.channel x = s.poller.channel x :=
    fun x hx => by rw [hpchannel, Function.update_of_ne hx]
  constructor
  case kept => exact hkept
  case channels =>
    change p.channels = e.channels
    rw [hpchannels, hmoves.channels, h.channels, h.fd, if_pos rfl]
  case fd =>
    intro x
    change (p.channel x).fd = (e.channel x).fd
    rw [(hsame x).1, ← h.fd x]
    by_cases hx : x = d
    · rw [hx, hpchannel, Function.update_self]
    · rw [hindex x hx]
  case events =>
    intro x
    change (p.channel x).events = (e.channel x).events
    rw [(hsame x).2, ← h.events x]
    by_cases hx : x = d
    · rw [hx, hpchannel, Function.update_self]
    · rw [hindex x hx]
  case interests => exact fun x => (hsame x).2 ▸ h.interests x
  case added =>
    intro x hx
    obtain ⟨hxc, hx⟩ := (hregistered x).1 hx
    simpa [hchannel x hxc] using h.added x hx
  case fresh =>
    intro x hx hremoved
    obtain ⟨hxc, hremoved⟩ : x ≠ c ∧ x ∉ s.removed := by simpa using hremoved
    have hx' : ¬s.epoller.Registered x := fun hx' => hx ((hregistered x).2 ⟨hxc, hx'⟩)
    have hxd : x ≠ d := fun heq => hx' (heq ▸ hd)
    simpa [hindex x hxd] using h.fresh x hx' hremoved
  case slot =>
    intro x hx
    obtain ⟨hxc, hx⟩ := (hregistered x).1 hx
    obtain ⟨j, hj, hxentry⟩ := h.slot x hx
    have hji : j ≠ i := fun heq => hxc (h.eq_of_index hx hc (by omega))
    have hjlt := (List.getElem?_eq_some_iff.1 hxentry).1
    by_cases hxd : x = d
    · subst hxd
      refine ⟨i, by simp [hpchannel], ?_⟩
      change p.pollfds[i]? = some (entry (e.channel x))
      rw [hget, if_pos (by omega), if_pos rfl, hchannel x hxc]
    · have hjlast : j ≠ s.poller.pollfds.length - 1 := fun heq => hxd (h.eq_of_index hx hd (by omega))
      refine ⟨j, by simpa [hindex x hxd] using hj, ?_⟩
      change p.pollfds[j]? = some (entry (e.channel x))
      rw [hget, if_pos (by omega), if_neg hji, hchannel x hxc, hxentry]
  case owner =>
    intro j pfd hpfd
    change p.pollfds[j]? = some pfd at hpfd
    rw [hget] at hpfd
    split at hpfd
    case isFalse => cases hpfd
    case isTrue hjlast =>
      split at hpfd
      case isTrue hji =>
        refine ⟨d, (hregistered d).2 ⟨?_, hd⟩, by simp [hpchannel, hji]⟩
        rintro rfl
        omega
      case isFalse hji =>
        obtain ⟨x, hx, hxj⟩ := h.owner j pfd hpfd
        have hxc : x ≠ c := by
          rintro rfl
          omega
        have hxd : x ≠ d := by
          rintro rfl
          omega
        exact ⟨x, (hregistered x).2 ⟨hxc, hx⟩, by simpa [hindex x hxd] using hxj⟩

/-- **An admissible call has a result**, and the pollers stay together exactly when the interest lasts. -/
theorem Tracks.step {call : PollerCall χ} (h : s.Tracks) (hok : s.Admissible call) :
    ∃ t, s.step call = some t ∧ (s.Lasting call → t.Tracks) ∧ (¬s.Lasting call → ¬t.Alike) := by
  cases call with
  | updateChannel c interest => exact h.updateChannel hok
  | removeChannel c =>
    obtain ⟨t, ht, htracks⟩ := h.removeChannel hok
    exact ⟨t, ht, fun _ => htracks, fun hnot => absurd trivial hnot⟩

theorem tracks_of_run {fd : χ → ℕ} {calls : List (PollerCall χ)}
    (h : machine.Run (fun s call => s.Admissible call ∧ s.Lasting call) (new fd) calls s) : s.Tracks := by
  refine h.invariant (fun s call t hok hst hs => ?_) (tracks_new fd)
  obtain ⟨t', ht, htracks, -⟩ := hs.step hok.1
  obtain rfl : t' = t := Option.some.inj (ht.symm.trans hst)
  exact htracks hok.2

end Lemmas

/-- **Both pollers watch the interested channels** as long as the interests last, and the first that does not last ends
it. -/
theorem alike_of_run {fd : χ → ℕ} {calls : List (PollerCall χ)} {s : Pollers χ}
    (h : machine.Run (fun s call => s.Admissible call ∧ s.Lasting call) (new fd) calls s) :
    s.Alike ∧ ∀ call, s.Admissible call → ∃ t, s.step call = some t ∧ (t.Alike ↔ s.Lasting call) := by
  have htracks := tracks_of_run h
  refine ⟨htracks.alike, fun call hok => ?_⟩
  obtain ⟨t, ht, hlasting, hidle⟩ := htracks.step hok
  exact ⟨t, ht, not_imp_not.1 hidle, fun hl => (hlasting hl).alike⟩

/-- One of two channels is removed while the other has the last element. -/
def removal : List (PollerCall Bool) :=
  [.updateChannel false .enableReading, .updateChannel true .enableReading, .updateChannel true .enableWriting,
    .updateChannel false .disableAll, .removeChannel false, .updateChannel true .disableWriting]

theorem alike_of_removal :
    ∃ s : Pollers Bool, machine.Run (fun s call => s.Admissible call ∧ s.Lasting call)
      (new fun c => if c then 5 else 6) removal s ∧ s.Alike := by
  obtain ⟨s, hs⟩ := Option.isSome_iff_exists.1 (by decide +kernel : (machine.execIf
    (fun (s : Pollers Bool) call => s.Admissible call ∧ s.Lasting call) (new fun c => if c then 5 else 6)
    removal).isSome = true)
  exact ⟨s, Machine.run_of_execIf hs, (alike_of_run (Machine.run_of_execIf hs)).1⟩

/-- Whatever a channel asks for after it has dropped its interest. -/
theorem not_alike_of_dropped (interest : Interest) :
    ∃ s : Pollers Unit, machine.Run Admissible (new fun _ => 5)
      [.updateChannel () .enableReading, .updateChannel () .disableAll, .updateChannel () interest] s ∧ ¬s.Alike := by
  obtain ⟨s, hs, hdropped⟩ := (Option.any_eq_true (fun s : Pollers Unit => decide (s.epoller.Registered () ∧
      (s.epoller.channel ()).events = Channel.kNoneEvent ∧ s.removed = [])) (machine.execIf
        (fun (s : Pollers Unit) call => s.Admissible call ∧ s.Lasting call) (new fun _ => 5)
        [.updateChannel () .enableReading, .updateChannel () .disableAll])).1 (by decide +kernel)
  have hrun := Machine.run_of_execIf hs
  obtain ⟨hregistered, hnone, hremoved⟩ := of_decide_eq_true hdropped
  have hok : s.Admissible (.updateChannel () interest) := ⟨fun _ _ _ => rfl, by simp [hremoved]⟩
  obtain ⟨t, ht, -, hidle⟩ := (tracks_of_run hrun).step hok
  refine ⟨t, (hrun.mono fun _ _ h => h.1).append (.cons hok ht (.nil _)), hidle fun hlasting => ?_⟩
  simp only [Lasting, if_pos hregistered] at hlasting
  exact hlasting hnone

/-- `connectDestroyed` drops the interest that `handleClose` has dropped; and an interest that is restored is not
watched. -/
theorem not_alike_of_disableAll :
    (∃ s : Pollers Unit, machine.Run Admissible (new fun _ => 5)
      [.updateChannel () .enableReading, .updateChannel () .disableAll, .updateChannel () .disableAll] s ∧ ¬s.Alike) ∧
    ∃ s : Pollers Unit, machine.Run Admissible (new fun _ => 5)
      [.updateChannel () .enableReading, .updateChannel () .disableAll, .updateChannel () .enableReading] s ∧
      ¬s.Alike :=
  ⟨not_alike_of_dropped .disableAll, not_alike_of_dropped .enableReading⟩

end Pollers

end Chatroom.Net
