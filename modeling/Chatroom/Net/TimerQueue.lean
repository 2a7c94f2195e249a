import Mathlib.Algebra.Group.Int.Defs
import Mathlib.Algebra.Group.Nat.Defs
import Mathlib.Data.Prod.Lex
import Mathlib.Logic.Function.Basic
import Chatroom.Lib.Machine
import Chatroom.Lib.OrderedSet

/-!
# `TimerQueue`

The two sets of a `TimerQueue`, the `Timer` objects, the timerfd, and `handleRead` with the callbacks that it runs: a
callback may add and cancel timers, and `handling` is what `handleRead` has in its local variables then. Other threads
make timers at any time. Timestamps and intervals are in microseconds and do not overflow. `asserted` says that no
`assert` has failed so far and no deleted timer was used.
-/

namespace Chatroom.Net

open Lib

/-- Microseconds since the epoch. -/
abbrev Timestamp := ℤ

def Timestamp.invalid : Timestamp := 0

def Timestamp.valid (t : Timestamp) : Bool := 0 < t

/-! ## `Timer` -/

/-- A `Timer*`. -/
abbrev Address := ℕ

def UINTPTR_MAX : Address := 2 ^ 64 - 1

/-- `interval` is what `addTime` adds, none unless the timer repeats. -/
structure Timer where
  expiration : Timestamp
  interval : Option ℕ
  sequence : ℤ

namespace Timer

def repeats (timer : Timer) : Bool := timer.interval.isSome

def restart (timer : Timer) (now : Timestamp) : Timer :=
  { timer with expiration := match timer.interval with
    | some interval => now + interval
    | none => .invalid }

end Timer

structure TimerId where
  timer : Address
  seq : ℤ
  deriving DecidableEq

/-- `TimerId(timer)`, as `addTimer` returns it: `seq` keeps its default. -/
def TimerId.ofTimer (timer : Address) : TimerId := ⟨timer, 0⟩

/-! ## The timerfd -/

structure Timespec where
  sec : ℤ
  nsec : ℤ
  deriving DecidableEq

/-- What `timerfd_settime` accepts. -/
def Timespec.Valid (ts : Timespec) : Prop := 0 ≤ ts.sec ∧ 0 ≤ ts.nsec ∧ ts.nsec < 10 ^ 9

instance : DecidablePred Timespec.Valid := fun ts =>
  inferInstanceAs (Decidable (0 ≤ ts.sec ∧ 0 ≤ ts.nsec ∧ ts.nsec < 10 ^ 9))

def howMuchTimeFromNow (when now : Timestamp) : Timespec :=
  let microseconds := when - now
  let microseconds := if microseconds < 100 then 100 else microseconds
  ⟨microseconds / 1000000, microseconds % 1000000 * 1000⟩

inductive Timerfd where
  | disarmed
  /-- set to `value`, which was computed from `expiration` -/
  | armed (value : Timespec) (expiration : Timestamp)
  /-- it has fired, and was not read since -/
  | fired

namespace Timerfd

/-- `timerfd_settime`: a value that is refused changes nothing, and zero disarms. -/
def settime (fd : Timerfd) (value : Timespec) (expiration : Timestamp) : Timerfd :=
  if ¬ value.Valid then fd else if value = ⟨0, 0⟩ then .disarmed else .armed value expiration

def resetTimerfd (fd : Timerfd) (expiration now : Timestamp) : Timerfd :=
  fd.settime (howMuchTimeFromNow expiration now) expiration

/-- `readTimerfd` -/
def read : Timerfd → Timerfd
  | .fired => .disarmed
  | fd => fd

end Timerfd

/-! ## `TimerQueue` -/

abbrev Entry := Timestamp ×ₗ Address

abbrev ActiveTimer := Address ×ₗ ℤ

/-- The local variables of `handleRead`, with the entries whose callbacks have not been run. -/
structure Handling where
  now : Timestamp
  expired : List Entry
  rest : List Entry

structure TimerQueue where
  /-- the `Timer` objects that exist -/
  heap : Address → Option Timer
  /-- `Timer::s_numCreated` -/
  numCreated : ℤ
  /-- the timers that wait for their `addTimerInLoop` -/
  created : List Address
  timers : OrderedSet Entry
  activeTimers : OrderedSet ActiveTimer
  callingExpiredTimers : Bool
  cancelingTimers : OrderedSet ActiveTimer
  timerfd : Timerfd
  handling : Option Handling
  asserted : Bool

namespace TimerQueue

def init : TimerQueue := ⟨fun _ => none, 0, [], .empty, .empty, false, .empty, .disarmed, none, true⟩

variable (s : TimerQueue)

def assert (b : Prop) [Decidable b] : TimerQueue := { s with asserted := s.asserted && b }

/-- `*timer` -/
def timer (p : Address) : Timer := (s.heap p).getD ⟨0, none, 0⟩

/-- The pointer is dereferenced. -/
def deref (p : Address) : TimerQueue := s.assert (s.heap p).isSome

def delete (p : Address) : TimerQueue := { s with heap := Function.update s.heap p none }

/-- `assert(m_timers.size() == m_activeTimers.size())` -/
def assertSizes : TimerQueue := s.assert (s.timers.size = s.activeTimers.size)

/-- `timer`'s entry in `m_timers`. -/
def entry (p : Address) : Entry := toLex ((s.timer p).expiration, p)

def activeTimer (p : Address) : ActiveTimer := toLex (p, (s.timer p).sequence)

/-- Whether the entry is earlier than all in `m_timers`. -/
def earliestChanged (when : Timestamp) : Bool :=
  match s.timers.begin? with
  | none => true
  | some it => when < (ofLex it).1

def insert (p : Address) : TimerQueue :=
  let s := (s.deref p).assertSizes
  let s := { s.assert (s.entry p ∉ s.timers) with timers := s.timers.insert (s.entry p) }
  let s := { s.assert (s.activeTimer p ∉ s.activeTimers) with
    activeTimers := s.activeTimers.insert (s.activeTimer p) }
  s.assertSizes

def addTimerInLoop (p : Address) (clock : Timestamp) : TimerQueue :=
  let changed := s.earliestChanged (s.timer p).expiration
  let s := s.insert p
  if changed then { s with timerfd := s.timerfd.resetTimerfd (s.timer p).expiration clock } else s

def cancelInLoop (id : TimerId) : TimerQueue :=
  let s := s.assertSizes
  let timer : ActiveTimer := toLex (id.timer, id.seq)
  if timer ∈ s.activeTimers then
    let s := s.deref id.timer
    let s := { s.assert (s.entry id.timer ∈ s.timers) with timers := s.timers.erase (s.entry id.timer) }
    { s.delete id.timer with activeTimers := s.activeTimers.erase timer }
  else if s.callingExpiredTimers then
    if timer ∈ s.cancelingTimers then
      let s := s.deref id.timer
      let s := { s.assert (s.entry id.timer ∈ s.timers) with timers := s.timers.erase (s.entry id.timer) }
      { s.delete id.timer with cancelingTimers := s.cancelingTimers.erase timer }
    else s
  else s

/-- The greatest entry for a time. -/
def sentry (now : Timestamp) : Entry := toLex (now, UINTPTR_MAX)

/-- An expired entry is taken out of `m_activeTimers`. -/
def deactivate (e : Entry) : TimerQueue :=
  let s := s.deref (ofLex e).2
  let timer := s.activeTimer (ofLex e).2
  { s.assert (timer ∈ s.activeTimers) with activeTimers := s.activeTimers.erase timer }

/-- `assert(end == m_timers.end() || now < end->first)` -/
def EndsAfter (now : Timestamp) (timers : OrderedSet Entry) : Prop :=
  ∀ it ∈ timers.begin?, now < (ofLex it).1

instance (now : Timestamp) (timers : OrderedSet Entry) : Decidable (EndsAfter now timers) :=
  inferInstanceAs (Decidable (∀ it ∈ timers.begin?, now < (ofLex it).1))

def getExpired (now : Timestamp) : List Entry × TimerQueue :=
  let s := s.assertSizes
  let expired := s.timers.below (sentry now)
  let timers := s.timers.dropBelow (sentry now)
  let s := { s.assert (EndsAfter now timers) with timers }
  let s := expired.foldl deactivate s
  (expired, s.assertSizes)

/-- `handleRead` up to its callbacks. -/
def handleRead (now : Timestamp) : TimerQueue :=
  let (expired, s) := { s with timerfd := s.timerfd.read }.getExpired now
  { s with callingExpiredTimers := true, cancelingTimers := .empty, handling := some ⟨now, expired, expired⟩ }

/-- A repeating timer is armed again; the others are deleted. -/
def rearm (now : Timestamp) (e : Entry) : TimerQueue :=
  let p := (ofLex e).2
  let s := s.deref p
  if (s.timer p).repeats ∧ s.activeTimer p ∉ s.cancelingTimers then
    { s with heap := Function.update s.heap p (some ((s.timer p).restart now)) }.insert p
  else s.delete p

def reset (expired : List Entry) (now clock : Timestamp) : TimerQueue :=
  let s := expired.foldl (rearm · now) s
  match s.timers.begin? with
  | none => s
  | some it =>
    let s := s.deref (ofLex it).2
    let nextExpire := (s.timer (ofLex it).2).expiration
    if nextExpire.valid then { s with timerfd := s.timerfd.resetTimerfd nextExpire clock } else s

/-! ## What can happen -/

inductive Action where
  /-- `new Timer(cb, when, interval)` in `addTimer`, on any thread -/
  | new (p : Address) (when : Timestamp) (interval : Option ℕ)
  /-- `clock` is the time that `howMuchTimeFromNow` reads -/
  | addTimerInLoop (p : Address) (clock : Timestamp)
  | cancelInLoop (id : TimerId)
  /-- `handleRead` up to its callbacks, at the time `now` -/
  | handleRead (now : Timestamp)
  /-- the next callback is called -/
  | run
  /-- `handleRead` from its last callback on -/
  | reset (clock : Timestamp)
  /-- the timerfd fires -/
  | fire

/-- The loop runs other functions than `handleRead`, or a callback is running. -/
def Free : Prop := ∀ h ∈ s.handling, h.rest.length < h.expired.length

instance : Decidable s.Free := inferInstanceAs (Decidable (∀ h ∈ s.handling, h.rest.length < h.expired.length))

def step : Action → Option TimerQueue
  | .new p when interval =>
    if s.heap p = none ∧ p < UINTPTR_MAX then
      some { s with
        heap := Function.update s.heap p (some ⟨when, interval, s.numCreated + 1⟩)
        numCreated := s.numCreated + 1
        created := p :: s.created }
    else none
  | .addTimerInLoop p clock =>
    if p ∈ s.created ∧ s.Free then some ({ s with created := s.created.erase p }.addTimerInLoop p clock) else none
  | .cancelInLoop id => if s.Free then some (s.cancelInLoop id) else none
  | .handleRead now => if s.handling = none then some (s.handleRead now) else none
  | .run =>
    match s.handling with
    | some ⟨now, expired, e :: rest⟩ => some { s.deref (ofLex e).2 with handling := some ⟨now, expired, rest⟩ }
    | _ => none
  | .reset clock =>
    match s.handling with
    | some ⟨now, expired, []⟩ =>
      some { { s with callingExpiredTimers := false }.reset expired now clock with handling := none }
    | _ => none
  | .fire =>
    match s.timerfd with
    | .armed _ _ => some { s with timerfd := .fired }
    | _ => none

def machine : Machine TimerQueue Action := ⟨step⟩

end TimerQueue

end Chatroom.Net
