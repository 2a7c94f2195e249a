import Mathlib.Algebra.Group.Nat.Defs
import Mathlib.Logic.Function.Basic
import Chatroom.Lib.Machine

/-!
# `EventLoop`

The thread of an `EventLoop` goes through the phases of `loop`; any number of other threads call `queueInLoop` and
`quit`. A push under the mutex, a write to the eventfd, the swap and the poll are a step each. The thread of the loop
calls `queueInLoop` and `quit` too, from the event handlers and the functors that it runs.
-/

namespace Chatroom.Net

open Lib

/-- Where `loop` is. -/
inductive Phase (φ : Type*) where
  /-- at `while (!m_quit)` -/
  | test
  /-- about to call `poll` -/
  | poll
  /-- the active channels to be handled, true for `m_wakeupChannel` -/
  | handling (activeChannels : List Bool)
  /-- in the handler of another channel -/
  | handler (activeChannels : List Bool)
  /-- in `doPendingFunctors`, about to swap -/
  | swap
  /-- the functors to be run -/
  | calling (functors : List φ)
  /-- in a functor -/
  | functor (functors : List φ)
  | stopped

namespace Phase

variable {φ : Type*}

/-- Functions of others are running. -/
def calls : Phase φ → Bool
  | handler _ | functor _ => true
  | _ => false

def functors : Phase φ → List φ
  | calling functors | functor functors => functors
  | _ => []

/-- What is pending now will be swapped out before the next `poll`. -/
def collects : Phase φ → Bool
  | handling _ | handler _ | swap => true
  | _ => false

/-- In `doPendingFunctors`, with the flag set. -/
def pends : Phase φ → Bool
  | swap | calling _ | functor _ => true
  | _ => false

theorem pends_of_calls {phase : Phase φ} (h : phase.calls = true) (hcollects : phase.collects = false) :
    phase.pends = true := by
  cases phase with
  | functor => rfl
  | handler => cases hcollects
  | _ => cases h

/-- What is pending now will be swapped out before the next handler is called. -/
def swapsNext : Phase φ → Bool
  | handling activeChannels => !activeChannels.contains false
  | swap => true
  | _ => false

theorem functors_of_swapsNext {phase : Phase φ} (h : phase.swapsNext = true) : phase.functors = [] := by
  cases phase with
  | calling | functor => cases h
  | _ => rfl

theorem not_swapsNext_of_calls {phase : Phase φ} (h : phase.calls = true) : ¬ phase.swapsNext = true := by
  cases phase with
  | handler | functor => exact nofun
  | _ => cases h

theorem functors_of_collects {phase : Phase φ} (h : phase.collects = true) : phase.functors = [] := by
  cases phase with
  | calling | functor => cases h
  | _ => rfl

end Phase

/-- Where a thread is that has called the loop. -/
inductive Caller where
  | idle
  /-- in `queueInLoop`, between the push and the write to the eventfd -/
  | queueing
  /-- in `quit`, before the write to the eventfd -/
  | quitting
  deriving DecidableEq

/-- `none` is the thread of the loop. -/
structure EventLoop (ι φ : Type*) where
  quit : Bool
  callingPendingFunctors : Bool
  pendingFunctors : List φ
  /-- the counter of the eventfd -/
  wakeupFd : ℕ
  phase : Phase φ
  callers : Option ι → Caller

namespace EventLoop

variable {ι φ : Type*}

/-- `loop` begins. -/
def new : EventLoop ι φ := ⟨false, false, [], 0, .test, fun _ => .idle⟩

section Operations

variable (s : EventLoop ι φ)

def CanCall (thread : Option ι) : Prop := s.callers thread = .idle ∧ (thread = none → s.phase.calls = true)

instance (thread : Option ι) : Decidable (s.CanCall thread) :=
  inferInstanceAs (Decidable (s.callers thread = .idle ∧ (thread = none → s.phase.calls = true)))

/-- The write fails when the counter is at its maximum. -/
def wakeup : EventLoop ι φ := { s with wakeupFd := if s.wakeupFd < 2 ^ 64 - 2 then s.wakeupFd + 1 else s.wakeupFd }

def handleRead : EventLoop ι φ := { s with wakeupFd := 0 }

variable [DecidableEq ι]

/-- `queueInLoop` up to its call of `wakeup`, if it makes one. -/
def queueInLoop (thread : Option ι) (cb : φ) : EventLoop ι φ :=
  { s with
    pendingFunctors := s.pendingFunctors ++ [cb]
    callers := if thread.isSome ∨ s.callingPendingFunctors then Function.update s.callers thread .queueing
      else s.callers }

/-- `quit` up to its call of `wakeup`, if it makes one. -/
def setQuit (thread : Option ι) : EventLoop ι φ :=
  { s with
    quit := true
    callers := if thread.isSome then Function.update s.callers thread .quitting else s.callers }

end Operations

/-! ## What can happen -/

/-- The steps of `loop`. -/
inductive Advance where
  | test
  /-- `poll` returns the active channels: `m_wakeupChannel` only if the eventfd is readable -/
  | poll (activeChannels : List Bool)
  | handleEvent
  /-- a handler or a functor returns -/
  | returns
  | doPendingFunctors
  | swap
  | functor
  /-- the end of `doPendingFunctors` -/
  | done
  deriving DecidableEq

inductive Action (ι φ : Type*) where
  | queueInLoop (thread : Option ι) (cb : φ)
  | quit (thread : Option ι)
  | wakeup (thread : Option ι)
  | loop (a : Advance)

def advance (s : EventLoop ι φ) (a : Advance) : Option (EventLoop ι φ) :=
  match a, s.phase with
  | .test, .test => some { s with phase := if s.quit then .stopped else .poll }
  | .poll activeChannels, .poll =>
    if true ∈ activeChannels → 0 < s.wakeupFd then some { s with phase := .handling activeChannels } else none
  | .handleEvent, .handling (true :: activeChannels) => some { s.handleRead with phase := .handling activeChannels }
  | .handleEvent, .handling (false :: activeChannels) => some { s with phase := .handler activeChannels }
  | .returns, .handler activeChannels => some { s with phase := .handling activeChannels }
  | .returns, .functor functors => some { s with phase := .calling functors }
  | .doPendingFunctors, .handling [] => some { s with callingPendingFunctors := true, phase := .swap }
  | .swap, .swap => some { s with pendingFunctors := [], phase := .calling s.pendingFunctors }
  | .functor, .calling (_ :: functors) => some { s with phase := .functor functors }
  | .done, .calling [] => some { s with callingPendingFunctors := false, phase := .test }
  | _, _ => none

variable [DecidableEq ι]

def step (s : EventLoop ι φ) : Action ι φ → Option (EventLoop ι φ)
  | .queueInLoop thread cb => if s.CanCall thread then some (s.queueInLoop thread cb) else none
  | .quit thread => if s.CanCall thread then some (s.setQuit thread) else none
  | .wakeup thread =>
    if s.callers thread = .idle then none
    else some { s.wakeup with callers := Function.update s.callers thread .idle }
  | .loop a => if s.callers none = .idle then s.advance a else none

def machine : Machine (EventLoop ι φ) (Action ι φ) := ⟨step⟩

/-! ## No functor is lost or run twice -/

inductive Event (φ : Type*) where
  | pushed (cb : φ)
  | ran (cb : φ)

def Event.pushed? : Event φ → Option φ
  | pushed cb => some cb
  | _ => none

def Event.ran? : Event φ → Option φ
  | ran cb => some cb
  | _ => none

def events (s : EventLoop ι φ) : Action ι φ → List (Event φ)
  | .queueInLoop _ cb => [.pushed cb]
  | .loop .functor => (s.phase.functors.head?.map .ran).toList
  | _ => []

/-- The functors that are still to be run, in order. -/
def queued (s : EventLoop ι φ) : List φ := s.phase.functors ++ s.pendingFunctors

def pushes (log : List (Event φ)) : List φ := log.filterMap Event.pushed?

def runs (log : List (Event φ)) : List φ := log.filterMap Event.ran?

theorem pushes_append (log log' : List (Event φ)) : pushes (log ++ log') = pushes log ++ pushes log' :=
  List.filterMap_append

theorem runs_append (log log' : List (Event φ)) : runs (log ++ log') = runs log ++ runs log' :=
  List.filterMap_append

/-- The eventfd is readable or a thread is about to write to it. -/
def Signalled (s : EventLoop ι φ) : Prop := 0 < s.wakeupFd ∨ ∃ thread, s.callers thread = .queueing

structure Woken (s : EventLoop ι φ) : Prop where
  signalled : s.phase.collects = false → s.pendingFunctors ≠ [] → s.Signalled
  calling : s.phase.pends = true → s.callingPendingFunctors = true
  inside : s.callers none ≠ .idle → s.phase.calls = true

/-- **What a step of `loop` does.** -/
structure Advances (s : EventLoop ι φ) (a : Advance) (t : EventLoop ι φ) : Prop where
  callers : t.callers = s.callers
  queued : s.queued = runs (s.events (.loop a)) ++ t.queued
  pushes : pushes (s.events (.loop a)) = []
  /-- what is left pending was pending outside of the phases that collect -/
  pending : t.phase.collects = false → t.pendingFunctors = [] ∨
    s.phase.collects = false ∧ t.pendingFunctors = s.pendingFunctors ∧ t.wakeupFd = s.wakeupFd
  calling : t.phase.pends = true → t.callingPendingFunctors = true ∨
    s.phase.pends = true ∧ t.callingPendingFunctors = s.callingPendingFunctors

section Lemmas

omit [DecidableEq ι]

variable {s t : EventLoop ι φ}

def Ordered (s : EventLoop ι φ × List (Event φ)) : Prop := Woken s.1 ∧ pushes s.2 = runs s.2 ++ s.1.queued

theorem ordered_init : Ordered ((new : EventLoop ι φ), []) := ⟨⟨nofun, nofun, fun h => absurd rfl h⟩, rfl⟩

theorem wakeup_pos (s : EventLoop ι φ) : 0 < s.wakeup.wakeupFd := by
  show 0 < if s.wakeupFd < 2 ^ 64 - 2 then s.wakeupFd + 1 else s.wakeupFd
  split <;> omega

theorem advances_of_advance {a : Advance} (h : s.advance a = some t) : Advances s a t := by
  unfold advance at h
  split at h
  case h_1 hphase =>
    obtain rfl := Option.some.inj h
    refine ⟨rfl, ?_, rfl, fun _ => .inr ⟨?_, rfl, rfl⟩, ?_⟩
    · cases hquit : s.quit <;> simp [queued, runs, events, hphase, Phase.functors]
    · rw [hphase]
      rfl
    · cases hquit : s.quit <;> simp [Phase.pends]
  case h_2 activeChannels hphase =>
    split at h
    case isTrue =>
      obtain rfl := Option.some.inj h
      exact ⟨rfl, by simp [queued, runs, events, hphase, Phase.functors], rfl, nofun, nofun⟩
    case isFalse => cases h
  case h_3 activeChannels hphase =>
    obtain rfl := Option.some.inj h
    exact ⟨rfl, by simp [queued, runs, events, hphase, Phase.functors, handleRead], rfl, nofun, nofun⟩
  case h_4 activeChannels hphase =>
    obtain rfl := Option.some.inj h
    exact ⟨rfl, by simp [queued, runs, events, hphase, Phase.functors], rfl, nofun, nofun⟩
  case h_5 activeChannels hphase =>
    obtain rfl := Option.some.inj h
    exact ⟨rfl, by simp [queued, runs, events, hphase, Phase.functors], rfl, nofun, nofun⟩
  case h_6 functors hphase =>
    obtain rfl := Option.some.inj h
    refine ⟨rfl, by simp [queued, runs, events, hphase, Phase.functors], rfl, fun _ => .inr ⟨?_, rfl, rfl⟩,
      fun _ => .inr ⟨?_, rfl⟩⟩
    all_goals
      rw [hphase]
      rfl
  case h_7 hphase =>
    obtain rfl := Option.some.inj h
    exact ⟨rfl, by simp [queued, runs, events, hphase, Phase.functors], rfl, nofun, fun _ => .inl rfl⟩
  case h_8 hphase =>
    obtain rfl := Option.some.inj h
    refine ⟨rfl, by simp [queued, runs, events, hphase, Phase.functors], rfl, fun _ => .inl rfl,
      fun _ => .inr ⟨?_, rfl⟩⟩
    rw [hphase]
    rfl
  case h_9 cb functors hphase =>
    obtain rfl := Option.some.inj h
    refine ⟨rfl, by simp [queued, runs, events, hphase, Phase.functors, Event.ran?], ?_, fun _ => .inr ⟨?_, rfl, rfl⟩,
      fun _ => .inr ⟨?_, rfl⟩⟩
    · simp [pushes, events, hphase, Phase.functors, Event.pushed?]
    all_goals
      rw [hphase]
      rfl
  case h_10 hphase =>
    obtain rfl := Option.some.inj h
    refine ⟨rfl, by simp [queued, runs, events, hphase, Phase.functors], rfl, fun _ => .inr ⟨?_, rfl, rfl⟩, nofun⟩
    rw [hphase]
    rfl
  case h_11 => cases h

end Lemmas

variable {s t : EventLoop ι φ}

theorem signalled_of_update {thread : Option ι} {c : Caller} (hidle : s.callers thread = .idle)
    (h : s.Signalled) (hfd : t.wakeupFd = s.wakeupFd) (hcallers : t.callers = Function.update s.callers thread c) :
    t.Signalled := by
  refine h.imp (fun hpos => hfd ▸ hpos) ?_
  rintro ⟨other, hother⟩
  have hne : other ≠ thread := by
    rintro rfl
    rw [hidle] at hother
    cases hother
  exact ⟨other, by rw [hcallers, Function.update_of_ne hne, hother]⟩

theorem callers_queueInLoop (s : EventLoop ι φ) (i : ι) (cb : φ) :
    (s.queueInLoop (some i) cb).callers none = s.callers none := by
  simp [EventLoop.queueInLoop]

theorem callers_setQuit (s : EventLoop ι φ) (i : ι) : (s.setQuit (some i)).callers none = s.callers none := by
  simp [setQuit]

theorem Woken.queueInLoop (h : Woken s) {thread : Option ι} (hcan : s.CanCall thread) (cb : φ) :
    Woken (s.queueInLoop thread cb) := by
  constructor
  · intro hcollects _
    -- in the thread of the loop it is a functor that calls
    have hwrites : thread.isSome ∨ s.callingPendingFunctors := by
      cases thread with
      | some i => exact .inl rfl
      | none => exact .inr (h.calling (Phase.pends_of_calls (hcan.2 rfl) hcollects))
    refine .inr ⟨thread, ?_⟩
    simp only [EventLoop.queueInLoop]
    rw [if_pos hwrites, Function.update_self]
  · exact h.calling
  · intro hcaller
    cases thread with
    | some i =>
      rw [callers_queueInLoop] at hcaller
      exact h.inside hcaller
    | none => exact hcan.2 rfl

theorem Woken.setQuit (h : Woken s) {thread : Option ι} (hcan : s.CanCall thread) : Woken (s.setQuit thread) := by
  cases thread with
  | none => exact ⟨h.signalled, h.calling, h.inside⟩
  | some i =>
    refine ⟨fun hcollects hpending => ?_, h.calling, fun hcaller => ?_⟩
    · exact signalled_of_update hcan.1 (h.signalled hcollects hpending) rfl rfl
    · rw [callers_setQuit] at hcaller
      exact h.inside hcaller

/-- **What a step does**, whichever it is. -/
theorem step_cases {a : Action ι φ} (h : s.step a = some t) :
    (∃ thread cb, a = .queueInLoop thread cb ∧ s.CanCall thread ∧ t = s.queueInLoop thread cb) ∨
      (∃ thread, a = .quit thread ∧ s.CanCall thread ∧ t = s.setQuit thread) ∨
      (∃ thread, a = .wakeup thread ∧ t = { s.wakeup with callers := Function.update s.callers thread .idle }) ∨
      ∃ a', a = .loop a' ∧ s.callers none = .idle ∧ s.advance a' = some t := by
  cases a with
  | queueInLoop thread cb =>
    obtain ⟨hcan, heq⟩ := Option.ite_none_right_eq_some.1 h
    exact .inl ⟨thread, cb, rfl, hcan, (Option.some.inj heq).symm⟩
  | quit thread =>
    obtain ⟨hcan, heq⟩ := Option.ite_none_right_eq_some.1 h
    exact .inr (.inl ⟨thread, rfl, hcan, (Option.some.inj heq).symm⟩)
  | wakeup thread =>
    obtain ⟨-, heq⟩ := Option.ite_none_left_eq_some.1 h
    exact .inr (.inr (.inl ⟨thread, rfl, (Option.some.inj heq).symm⟩))
  | loop a =>
    obtain ⟨hidle, hadvance⟩ := Option.ite_none_right_eq_some.1 h
    exact .inr (.inr (.inr ⟨a, rfl, hidle, hadvance⟩))

theorem Woken.wakeup (h : Woken s) (thread : Option ι) :
    Woken { s.wakeup with callers := Function.update s.callers thread .idle } := by
  refine ⟨fun _ _ => .inl s.wakeup_pos, h.calling, fun hcaller => h.inside fun hidle => hcaller ?_⟩
  show Function.update s.callers thread .idle none = .idle
  rw [Function.update_apply, hidle, ite_self]

omit [DecidableEq ι] in
theorem Woken.advance (h : Woken s) {a : Advance} (hidle : s.callers none = .idle) (hadvance : s.advance a = some t) :
    Woken t := by
  have hadvances := advances_of_advance hadvance
  constructor
  · intro hcollects hpending
    rcases hadvances.pending hcollects with hnil | ⟨hcollects', heq, hfd⟩
    · exact absurd hnil hpending
    · rw [heq] at hpending
      rw [Signalled, hfd, hadvances.callers]
      exact h.signalled hcollects' hpending
  · intro hpends
    rcases hadvances.calling hpends with hset | ⟨hpends', heq⟩
    · exact hset
    · exact heq.trans (h.calling hpends')
  · intro hcaller
    rw [hadvances.callers] at hcaller
    exact absurd hidle hcaller

theorem Woken.step (h : Woken s) {a : Action ι φ} (hstep : s.step a = some t) : Woken t := by
  rcases step_cases hstep with ⟨thread, cb, -, hcan, rfl⟩ | ⟨thread, -, hcan, rfl⟩ | ⟨thread, -, rfl⟩ |
    ⟨a, -, hidle, hadvance⟩
  · exact h.queueInLoop hcan cb
  · exact h.setQuit hcan
  · exact h.wakeup thread
  · exact h.advance hidle hadvance

omit [DecidableEq ι] in
/-- Only the swap and the call of a functor change which functors wait where. -/
theorem functors_of_advance {a : Advance} (h : s.advance a = some t) (hne : a ≠ .functor) :
    (t.phase.functors = s.phase.functors ∧ t.pendingFunctors = s.pendingFunctors ∧
      (s.phase.swapsNext = true → t.phase.swapsNext = true)) ∨
      a = .swap ∧ t.phase.functors = s.pendingFunctors ∧ t.pendingFunctors = [] := by
  unfold advance at h
  split at h
  case h_1 hphase =>
    obtain rfl := Option.some.inj h
    refine .inl ⟨?_, rfl, ?_⟩
    · cases hquit : s.quit <;> simp [hphase, Phase.functors]
    · rw [hphase]
      exact nofun
  case h_2 hphase =>
    split at h
    case isTrue =>
      obtain rfl := Option.some.inj h
      refine .inl ⟨by simp [hphase, Phase.functors], rfl, ?_⟩
      rw [hphase]
      exact nofun
    case isFalse => cases h
  case h_8 =>
    obtain rfl := Option.some.inj h
    exact .inr ⟨rfl, rfl, rfl⟩
  case h_9 => exact absurd rfl hne
  case h_11 => cases h
  case h_3 hphase | h_4 hphase | h_5 hphase | h_6 hphase | h_7 hphase | h_10 hphase =>
    obtain rfl := Option.some.inj h
    exact .inl ⟨by simp [hphase, Phase.functors], rfl, by simp [hphase, Phase.swapsNext]⟩

omit [DecidableEq ι] in
theorem functors_of_functor (h : s.advance .functor = some t) :
    ∃ cb, s.phase.functors = cb :: t.phase.functors ∧ t.pendingFunctors = s.pendingFunctors := by
  unfold advance at h
  split at h
  case h_9 cb functors _ hphase =>
    obtain rfl := Option.some.inj h
    exact ⟨cb, by rw [hphase]; rfl, rfl⟩
  case h_11 => cases h
  all_goals contradiction

/-- A step that neither pushes nor calls a functor may swap the pending ones out. -/
theorem functors_step {a : Action ι φ} (hstep : s.step a = some t) (hevents : s.events a = []) :
    (t.phase.functors = s.phase.functors ∧ t.pendingFunctors = s.pendingFunctors ∧
      (s.phase.swapsNext = true → t.phase.swapsNext = true)) ∨
      a = .loop .swap ∧ t.phase.functors = s.pendingFunctors ∧ t.pendingFunctors = [] := by
  rcases step_cases hstep with ⟨thread, cb, rfl, -, -⟩ | ⟨thread, rfl, -, rfl⟩ | ⟨thread, rfl, rfl⟩ |
    ⟨a, rfl, -, hadvance⟩
  · cases hevents
  · exact .inl ⟨rfl, rfl, id⟩
  · exact .inl ⟨rfl, rfl, id⟩
  · refine (functors_of_advance hadvance ?_).imp_right fun h => ⟨congrArg _ h.1, h.2⟩
    rintro rfl
    obtain ⟨cb, hcb, -⟩ := functors_of_functor hadvance
    rw [events, hcb] at hevents
    cases hevents

@[simp] theorem queued_queueInLoop (s : EventLoop ι φ) (thread : Option ι) (cb : φ) :
    (s.queueInLoop thread cb).queued = s.queued ++ [cb] :=
  (List.append_assoc ..).symm

/-- Functors are queued behind all others, and the first one is run. -/
theorem queued_step {a : Action ι φ} (hstep : s.step a = some t) :
    s.queued ++ pushes (s.events a) = runs (s.events a) ++ t.queued := by
  rcases step_cases hstep with ⟨thread, cb, rfl, -, rfl⟩ | ⟨thread, rfl, -, rfl⟩ | ⟨thread, rfl, rfl⟩ |
    ⟨a, rfl, -, hadvance⟩
  · exact (s.queued_queueInLoop thread cb).symm
  · exact List.append_nil _
  · exact List.append_nil _
  · have hadvances := advances_of_advance hadvance
    rw [hadvances.pushes, List.append_nil]
    exact hadvances.queued

theorem queued_of_quiet {a : Action ι φ} (hstep : s.step a = some t) (hevents : s.events a = []) :
    t.queued = s.queued := by
  have hqueued := queued_step hstep
  rw [hevents] at hqueued
  exact hqueued.symm.trans (List.append_nil _)

theorem queued_of_functor {cb : φ} (hstep : s.step (.loop .functor) = some t)
    (hcb : s.phase.functors.head? = some cb) : s.queued = cb :: t.queued := by
  have hqueued := queued_step hstep
  simp only [events, hcb] at hqueued
  exact (List.append_nil _).symm.trans hqueued

theorem ordered_step (s : EventLoop ι φ × List (Event φ)) (a : Action ι φ) (t : EventLoop ι φ × List (Event φ))
    (_ : True) (hstep : (machine.logged events).step s a = some t) : Ordered s → Ordered t := by
  rintro ⟨hwoken, hqueued⟩
  obtain ⟨t, ht, rfl⟩ := Option.map_eq_some_iff.1 hstep
  refine ⟨hwoken.step ht, ?_⟩
  calc pushes (s.2 ++ s.1.events a) = runs s.2 ++ (s.1.queued ++ pushes (s.1.events a)) := by
        rw [pushes_append, hqueued, List.append_assoc]
    _ = runs (s.2 ++ s.1.events a) ++ t.queued := by
        rw [queued_step ht, runs_append, List.append_assoc]

/-- **No functor is lost or run twice**, they are run in the order in which they were pushed, and `poll` is not entered
with functors pending unless the eventfd is readable or a thread is about to write to it. -/
theorem tasks_of_run {l : List (Action ι φ)} {s : EventLoop ι φ} {log : List (Event φ)}
    (h : (machine.logged events).Run (fun _ _ => True) (new, []) l (s, log)) :
    pushes log = runs log ++ s.phase.functors ++ s.pendingFunctors ∧
      (s.phase = .poll → s.pendingFunctors ≠ [] → 0 < s.wakeupFd ∨ ∃ i, s.callers (some i) = .queueing) := by
  obtain ⟨hwoken, hqueued⟩ := h.invariant ordered_step ordered_init
  refine ⟨hqueued.trans (List.append_assoc ..).symm, fun hpoll hpending => ?_⟩
  rcases hwoken.signalled (by rw [hpoll]; rfl) hpending with hpos | ⟨thread, hthread⟩
  · exact .inl hpos
  · cases thread with
    | some i => exact .inr ⟨i, hthread⟩
    | none =>
      have hcalls := hwoken.inside (by rw [hthread]; decide)
      rw [hpoll] at hcalls
      cases hcalls

/-- A functor that queues another one, while a second thread pushes. -/
theorem tasks_of_run_sample :
    ∃ s : EventLoop ℕ ℕ, (machine.logged events).Run (fun _ _ => True) (new, [])
        [.queueInLoop (some 1) 10, .loop .test, .wakeup (some 1), .loop (.poll [true, false]), .loop .handleEvent,
          .loop .handleEvent, .queueInLoop none 20, .loop .returns, .loop .doPendingFunctors, .loop .swap,
          .loop .functor, .queueInLoop none 30, .queueInLoop (some 1) 40, .wakeup none, .loop .returns, .loop .functor,
          .loop .returns, .loop .done, .loop .test]
        (s, [.pushed 10, .pushed 20, .ran 10, .pushed 30, .pushed 40, .ran 20]) ∧
      s.phase = .poll ∧ (0 < s.wakeupFd ∨ ∃ i, s.callers (some i) = .queueing) := by
  obtain ⟨s, hrun, hpoll, hpending⟩ : ∃ s : EventLoop ℕ ℕ, (machine.logged events).Run (fun _ _ => True) (new, [])
        [.queueInLoop (some 1) 10, .loop .test, .wakeup (some 1), .loop (.poll [true, false]), .loop .handleEvent,
          .loop .handleEvent, .queueInLoop none 20, .loop .returns, .loop .doPendingFunctors, .loop .swap,
          .loop .functor, .queueInLoop none 30, .queueInLoop (some 1) 40, .wakeup none, .loop .returns, .loop .functor,
          .loop .returns, .loop .done, .loop .test]
        (s, [.pushed 10, .pushed 20, .ran 10, .pushed 30, .pushed 40, .ran 20]) ∧
      s.phase = .poll ∧ s.pendingFunctors = [30, 40] := ⟨_, Machine.run_of_exec rfl, rfl, rfl⟩
  exact ⟨s, hrun, hpoll, (tasks_of_run hrun).2 hpoll (by rw [hpending]; nofun)⟩

end EventLoop

end Chatroom.Net
