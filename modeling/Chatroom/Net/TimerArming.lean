import Chatroom.Net.TimerSteps

/-!
# The timerfd is armed

While timers are queued the timerfd has fired or it is armed for the earliest of them or before. Within a `handleRead`
that holds of the timers whose expirations are not valid, since `reset` does not arm it for these: they were added by a
callback, and adding the first of them has armed it. For that the time that `handleRead` reads must be valid.
-/

namespace Chatroom.Net

open Lib

/-! ## Armed values -/

/-- A relative time that `timerfd_settime` accepts and that does not disarm, of at least 100 microseconds. -/
structure Timespec.Wakes (ts : Timespec) : Prop where
  valid : ts.Valid
  ne_zero : ts ≠ ⟨0, 0⟩
  least : 100 * 1000 ≤ ts.sec * 10 ^ 9 + ts.nsec

theorem wakes_of_le {microseconds : ℤ} (h : 100 ≤ microseconds) :
    Timespec.Wakes ⟨microseconds / 1000000, microseconds % 1000000 * 1000⟩ := by
  have hnonneg := Int.emod_nonneg microseconds (show (1000000 : ℤ) ≠ 0 by decide)
  have hlt := Int.emod_lt_of_pos microseconds (show (0 : ℤ) < 1000000 by decide)
  have hsplit := Int.mul_ediv_add_emod microseconds 1000000
  refine ⟨⟨?_, ?_, ?_⟩, fun hzero => ?_, ?_⟩
  · show 0 ≤ microseconds / 1000000
    omega
  · show 0 ≤ microseconds % 1000000 * 1000
    omega
  · show microseconds % 1000000 * 1000 < 10 ^ 9
    omega
  · obtain ⟨hsec, hnsec⟩ := Timespec.mk.inj hzero
    omega
  · show 100 * 1000 ≤ microseconds / 1000000 * 10 ^ 9 + microseconds % 1000000 * 1000
    omega

theorem wakes_howMuchTimeFromNow (when now : Timestamp) : (howMuchTimeFromNow when now).Wakes := by
  refine wakes_of_le ?_
  split
  case isTrue => exact le_rfl
  case isFalse hle => exact not_lt.1 hle

theorem Timerfd.resetTimerfd_eq (fd : Timerfd) (expiration now : Timestamp) :
    fd.resetTimerfd expiration now = .armed (howMuchTimeFromNow expiration now) expiration := by
  have hwakes := wakes_howMuchTimeFromNow expiration now
  rw [resetTimerfd, settime, if_neg (not_not.2 hwakes.valid), if_neg hwakes.ne_zero]

namespace TimerQueue

/-- It has fired, or it is armed for a time before all of the timers. -/
def Covers (fd : Timerfd) (timers : OrderedSet Entry) : Prop :=
  fd = .fired ∨ ∃ value expiration, fd = .armed value expiration ∧ value.Wakes ∧
    ∀ e ∈ timers, expiration ≤ (ofLex e).1

/-- **No timer sleeps**: it is so while there are timers. -/
def Awake (s : TimerQueue) : Prop := (∃ e, e ∈ s.timers) → Covers s.timerfd s.timers

/-- `handleRead` reads a valid time. -/
def ReadsValid (_ : TimerQueue) : Action → Prop
  | .handleRead now => now.valid
  | _ => True

/-- What holds while callbacks run. -/
structure Arming (s : TimerQueue) : Prop where
  idle : s.handling = none → Awake s
  handling : ∀ h ∈ s.handling, 0 < h.now ∧ ((∃ e ∈ s.timers, (ofLex e).1 ≤ 0) → Covers s.timerfd s.timers)

section Lemmas

variable {s t : TimerQueue} {place place' : Address → Place}

theorem covers_resetTimerfd (fd : Timerfd) {timers : OrderedSet Entry} {expiration : Timestamp} (clock : Timestamp)
    (h : ∀ e ∈ timers, expiration ≤ (ofLex e).1) : Covers (fd.resetTimerfd expiration clock) timers :=
  .inr ⟨_, expiration, fd.resetTimerfd_eq expiration clock, wakes_howMuchTimeFromNow expiration clock, h⟩

/-- Later timers may come. -/
theorem Covers.of_le {fd : Timerfd} {timers timers' : OrderedSet Entry} (h : Covers fd timers)
    (hle : ∀ e ∈ timers', ∃ e' ∈ timers, (ofLex e').1 ≤ (ofLex e).1) : Covers fd timers' := by
  refine h.imp_right ?_
  rintro ⟨value, expiration, hfd, hwakes, hfirst⟩
  refine ⟨value, expiration, hfd, hwakes, fun e he => ?_⟩
  obtain ⟨e', he', hle⟩ := hle e he
  exact (hfirst e' he').trans hle

/-- Timers go, or nothing happens to them. -/
theorem Arming.of_subset (h : Arming s) (htimers : ∀ e ∈ t.timers, e ∈ s.timers) (hfd : t.timerfd = s.timerfd)
    (hhandling : ∀ b ∈ t.handling, ∃ b' ∈ s.handling, b'.now = b.now) (hidle : t.handling = none → s.handling = none) :
    Arming t := by
  have hcovers : Covers s.timerfd s.timers → Covers t.timerfd t.timers := by
    intro hcovers
    rw [hfd]
    exact hcovers.of_le fun e he => ⟨e, htimers e he, le_rfl⟩
  constructor
  · rintro hnone ⟨e, he⟩
    exact hcovers (h.idle (hidle hnone) ⟨e, htimers e he⟩)
  · intro b hb
    obtain ⟨b', hb', hnow⟩ := hhandling b hb
    obtain ⟨hpos, hearly⟩ := h.handling b' hb'
    refine ⟨hnow ▸ hpos, ?_⟩
    rintro ⟨e, he, hle⟩
    exact hcovers (hearly ⟨e, htimers e he, hle⟩)

/-- A timer is added: it is the earliest, and the timerfd is armed for it, or an earlier one was there. -/
theorem Arming.addTimerInLoop (hgood : Good s place) (hgood' : Good t place') (h : Arming s) {p : Address}
    {clock : Timestamp} (heffect : Effect s place (.addTimerInLoop p clock) t place') : Arming t := by
  obtain ⟨-, -, hplace, hheap, -, hhandling, hfd⟩ := heffect
  have htimers : ∀ e ∈ t.timers, e = s.entry p ∨ e ∈ s.timers := by
    intro e he
    obtain ⟨hqueued, hentry⟩ := (hgood'.timers e).1 he
    rw [entry_congr (congrFun hheap _)] at hentry
    by_cases hp : (ofLex e).2 = p
    · rw [hp] at hentry
      exact .inl hentry
    · rw [hplace, Function.update_of_ne hp] at hqueued
      exact .inr ((hgood.timers e).2 ⟨hqueued, hentry⟩)
  by_cases hchanged : s.earliestChanged (s.timer p).expiration
  · have hcovers : Covers t.timerfd t.timers := by
      rw [hfd, if_pos hchanged]
      refine covers_resetTimerfd _ clock fun e he => ?_
      rcases htimers e he with rfl | he
      · exact le_rfl
      · unfold earliestChanged at hchanged
        split at hchanged
        case h_1 hbegin => exact absurd he (OrderedSet.begin?_eq_none.1 hbegin e)
        case h_2 it hbegin =>
          have hlt : (s.timer p).expiration < (ofLex it).1 := of_decide_eq_true hchanged
          have hle : (ofLex it).1 ≤ (ofLex e).1 := Prod.Lex.monotone_fst _ _ (OrderedSet.begin?_le hbegin he)
          exact hlt.le.trans hle
    exact ⟨fun _ _ => hcovers, fun b hb => ⟨(h.handling b (hhandling ▸ hb)).1, fun _ => hcovers⟩⟩
  · rw [if_neg hchanged] at hfd
    obtain ⟨it, hit, hle⟩ : ∃ it ∈ s.timers, (ofLex it).1 ≤ (ofLex (s.entry p)).1 := by
      unfold earliestChanged at hchanged
      split at hchanged
      case h_1 => exact absurd rfl hchanged
      case h_2 it hbegin =>
        exact ⟨it, OrderedSet.mem_of_begin? hbegin, not_lt.1 fun hlt => hchanged (decide_eq_true hlt)⟩
    have hbefore : ∀ e ∈ t.timers, ∃ e' ∈ s.timers, (ofLex e').1 ≤ (ofLex e).1 := by
      intro e he
      rcases htimers e he with rfl | he
      · exact ⟨it, hit, hle⟩
      · exact ⟨e, he, le_rfl⟩
    constructor
    · intro hnone _
      rw [hfd]
      exact (h.idle (hhandling ▸ hnone) ⟨it, hit⟩).of_le hbefore
    · intro b hb
      obtain ⟨hpos, hearly⟩ := h.handling b (hhandling ▸ hb)
      refine ⟨hpos, ?_⟩
      rintro ⟨e, he, hle⟩
      obtain ⟨e', he', hle'⟩ := hbefore e he
      rw [hfd]
      exact (hearly ⟨e', he', hle'.trans hle⟩).of_le hbefore

/-- All that are queued after `getExpired` are later than the time it was given. -/
theorem Arming.handleRead (hgood' : Good t place') {now : Timestamp} (hnow : 0 < now)
    (heffect : Effect s place (.handleRead now) t place') : Arming t := by
  obtain ⟨-, hplace, hheap, -, -, expired, hhandling⟩ := heffect
  refine ⟨fun hnone => ?_, fun b hb => ?_⟩
  · rw [hhandling] at hnone
    cases hnone
  · rw [hhandling] at hb
    obtain rfl := Option.some.inj hb
    refine ⟨hnow, ?_⟩
    rintro ⟨e, he, hle⟩
    obtain ⟨hqueued, hentry⟩ := (hgood'.timers e).1 he
    rw [hplace, expire_eq_queued_iff] at hqueued
    rw [hentry, entry_congr (congrFun hheap _)] at hle
    exact absurd (hle.trans hnow.le) (not_le.2 hqueued.2)

/-- `reset` arms for the earliest timer if that is valid. If it is not, then it was queued already. -/
theorem Arming.reset (hgood : Good s place) (hgood' : Good t place') (h : Arming s) {clock : Timestamp}
    (heffect : Effect s place (.reset clock) t place') : Arming t := by
  obtain ⟨now, expired, hhandling, hplace, hheap, -, hnone, hfd⟩ := heffect
  obtain ⟨hpos, hearly⟩ := h.handling _ hhandling
  have htimers : ∀ e ∈ t.timers, e ∈ s.timers ∨ now ≤ (ofLex e).1 := by
    intro e he
    obtain ⟨hqueued, hentry⟩ := (hgood'.timers e).1 he
    have hheap := hheap (ofLex e).2
    rw [hplace] at hqueued
    have hqueued : (if place (ofLex e).2 = .expired then s.settlePlace (ofLex e).2 else place (ofLex e).2) =
        .queued := hqueued
    by_cases hexpired : place (ofLex e).2 = .expired
    · rw [if_pos hexpired, settlePlace] at hqueued
      rw [if_pos hexpired, settle] at hheap
      split at hqueued
      case isFalse => cases hqueued
      case isTrue hrepeats =>
        rw [if_pos hrepeats] at hheap
        refine .inr ?_
        rw [hentry, entry, timer, hheap]
        obtain ⟨interval, hinterval⟩ := Option.isSome_iff_exists.1 hrepeats
        show now ≤ ((s.timer (ofLex e).2).restart now).expiration
        simp only [Timer.restart, hinterval]
        exact Int.le_add_of_nonneg_right (Int.natCast_nonneg interval)
    · rw [if_neg hexpired] at hqueued hheap
      rw [entry_congr hheap] at hentry
      exact .inl ((hgood.timers e).2 ⟨hqueued, hentry⟩)
  refine ⟨fun _ hne => ?_, fun b hb => ?_⟩
  · rw [hfd, rearmed]
    split
    case h_1 it hbegin =>
      have hfirst : ∀ e ∈ t.timers, (ofLex it).1 ≤ (ofLex e).1 :=
        fun e he => Prod.Lex.monotone_fst _ _ (OrderedSet.begin?_le hbegin he)
      split
      case isTrue => exact covers_resetTimerfd _ clock hfirst
      case isFalse hvalid =>
        have hle : (ofLex it).1 ≤ 0 := not_lt.1 fun hlt => hvalid (decide_eq_true hlt)
        have hit : it ∈ s.timers := by
          rcases htimers it (OrderedSet.mem_of_begin? hbegin) with hit | hlate
          · exact hit
          · exact absurd hpos (not_lt.2 (hlate.trans hle))
        exact (hearly ⟨it, hit, hle⟩).of_le fun e he => ⟨it, hit, hfirst e he⟩
    case h_2 hbegin =>
      obtain ⟨e, he⟩ := hne
      exact absurd he (OrderedSet.begin?_eq_none.1 hbegin e)
  · rw [hnone] at hb
    cases hb

def ArmingInv (s : TimerQueue) : Prop := Inv s ∧ Arming s

theorem arming_step (s : TimerQueue) (a : Action) (t : TimerQueue) (hvalid : ReadsValid s a)
    (hstep : machine.step s a = some t) : ArmingInv s → ArmingInv t := by
  rintro ⟨⟨place, hgood⟩, h⟩
  obtain ⟨place', hgood', heffect⟩ := step_good hgood hstep
  refine ⟨⟨place', hgood'⟩, ?_⟩
  cases a with
  | new p when interval =>
    obtain ⟨-, -, rfl⟩ := heffect
    exact h.of_subset (fun _ he => he) rfl (fun b hb => ⟨b, hb, rfl⟩) id
  | addTimerInLoop p clock => exact h.addTimerInLoop hgood hgood' heffect
  | cancelInLoop id =>
    obtain ⟨-, -, hhandling, hfd, ⟨-, -, rfl, hheap⟩ | ⟨-, rfl, rfl⟩⟩ := heffect
    · refine h.of_subset (fun e he => ?_) hfd (fun b hb => ⟨b, hhandling ▸ hb, rfl⟩) fun hnone => hhandling ▸ hnone
      obtain ⟨hqueued, hentry⟩ := (hgood'.timers e).1 he
      have hne : (ofLex e).2 ≠ id.timer := by
        intro heq
        rw [heq, Function.update_self] at hqueued
        cases hqueued
      rw [Function.update_of_ne hne] at hqueued
      rw [entry_of_ne hheap hne] at hentry
      exact (hgood.timers e).2 ⟨hqueued, hentry⟩
    · exact h
  | handleRead now => exact Arming.handleRead hgood' (of_decide_eq_true hvalid) heffect
  | run =>
    obtain ⟨-, now, expired, e, rest, hhandling, rfl⟩ := heffect
    refine h.of_subset (fun _ he => he) rfl (fun b hb => ?_) nofun
    obtain rfl := Option.some.inj hb
    exact ⟨_, hhandling, rfl⟩
  | reset clock => exact h.reset hgood hgood' heffect
  | fire =>
    obtain ⟨-, -, rfl⟩ := heffect
    exact ⟨fun _ _ => .inl rfl, fun b hb => ⟨(h.handling b hb).1, fun _ => .inl rfl⟩⟩

theorem arming_init : ArmingInv init := by
  refine ⟨inv_init, fun _ => ?_, nofun⟩
  rintro ⟨e, he⟩
  exact absurd he (OrderedSet.not_mem_empty e)

end Lemmas

/-- **After every operation no timer sleeps**, if every `handleRead` reads a valid time. -/
theorem awake_of_run {l : List Action} {s : TimerQueue} (h : machine.Run ReadsValid init l s)
    (htop : s.handling = none) : Awake s :=
  (h.invariant arming_step arming_init).2.idle htop

/-- A callback adds a timer for the past, and the clock goes back while it runs. -/
theorem awake_of_run_sample :
    ∃ s, machine.Run ReadsValid init [.new 8 5 (some 3), .addTimerInLoop 8 1, .fire, .handleRead 6, .new 16 (-2) none,
      .run, .addTimerInLoop 16 4, .reset 4] s ∧ Awake s := by
  obtain ⟨s, hrun, hnone⟩ : ∃ s, machine.Run ReadsValid init [.new 8 5 (some 3), .addTimerInLoop 8 1, .fire,
      .handleRead 6, .new 16 (-2) none, .run, .addTimerInLoop 16 4, .reset 4] s ∧ s.handling = none :=
    ⟨_, .cons trivial rfl (.cons trivial rfl (.cons trivial rfl (.cons rfl rfl (.cons trivial rfl (.cons trivial rfl
      (.cons trivial rfl (.cons trivial rfl (.nil _)))))))), rfl⟩
  exact ⟨s, hrun, awake_of_run hrun hnone⟩

/-- At the epoch, a timer that repeats every 0 microseconds is queued for a time that is not valid. -/
theorem sleeping_timer :
    ∃ s, machine.Run (fun _ _ => True) init [.new 8 0 (some 0), .addTimerInLoop 8 0, .fire, .handleRead 0, .run,
      .reset 0] s ∧ s.handling = none ∧ ¬ Awake s := by
  obtain ⟨s, hrun, hnone, htimers, hfd⟩ : ∃ s, machine.Run (fun _ _ => True) init [.new 8 0 (some 0),
      .addTimerInLoop 8 0, .fire, .handleRead 0, .run, .reset 0] s ∧ s.handling = none ∧
      s.timers.toList = [toLex (0, 8)] ∧ s.timerfd = .disarmed := ⟨_, Machine.run_of_exec rfl, rfl, rfl, rfl⟩
  refine ⟨s, hrun, hnone, fun hawake => ?_⟩
  have hmem : (toLex (0, 8) : Entry) ∈ s.timers := by
    rw [OrderedSet.mem_def, htimers]
    exact List.mem_cons_self
  rcases hawake ⟨_, hmem⟩ with hfired | ⟨value, expiration, harmed, -⟩
  · rw [hfd] at hfired
    cases hfired
  · rw [hfd] at harmed
    cases harmed

end TimerQueue

end Chatroom.Net
