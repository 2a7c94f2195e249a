import Chatroom.Net.TimerQueue

/-!
# The two sets of a `TimerQueue`

`Rep` says where each timer is (`Place`): `m_timers` and `m_activeTimers` hold the queued ones, each by its present
expiration and by its sequence number. Every operation moves timers from place to place and fails no assertion.
-/

namespace Chatroom.Net.TimerQueue

open Lib

inductive Place where
  /-- no timer is at the address -/
  | free
  /-- it waits for its `addTimerInLoop` -/
  | created
  | queued
  /-- `getExpired` has taken it out -/
  | expired
  deriving DecidableEq

structure Rep (s : TimerQueue) (place : Address → Place) : Prop where
  heap : ∀ p, (s.heap p).isSome ↔ place p ≠ .free
  bound : ∀ p, place p ≠ .free → p < UINTPTR_MAX
  timers : ∀ e, e ∈ s.timers ↔ place (ofLex e).2 = .queued ∧ e = s.entry (ofLex e).2
  activeTimers : ∀ a, a ∈ s.activeTimers ↔ place (ofLex a).1 = .queued ∧ a = s.activeTimer (ofLex a).1
  canceling : ∀ a, a ∉ s.cancelingTimers
  asserted : s.asserted = true

theorem assert_eq {s : TimerQueue} {b : Prop} [Decidable b] (h : b) : s.assert b = s := by
  simp [assert, h]

section Lemmas

variable {s : TimerQueue} {place : Address → Place} {p : Address}

namespace Rep

theorem entry_mem_iff (h : Rep s place) (p : Address) : s.entry p ∈ s.timers ↔ place p = .queued := by
  rw [h.timers]
  exact ⟨fun h => h.1, fun h => ⟨h, rfl⟩⟩

theorem activeTimer_mem_iff (h : Rep s place) (p : Address) : s.activeTimer p ∈ s.activeTimers ↔ place p = .queued := by
  rw [h.activeTimers]
  exact ⟨fun h => h.1, fun h => ⟨h, rfl⟩⟩

/-- Both sets have one element for each queued timer. -/
theorem sizes (h : Rep s place) : s.timers.size = s.activeTimers.size := by
  refine OrderedSet.size_eq (f := fun e : Entry => (ofLex e).2) (g := fun a : ActiveTimer => (ofLex a).1) ?_ ?_ ?_
  · intro e he e' he' heq
    have heq : (ofLex e).2 = (ofLex e').2 := heq
    rw [((h.timers e).1 he).2, ((h.timers e').1 he').2, heq]
  · intro a ha a' ha' heq
    have heq : (ofLex a).1 = (ofLex a').1 := heq
    rw [((h.activeTimers a).1 ha).2, ((h.activeTimers a').1 ha').2, heq]
  · intro p
    constructor
    · rintro ⟨e, he, rfl⟩
      exact ⟨_, (h.activeTimer_mem_iff _).2 ((h.timers e).1 he).1, rfl⟩
    · rintro ⟨a, ha, rfl⟩
      exact ⟨_, (h.entry_mem_iff _).2 ((h.activeTimers a).1 ha).1, rfl⟩

theorem assertSizes (h : Rep s place) : s.assertSizes = s := assert_eq h.sizes

theorem deref (h : Rep s place) (hp : place p ≠ .free) : s.deref p = s := assert_eq ((h.heap p).2 hp)

/-- Only the timers and the sets matter. -/
theorem congr (h : Rep s place) {t : TimerQueue} (hheap : t.heap = s.heap) (htimers : t.timers = s.timers)
    (hactive : t.activeTimers = s.activeTimers) (hcanceling : t.cancelingTimers = s.cancelingTimers)
    (hasserted : t.asserted = s.asserted) : Rep t place where
  heap := hheap ▸ h.heap
  bound := h.bound
  timers e := by
    rw [htimers, h.timers, entry, entry, timer, timer, hheap]
  activeTimers a := by
    rw [hactive, h.activeTimers, activeTimer, activeTimer, timer, timer, hheap]
  canceling := hcanceling ▸ h.canceling
  asserted := hasserted ▸ h.asserted

end Rep

/-! ## Changes of one timer -/

theorem timer_congr {t : TimerQueue} {q : Address} (h : t.heap q = s.heap q) : t.timer q = s.timer q := by
  rw [timer, h, timer]

theorem entry_congr {t : TimerQueue} {q : Address} (h : t.heap q = s.heap q) : t.entry q = s.entry q := by
  rw [entry, timer_congr h, entry]

theorem activeTimer_congr {t : TimerQueue} {q : Address} (h : t.heap q = s.heap q) :
    t.activeTimer q = s.activeTimer q := by
  rw [activeTimer, timer_congr h, activeTimer]

theorem heap_of_ne {t : TimerQueue} {x : Option Timer} (ht : t.heap = Function.update s.heap p x) {q : Address}
    (hq : q ≠ p) : t.heap q = s.heap q := by
  rw [ht, Function.update_of_ne hq]

theorem timer_of_ne {t : TimerQueue} {x : Option Timer} (ht : t.heap = Function.update s.heap p x) {q : Address}
    (hq : q ≠ p) : t.timer q = s.timer q :=
  timer_congr (heap_of_ne ht hq)

theorem entry_of_ne {t : TimerQueue} {x : Option Timer} (ht : t.heap = Function.update s.heap p x) {q : Address}
    (hq : q ≠ p) : t.entry q = s.entry q :=
  entry_congr (heap_of_ne ht hq)

theorem rep_init : Rep init fun _ => .free where
  heap p := by simp [init]
  bound p hp := absurd rfl hp
  timers e := by simp [init]
  activeTimers a := by simp [init]
  canceling a := by simp [init]
  asserted := rfl

namespace Rep

theorem not_mem_timers (h : Rep s place) (hp : place p ≠ .queued) {e : Entry} (he : (ofLex e).2 = p) :
    e ∉ s.timers := by
  rw [h.timers, he]
  exact fun hmem => hp hmem.1

theorem not_mem_activeTimers (h : Rep s place) (hp : place p ≠ .queued) {a : ActiveTimer} (ha : (ofLex a).1 = p) :
    a ∉ s.activeTimers := by
  rw [h.activeTimers, ha]
  exact fun hmem => hp hmem.1

/-- The timer at one address changes, with its elements in the sets. -/
theorem update (h : Rep s place) {t : TimerQueue} {c : Place} (hheap : ∀ q, q ≠ p → t.heap q = s.heap q)
    (hself : (t.heap p).isSome ↔ c ≠ .free) (hbound : c ≠ .free → p < UINTPTR_MAX)
    (htimers : ∀ e, e ∈ t.timers ↔ if (ofLex e).2 = p then c = .queued ∧ e = t.entry p else e ∈ s.timers)
    (hactive : ∀ a, a ∈ t.activeTimers ↔
      if (ofLex a).1 = p then c = .queued ∧ a = t.activeTimer p else a ∈ s.activeTimers)
    (hcanceling : t.cancelingTimers = s.cancelingTimers) (hasserted : t.asserted = s.asserted) :
    Rep t (Function.update place p c) := by
  constructor
  · intro q
    by_cases hq : q = p
    · subst hq
      rw [Function.update_self, hself]
    · rw [Function.update_of_ne hq, hheap q hq, h.heap]
  · intro q
    by_cases hq : q = p
    · subst hq
      rw [Function.update_self]
      exact hbound
    · rw [Function.update_of_ne hq]
      exact h.bound q
  · intro e
    rw [htimers]
    by_cases hq : (ofLex e).2 = p
    · rw [if_pos hq, hq, Function.update_self]
    · rw [if_neg hq, Function.update_of_ne hq, h.timers, entry_congr (hheap _ hq)]
  · intro a
    rw [hactive]
    by_cases hq : (ofLex a).1 = p
    · rw [if_pos hq, hq, Function.update_self]
    · rw [if_neg hq, Function.update_of_ne hq, h.activeTimers, activeTimer_congr (hheap _ hq)]
  · rw [hcanceling]
    exact h.canceling
  · rw [hasserted]
    exact h.asserted

/-- A timer outside the sets goes, comes or changes. -/
theorem update_heap (h : Rep s place) (hqueued : place p ≠ .queued) {x : Option Timer} {c : Place}
    (hx : x.isSome ↔ c ≠ .free) (hc : c ≠ .queued) (hbound : c ≠ .free → p < UINTPTR_MAX) {t : TimerQueue}
    (ht : t = { s with heap := Function.update s.heap p x }) : Rep t (Function.update place p c) := by
  subst ht
  refine h.update (fun q hq => Function.update_of_ne hq _ _) ?_ hbound (fun e => ?_) (fun a => ?_) rfl rfl
  · show (Function.update s.heap p x p).isSome ↔ _
    rw [Function.update_self, hx]
  · split
    case isTrue he => exact iff_of_false (h.not_mem_timers hqueued he) fun hmem => hc hmem.1
    case isFalse => rfl
  · split
    case isTrue ha => exact iff_of_false (h.not_mem_activeTimers hqueued ha) fun hmem => hc hmem.1
    case isFalse => rfl

end Rep

/-- **`insert`** queues a timer that exists and is not queued. -/
theorem insert_eq (h : Rep s place) (hlive : place p ≠ .free) (hqueued : place p ≠ .queued) :
    s.insert p = { s with
      timers := s.timers.insert (s.entry p), activeTimers := s.activeTimers.insert (s.activeTimer p) } ∧
    Rep (s.insert p) (Function.update place p .queued) := by
  have hrep : Rep { s with
      timers := s.timers.insert (s.entry p), activeTimers := s.activeTimers.insert (s.activeTimer p) }
      (Function.update place p .queued) := by
    refine h.update (fun _ _ => rfl) ?_ (fun _ => h.bound p hlive) (fun e => ?_) (fun a => ?_) rfl rfl
    · exact iff_of_true ((h.heap p).2 hlive) (by decide)
    · show e ∈ s.timers.insert (s.entry p) ↔ if _ then _ ∧ e = s.entry p else _
      rw [OrderedSet.mem_insert]
      split
      case isTrue he => simp [h.not_mem_timers hqueued he]
      case isFalse he =>
        refine or_iff_right fun heq => he ?_
        rw [heq]
        rfl
    · show a ∈ s.activeTimers.insert (s.activeTimer p) ↔ if _ then _ ∧ a = s.activeTimer p else _
      rw [OrderedSet.mem_insert]
      split
      case isTrue ha => simp [h.not_mem_activeTimers hqueued ha]
      case isFalse ha =>
        refine or_iff_right fun heq => ha ?_
        rw [heq]
        rfl
  have heq : s.insert p = { s with
      timers := s.timers.insert (s.entry p), activeTimers := s.activeTimers.insert (s.activeTimer p) } := by
    have hentry : s.entry p ∉ s.timers := h.not_mem_timers hqueued rfl
    have hactive : s.activeTimer p ∉ s.activeTimers := h.not_mem_activeTimers hqueued rfl
    simp only [insert]
    rw [h.deref hlive, h.assertSizes, assert_eq hentry]
    have hactive' : activeTimer { s with timers := s.timers.insert (s.entry p) } p ∉ s.activeTimers := hactive
    rw [assert_eq (s := { s with timers := s.timers.insert (s.entry p) }) hactive']
    exact hrep.assertSizes
  exact ⟨heq, heq ▸ hrep⟩

/-- **`cancelInLoop`** takes out and deletes a queued timer that the id names by address and number; any other id
changes nothing. -/
theorem cancelInLoop_eq (h : Rep s place) (id : TimerId) :
    (place id.timer = .queued ∧ id.seq = (s.timer id.timer).sequence ∧
      s.cancelInLoop id = { s.delete id.timer with
        timers := s.timers.erase (s.entry id.timer), activeTimers := s.activeTimers.erase (s.activeTimer id.timer) } ∧
      Rep (s.cancelInLoop id) (Function.update place id.timer .free)) ∨
    (¬ (place id.timer = .queued ∧ id.seq = (s.timer id.timer).sequence) ∧ s.cancelInLoop id = s) := by
  have hmem : (toLex (id.timer, id.seq) : ActiveTimer) ∈ s.activeTimers ↔
      place id.timer = .queued ∧ id.seq = (s.timer id.timer).sequence := by
    rw [h.activeTimers]
    simp [activeTimer]
  simp only [cancelInLoop]
  rw [h.assertSizes]
  by_cases hin : (toLex (id.timer, id.seq) : ActiveTimer) ∈ s.activeTimers
  · obtain ⟨hqueued, hseq⟩ := hmem.1 hin
    have hlive : place id.timer ≠ .free := by
      rw [hqueued]
      decide
    have hactive : (toLex (id.timer, id.seq) : ActiveTimer) = s.activeTimer id.timer := by
      rw [activeTimer, hseq]
    rw [if_pos hin, h.deref hlive, assert_eq ((h.entry_mem_iff id.timer).2 hqueued), hactive]
    refine .inl ⟨hqueued, hseq, rfl, ?_⟩
    refine h.update (fun q hq => Function.update_of_ne hq _ _) ?_ nofun (fun e => ?_) (fun a => ?_) rfl rfl
    · show (Function.update s.heap id.timer none id.timer).isSome ↔ _
      simp
    · show e ∈ s.timers.erase (s.entry id.timer) ↔ _
      rw [OrderedSet.mem_erase]
      split
      case isTrue he =>
        refine iff_of_false (fun hmem => hmem.1 ?_) fun hmem => nomatch hmem.1
        rw [((h.timers e).1 hmem.2).2, he]
      case isFalse he =>
        refine and_iff_right fun heq => he ?_
        rw [heq]
        rfl
    · show a ∈ s.activeTimers.erase (s.activeTimer id.timer) ↔ _
      rw [OrderedSet.mem_erase]
      split
      case isTrue ha =>
        refine iff_of_false (fun hmem => hmem.1 ?_) fun hmem => nomatch hmem.1
        rw [((h.activeTimers a).1 hmem.2).2, ha]
      case isFalse ha =>
        refine and_iff_right fun heq => ha ?_
        rw [heq]
        rfl
  · rw [if_neg hin]
    refine .inr ⟨fun hid => hin (hmem.2 hid), ?_⟩
    split
    case isTrue => rw [if_neg (h.canceling _)]
    case isFalse => rfl

/-! ## `getExpired` -/

theorem lt_sentry_iff {e : Entry} {now : Timestamp} (h : (ofLex e).2 < UINTPTR_MAX) :
    e < sentry now ↔ (ofLex e).1 ≤ now := by
  rw [Prod.Lex.lt_iff, sentry, ofLex_toLex, le_iff_lt_or_eq]
  simp [h]

/-- Expired entries are taken out of `m_activeTimers`. -/
theorem foldl_deactivate {l : List Entry} (hnodup : (l.map fun e => (ofLex e).2).Nodup)
    (hmem : ∀ e ∈ l, (s.heap (ofLex e).2).isSome ∧ s.activeTimer (ofLex e).2 ∈ s.activeTimers) :
    ∃ active, l.foldl deactivate s = { s with activeTimers := active } ∧
      ∀ a, a ∈ active ↔ a ∈ s.activeTimers ∧ ∀ e ∈ l, a ≠ s.activeTimer (ofLex e).2 := by
  induction l generalizing s with
  | nil => exact ⟨s.activeTimers, rfl, by simp⟩
  | cons e l ih =>
    rw [List.map_cons, List.nodup_cons] at hnodup
    obtain ⟨hhead, htail⟩ := List.forall_mem_cons.1 hmem
    have hdeactivate : s.deactivate e =
        { s with activeTimers := s.activeTimers.erase (s.activeTimer (ofLex e).2) } := by
      have hderef : s.deref (ofLex e).2 = s := assert_eq hhead.1
      simp [deactivate, hderef, assert, hhead.2]
    obtain ⟨active, hfold, hactive⟩ := ih (s := s.deactivate e) hnodup.2 fun e' he' => by
      rw [hdeactivate]
      refine ⟨(htail e' he').1, OrderedSet.mem_erase.2 ⟨fun heq => hnodup.1 ?_, (htail e' he').2⟩⟩
      have hp : (ofLex e').2 = (ofLex e).2 := congrArg (fun a : ActiveTimer => (ofLex a).1) heq
      exact hp ▸ List.mem_map_of_mem he'
    refine ⟨active, ?_, fun a => ?_⟩
    · rw [List.foldl_cons, hfold, hdeactivate]
    · rw [hactive, List.forall_mem_cons, hdeactivate]
      show (a ∈ s.activeTimers.erase _ ∧ ∀ e' ∈ l, a ≠ s.activeTimer (ofLex e').2) ↔ _
      rw [OrderedSet.mem_erase]
      tauto

/-- Where the timers are after `getExpired`. -/
def expire (s : TimerQueue) (now : Timestamp) (place : Address → Place) (p : Address) : Place :=
  if place p = .queued ∧ (s.timer p).expiration ≤ now then .expired else place p

theorem expire_eq_queued_iff {now : Timestamp} {p : Address} :
    s.expire now place p = .queued ↔ place p = .queued ∧ now < (s.timer p).expiration := by
  unfold expire
  split
  case isTrue hdue => exact ⟨nofun, fun h => absurd hdue.2 (not_le.2 h.2)⟩
  case isFalse hdue => exact ⟨fun h => ⟨h, not_le.1 fun hle => hdue ⟨h, hle⟩⟩, fun h => h.1⟩

theorem expire_eq_iff {now : Timestamp} {c : Place} (hqueued : c ≠ .queued) (hexpired : c ≠ .expired) (p : Address) :
    s.expire now place p = c ↔ place p = c := by
  unfold expire
  split
  case isTrue hdue =>
    rw [hdue.1]
    exact ⟨fun h => absurd h.symm hexpired, fun h => absurd h.symm hqueued⟩
  case isFalse => rfl

theorem expire_of_queued {now : Timestamp} {p : Address} (hqueued : place p = .queued) :
    s.expire now place p = .expired ↔ (s.timer p).expiration ≤ now := by
  unfold expire
  split
  case isTrue hdue => exact iff_of_true rfl hdue.2
  case isFalse hdue =>
    rw [hqueued]
    exact iff_of_false nofun fun hle => hdue ⟨hqueued, hle⟩

theorem Rep.lt_sentry_iff (h : Rep s place) {now : Timestamp} {e : Entry} (he : e ∈ s.timers) :
    e < sentry now ↔ (s.timer (ofLex e).2).expiration ≤ now := by
  obtain ⟨hqueued, heq⟩ := (h.timers e).1 he
  have hbound : (ofLex e).2 < UINTPTR_MAX := h.bound _ (by rw [hqueued]; decide)
  rw [TimerQueue.lt_sentry_iff hbound, heq]
  rfl

theorem Rep.mem_below_iff (h : Rep s place) {now : Timestamp} {e : Entry} :
    e ∈ s.timers.below (sentry now) ↔
      s.expire now place (ofLex e).2 = .expired ∧ place (ofLex e).2 = .queued ∧ e = s.entry (ofLex e).2 := by
  rw [OrderedSet.mem_below]
  constructor
  · rintro ⟨he, hlt⟩
    obtain ⟨hqueued, heq⟩ := (h.timers e).1 he
    exact ⟨(expire_of_queued hqueued).2 ((h.lt_sentry_iff he).1 hlt), hqueued, heq⟩
  · rintro ⟨hexpired, hqueued, heq⟩
    have he : e ∈ s.timers := (h.timers e).2 ⟨hqueued, heq⟩
    exact ⟨he, (h.lt_sentry_iff he).2 ((expire_of_queued hqueued).1 hexpired)⟩

theorem Rep.mem_dropBelow_iff (h : Rep s place) {now : Timestamp} {e : Entry} :
    e ∈ s.timers.dropBelow (sentry now) ↔ s.expire now place (ofLex e).2 = .queued ∧ e = s.entry (ofLex e).2 := by
  rw [OrderedSet.mem_dropBelow, expire_eq_queued_iff]
  constructor
  · rintro ⟨he, hlt⟩
    obtain ⟨hqueued, heq⟩ := (h.timers e).1 he
    exact ⟨⟨hqueued, not_le.1 fun hle => not_lt.2 hlt ((h.lt_sentry_iff he).2 hle)⟩, heq⟩
  · rintro ⟨⟨hqueued, hlt⟩, heq⟩
    have he : e ∈ s.timers := (h.timers e).2 ⟨hqueued, heq⟩
    exact ⟨he, not_lt.1 fun hbelow => not_le.2 hlt ((h.lt_sentry_iff he).1 hbelow)⟩

/-- Two entries taken out are entries of two timers. -/
theorem Rep.nodup_below (h : Rep s place) (now : Timestamp) :
    ((s.timers.below (sentry now)).map fun e => (ofLex e).2).Nodup := by
  refine List.Nodup.map_on ?_ ((s.timers.sorted_below _).imp fun hlt => hlt.ne)
  intro e he e' he' heq
  rw [(h.mem_below_iff.1 he).2.2, (h.mem_below_iff.1 he').2.2, heq]

theorem Rep.endsAfter_dropBelow (h : Rep s place) (now : Timestamp) :
    EndsAfter now (s.timers.dropBelow (sentry now)) := by
  intro it hit
  obtain ⟨hqueued, heq⟩ := h.mem_dropBelow_iff.1 (OrderedSet.mem_of_begin? hit)
  rw [heq]
  exact (expire_eq_queued_iff.1 hqueued).2

/-- The sets that `getExpired` leaves hold the timers that are not due. -/
theorem Rep.expire (h : Rep s place) {now : Timestamp} {active : OrderedSet ActiveTimer}
    (hactive : ∀ a, a ∈ active ↔
      a ∈ s.activeTimers ∧ ∀ e ∈ s.timers.below (sentry now), a ≠ s.activeTimer (ofLex e).2) :
    Rep { s with timers := s.timers.dropBelow (sentry now), activeTimers := active } (s.expire now place) := by
  have hfree : ∀ p, s.expire now place p = .free ↔ place p = .free := expire_eq_iff (by decide) (by decide)
  constructor
  · exact fun p => (h.heap p).trans (not_congr (hfree p).symm)
  · exact fun p hp => h.bound p (mt (hfree p).2 hp)
  · exact fun e => h.mem_dropBelow_iff
  · intro a
    rw [hactive, h.activeTimers, expire_eq_queued_iff]
    show (place (ofLex a).1 = .queued ∧ a = s.activeTimer (ofLex a).1) ∧ _ ↔ _ ∧ a = s.activeTimer (ofLex a).1
    rw [and_right_comm]
    refine and_congr_left fun heq => and_congr_right fun hqueued => ?_
    constructor
    · intro hnone
      refine not_le.1 fun hle => hnone (s.entry (ofLex a).1) (h.mem_below_iff.2 ?_) heq
      exact ⟨(expire_of_queued hqueued).2 hle, hqueued, rfl⟩
    · intro hlt e he heq'
      have hp : (ofLex a).1 = (ofLex e).2 := congrArg (fun a : ActiveTimer => (ofLex a).1) heq'
      obtain ⟨hexpired, hqueued', -⟩ := h.mem_below_iff.1 he
      rw [hp] at hlt
      exact absurd ((expire_of_queued hqueued').1 hexpired) (not_le.2 hlt)
  · exact h.canceling
  · exact h.asserted

/-- **`getExpired`** takes out the timers that are due, in the order of their expirations. -/
theorem getExpired_eq (h : Rep s place) (now : Timestamp) :
    ∃ active, s.getExpired now = (s.timers.below (sentry now),
        { s with timers := s.timers.dropBelow (sentry now), activeTimers := active }) ∧
      Rep (s.getExpired now).2 (s.expire now place) ∧
      ∀ e, e ∈ s.timers.below (sentry now) ↔
        s.expire now place (ofLex e).2 = .expired ∧ place (ofLex e).2 = .queued ∧ e = s.entry (ofLex e).2 := by
  obtain ⟨active, hfold, hactive⟩ := foldl_deactivate
    (s := { s with timers := s.timers.dropBelow (sentry now) }) (h.nodup_below now) fun e he => by
      obtain ⟨-, hqueued, -⟩ := h.mem_below_iff.1 he
      exact ⟨(h.heap _).2 (by rw [hqueued]; decide), (h.activeTimer_mem_iff _).2 hqueued⟩
  have hrep := h.expire hactive
  have hget : s.getExpired now = (s.timers.below (sentry now),
      { s with timers := s.timers.dropBelow (sentry now), activeTimers := active }) := by
    simp only [getExpired]
    rw [h.assertSizes, assert_eq (h.endsAfter_dropBelow now), hfold]
    exact congrArg _ hrep.assertSizes
  exact ⟨active, hget, hget ▸ hrep, fun e => h.mem_below_iff⟩

/-! ## `reset` -/

/-- What `reset` makes of an expired timer. -/
def settle (s : TimerQueue) (now : Timestamp) (p : Address) : Option Timer :=
  if (s.timer p).repeats then some ((s.timer p).restart now) else none

def settlePlace (s : TimerQueue) (p : Address) : Place := if (s.timer p).repeats then .queued else .free

/-- The rest of the state is as before. -/
structure SameRest (s t : TimerQueue) : Prop where
  numCreated : t.numCreated = s.numCreated
  created : t.created = s.created
  callingExpiredTimers : t.callingExpiredTimers = s.callingExpiredTimers
  timerfd : t.timerfd = s.timerfd
  handling : t.handling = s.handling

theorem rearm_eq (h : Rep s place) {e : Entry} (hexpired : place (ofLex e).2 = .expired) (now : Timestamp) :
    Rep (s.rearm now e) (Function.update place (ofLex e).2 (s.settlePlace (ofLex e).2)) ∧
      (s.rearm now e).heap = Function.update s.heap (ofLex e).2 (s.settle now (ofLex e).2) ∧
      SameRest s (s.rearm now e) := by
  have hlive : place (ofLex e).2 ≠ .free := by
    rw [hexpired]
    decide
  have hqueued : place (ofLex e).2 ≠ .queued := by
    rw [hexpired]
    decide
  simp only [rearm]
  rw [h.deref hlive]
  by_cases hrepeats : (s.timer (ofLex e).2).repeats
  · rw [if_pos ⟨hrepeats, h.canceling _⟩, settlePlace, if_pos hrepeats, settle, if_pos hrepeats]
    have hrep := h.update_heap hqueued (x := some ((s.timer (ofLex e).2).restart now)) (c := .expired) (by simp)
      (by decide) (fun _ => h.bound _ hlive) rfl
    obtain ⟨heq, hrep'⟩ := insert_eq (p := (ofLex e).2) hrep (by simp) (by simp)
    rw [Function.update_idem] at hrep'
    refine ⟨hrep', ?_, ?_⟩
    · rw [heq]
    · rw [heq]
      exact ⟨rfl, rfl, rfl, rfl, rfl⟩
  · rw [if_neg fun h => hrepeats h.1, settlePlace, if_neg hrepeats, settle, if_neg hrepeats]
    refine ⟨h.update_heap hqueued (by simp) (by decide) (fun h => absurd rfl h) rfl, rfl, rfl, rfl, rfl, rfl, rfl⟩

theorem foldl_rearm {l : List Entry} (h : Rep s place) (hnodup : (l.map fun e => (ofLex e).2).Nodup)
    (hexpired : ∀ e ∈ l, place (ofLex e).2 = .expired) (now : Timestamp) :
    Rep (l.foldl (rearm · now) s) (fun p => if p ∈ l.map (fun e => (ofLex e).2) then s.settlePlace p else place p) ∧
      (∀ p, (l.foldl (rearm · now) s).heap p =
        if p ∈ l.map (fun e => (ofLex e).2) then s.settle now p else s.heap p) ∧
      SameRest s (l.foldl (rearm · now) s) := by
  induction l generalizing s place with
  | nil => exact ⟨by simpa using h, by simp, rfl, rfl, rfl, rfl, rfl⟩
  | cons e l ih =>
    rw [List.map_cons, List.nodup_cons] at hnodup
    obtain ⟨hhead, htail⟩ := List.forall_mem_cons.1 hexpired
    obtain ⟨hrep, hheap, hsame⟩ := rearm_eq h hhead now
    have hne : ∀ p ∈ l.map (fun e => (ofLex e).2), p ≠ (ofLex e).2 := by
      rintro p hp rfl
      exact hnodup.1 hp
    have htimer : ∀ p ∈ l.map (fun e => (ofLex e).2), (s.rearm now e).timer p = s.timer p :=
      fun p hp => timer_of_ne hheap (hne p hp)
    obtain ⟨hrep', hheap', hsame'⟩ := ih hrep hnodup.2 fun e' he' => by
      rw [Function.update_of_ne (hne _ (List.mem_map_of_mem he'))]
      exact htail e' he'
    refine ⟨?_, fun p => ?_, ?_⟩
    · refine cast (congrArg _ (funext fun p => ?_)) hrep'
      by_cases hp : p ∈ l.map fun e => (ofLex e).2
      · rw [if_pos hp, if_pos (by simp [hp]), settlePlace, htimer p hp, settlePlace]
      · rw [if_neg hp]
        by_cases heq : p = (ofLex e).2
        · subst heq
          rw [Function.update_self, if_pos (by simp)]
        · rw [Function.update_of_ne heq, if_neg (by simpa [heq] using hp)]
    · rw [List.foldl_cons, hheap']
      by_cases hp : p ∈ l.map fun e => (ofLex e).2
      · rw [if_pos hp, if_pos (by simp [hp]), settle, htimer p hp, settle]
      · rw [if_neg hp, hheap]
        by_cases heq : p = (ofLex e).2
        · subst heq
          rw [Function.update_self, if_pos (by simp)]
        · rw [Function.update_of_ne heq, if_neg (by simpa [heq] using hp)]
    · exact ⟨hsame'.numCreated.trans hsame.numCreated, hsame'.created.trans hsame.created,
        hsame'.callingExpiredTimers.trans hsame.callingExpiredTimers, hsame'.timerfd.trans hsame.timerfd,
        hsame'.handling.trans hsame.handling⟩

/-- The descriptor after `reset`, by the timers that are queued then. -/
def rearmed (timers : OrderedSet Entry) (fd : Timerfd) (clock : Timestamp) : Timerfd :=
  match timers.begin? with
  | some it => if (ofLex it).1.valid then fd.resetTimerfd (ofLex it).1 clock else fd
  | none => fd

/-- **`reset`** queues the repeating ones of the expired timers again and deletes the others. -/
theorem reset_eq {l : List Entry} (h : Rep s place) (hnodup : (l.map fun e => (ofLex e).2).Nodup)
    (hexpired : ∀ e ∈ l, place (ofLex e).2 = .expired) (now clock : Timestamp) :
    Rep (s.reset l now clock) (fun p => if p ∈ l.map (fun e => (ofLex e).2) then s.settlePlace p else place p) ∧
      (∀ p, (s.reset l now clock).heap p =
        if p ∈ l.map (fun e => (ofLex e).2) then s.settle now p else s.heap p) ∧
      (s.reset l now clock).numCreated = s.numCreated ∧ (s.reset l now clock).created = s.created ∧
      (s.reset l now clock).callingExpiredTimers = s.callingExpiredTimers ∧
      (s.reset l now clock).timerfd = rearmed (s.reset l now clock).timers s.timerfd clock := by
  obtain ⟨hrep, hheap, hsame⟩ := foldl_rearm h hnodup hexpired now
  cases hbegin : (l.foldl (rearm · now) s).timers.begin? with
  | none =>
    have hreset : s.reset l now clock = l.foldl (rearm · now) s := by
      simp only [reset, hbegin]
    rw [hreset]
    refine ⟨hrep, hheap, hsame.numCreated, hsame.created, hsame.callingExpiredTimers, ?_⟩
    simp only [rearmed, hbegin, hsame.timerfd]
  | some it =>
    obtain ⟨hqueued, hit⟩ := (hrep.timers it).1 (OrderedSet.mem_of_begin? hbegin)
    have hexpiration : ((l.foldl (rearm · now) s).timer (ofLex it).2).expiration = (ofLex it).1 :=
      (congrArg (fun e : Entry => (ofLex e).1) hit).symm
    have hreset : s.reset l now clock = if (ofLex it).1.valid then
        { l.foldl (rearm · now) s with timerfd := s.timerfd.resetTimerfd (ofLex it).1 clock }
        else l.foldl (rearm · now) s := by
      simp only [reset, hbegin]
      rw [hrep.deref (by rw [hqueued]; decide), hexpiration, hsame.timerfd]
    rw [hreset]
    split
    case isTrue hvalid =>
      refine ⟨hrep.congr rfl rfl rfl rfl rfl, hheap, hsame.numCreated, hsame.created, hsame.callingExpiredTimers, ?_⟩
      simp only [rearmed, hbegin, if_pos hvalid]
    case isFalse hvalid =>
      refine ⟨hrep, hheap, hsame.numCreated, hsame.created, hsame.callingExpiredTimers, ?_⟩
      simp only [rearmed, hbegin, if_neg hvalid, hsame.timerfd]

end Lemmas

end Chatroom.Net.TimerQueue
