import Chatroom.Net.TimerSets

/-!
# The steps of a `TimerQueue`

`Good` is the invariant: the timers are where `Rep` says, each has a sequence number of its own, and the timers that
`getExpired` has taken out are those of the `handleRead` that is under way, all due and in the order of their
expirations. `Effect` says what each step does to a good state, and every step keeps the state good.
-/

namespace Chatroom.Net.TimerQueue

open Lib

structure Batch (s : TimerQueue) (place : Address → Place) (h : Handling) : Prop where
  rest : h.rest <:+ h.expired
  sorted : h.expired.Pairwise (· < ·)
  due : ∀ e ∈ h.expired, place (ofLex e).2 = .expired ∧ e = s.entry (ofLex e).2 ∧ (ofLex e).1 ≤ h.now
  complete : ∀ p, place p = .expired → s.entry p ∈ h.expired

structure Good (s : TimerQueue) (place : Address → Place) : Prop extends Rep s place where
  nodup : s.created.Nodup
  created : ∀ p, p ∈ s.created ↔ place p = .created
  numCreated : 0 ≤ s.numCreated
  sequence : ∀ p, place p ≠ .free → 0 < (s.timer p).sequence ∧ (s.timer p).sequence ≤ s.numCreated
  unique : ∀ p q, place p ≠ .free → place q ≠ .free → (s.timer p).sequence = (s.timer q).sequence → p = q
  idle : s.handling = none → ∀ p, place p ≠ .expired
  batch : ∀ h ∈ s.handling, Batch s place h

def Effect (s : TimerQueue) (place : Address → Place) (a : Action) (t : TimerQueue)
    (place' : Address → Place) : Prop :=
  match a with
  | .new p when interval =>
    place p = .free ∧ place' = Function.update place p .created ∧
      t = { s with
        heap := Function.update s.heap p (some ⟨when, interval, s.numCreated + 1⟩)
        numCreated := s.numCreated + 1
        created := p :: s.created }
  | .addTimerInLoop p clock =>
    place p = .created ∧ s.Free ∧ place' = Function.update place p .queued ∧
      t.heap = s.heap ∧ t.numCreated = s.numCreated ∧ t.handling = s.handling ∧
      t.timerfd = if s.earliestChanged (s.timer p).expiration then
        s.timerfd.resetTimerfd (s.timer p).expiration clock else s.timerfd
  | .cancelInLoop id =>
    s.Free ∧ t.numCreated = s.numCreated ∧ t.handling = s.handling ∧ t.timerfd = s.timerfd ∧
      (place id.timer = .queued ∧ id.seq = (s.timer id.timer).sequence ∧
          place' = Function.update place id.timer .free ∧ t.heap = Function.update s.heap id.timer none ∨
        ¬ (place id.timer = .queued ∧ id.seq = (s.timer id.timer).sequence) ∧ place' = place ∧ t = s)
  | .handleRead now =>
    s.handling = none ∧ place' = s.expire now place ∧ t.heap = s.heap ∧ t.numCreated = s.numCreated ∧
      t.timerfd = s.timerfd.read ∧ ∃ expired, t.handling = some ⟨now, expired, expired⟩
  | .run =>
    place' = place ∧ ∃ now expired e rest, s.handling = some ⟨now, expired, e :: rest⟩ ∧
      t = { s with handling := some ⟨now, expired, rest⟩ }
  | .reset clock =>
    ∃ now expired, s.handling = some ⟨now, expired, []⟩ ∧
      (place' = fun p => if place p = .expired then s.settlePlace p else place p) ∧
      (∀ p, t.heap p = if place p = .expired then s.settle now p else s.heap p) ∧
      t.numCreated = s.numCreated ∧ t.handling = none ∧ t.timerfd = rearmed t.timers s.timerfd clock
  | .fire =>
    place' = place ∧ (∃ value expiration, s.timerfd = .armed value expiration) ∧ t = { s with timerfd := .fired }

section Lemmas

variable {s t : TimerQueue} {place place' : Address → Place}

/-! ## What keeps the parts of the invariant -/

namespace Batch

variable {h : Handling}

theorem nodup (hb : Batch s place h) : (h.expired.map fun e => (ofLex e).2).Nodup := by
  refine List.Nodup.map_on ?_ (hb.sorted.imp fun hlt => hlt.ne)
  intro e he e' he' heq
  rw [(hb.due e he).2.1, (hb.due e' he').2.1, heq]

theorem mem_iff (hb : Batch s place h) (p : Address) :
    p ∈ h.expired.map (fun e => (ofLex e).2) ↔ place p = .expired := by
  constructor
  · intro hp
    obtain ⟨e, he, rfl⟩ := List.mem_map.1 hp
    exact (hb.due e he).1
  · exact fun hp => List.mem_map.2 ⟨_, hb.complete p hp, rfl⟩

theorem congr (hb : Batch s place h) (hplace : ∀ p, place' p = .expired ↔ place p = .expired)
    (hheap : ∀ p, place p = .expired → t.heap p = s.heap p) : Batch t place' h where
  rest := hb.rest
  sorted := hb.sorted
  due e he := by
    obtain ⟨hexpired, hentry, hle⟩ := hb.due e he
    exact ⟨(hplace _).2 hexpired, by rw [entry_congr (hheap _ hexpired)]; exact hentry, hle⟩
  complete p hp := by
    have hp := (hplace p).1 hp
    rw [entry_congr (hheap p hp)]
    exact hb.complete p hp

end Batch

theorem update_eq_iff {p : Address} {c c' : Place} (hold : place p ≠ c) (hnew : c' ≠ c) (q : Address) :
    Function.update place p c' q = c ↔ place q = c := by
  by_cases hq : q = p
  · subst hq
    rw [Function.update_self]
    exact ⟨fun h => absurd h hnew, fun h => absurd h hold⟩
  · rw [Function.update_of_ne hq]

/-- Timers go or keep their sequence numbers, and the batch is left alone. -/
theorem Good.of_le (h : Good s place) (hrep : Rep t place') (hnodup : t.created.Nodup)
    (hcreated : ∀ p, p ∈ t.created ↔ place' p = .created) (hnum : t.numCreated = s.numCreated)
    (hseq : ∀ p, place' p ≠ .free → place p ≠ .free ∧ (t.timer p).sequence = (s.timer p).sequence)
    (hidle : t.handling = none → ∀ p, place' p ≠ .expired) (hbatch : ∀ h ∈ t.handling, Batch t place' h) :
    Good t place' where
  toRep := hrep
  nodup := hnodup
  created := hcreated
  numCreated := hnum ▸ h.numCreated
  sequence p hp := by
    rw [(hseq p hp).2, hnum]
    exact h.sequence p (hseq p hp).1
  unique p q hp hq := by
    rw [(hseq p hp).2, (hseq q hq).2]
    exact h.unique p q (hseq p hp).1 (hseq q hq).1
  idle := hidle
  batch := hbatch

theorem good_init : Good init fun _ => .free where
  toRep := rep_init
  nodup := .nil
  created p := by simp [init]
  numCreated := le_rfl
  sequence p hp := absurd rfl hp
  unique p q hp := absurd rfl hp
  idle := by simp
  batch h hh := by simp [init] at hh

/-! ## The steps -/

theorem new_good (h : Good s place) {p : Address} {when : Timestamp} {interval : Option ℕ}
    (hstep : s.step (.new p when interval) = some t) :
    ∃ place', Good t place' ∧ Effect s place (.new p when interval) t place' := by
  simp only [step] at hstep
  split at hstep
  case isFalse => cases hstep
  case isTrue hp =>
    obtain rfl := Option.some.inj hstep
    have hfree : place p = .free := by
      by_contra hlive
      have hsome := (h.heap p).2 hlive
      rw [hp.1] at hsome
      cases hsome
    have hself : ∀ t : TimerQueue, t.heap = Function.update s.heap p (some ⟨when, interval, s.numCreated + 1⟩) →
        (t.timer p).sequence = s.numCreated + 1 := by
      intro t ht
      rw [timer, ht, Function.update_self]
      rfl
    refine ⟨Function.update place p .created, ?_, hfree, rfl, rfl⟩
    constructor
    · exact (h.toRep.update_heap (p := p) (x := some ⟨when, interval, s.numCreated + 1⟩) (c := .created)
        (by rw [hfree]; decide) (by simp) (by decide) (fun _ => hp.2) rfl).congr rfl rfl rfl rfl rfl
    · exact List.nodup_cons.2 ⟨fun hmem => absurd ((h.created p).1 hmem) (by rw [hfree]; decide), h.nodup⟩
    · intro q
      rw [List.mem_cons, h.created]
      by_cases hq : q = p
      · subst hq
        simp
      · rw [Function.update_of_ne hq]
        exact or_iff_right hq
    · have := h.numCreated
      show 0 ≤ s.numCreated + 1
      omega
    · intro q hlive
      by_cases hq : q = p
      · subst hq
        rw [hself _ rfl]
        have := h.numCreated
        show _ ∧ _ ≤ s.numCreated + 1
        omega
      · rw [Function.update_of_ne hq] at hlive
        rw [timer_of_ne (s := s) rfl hq]
        have := h.sequence q hlive
        show _ ∧ _ ≤ s.numCreated + 1
        omega
    · intro q r hq hr heq
      by_cases hqp : q = p <;> by_cases hrp : r = p
      · rw [hqp, hrp]
      · subst hqp
        rw [Function.update_of_ne hrp] at hr
        rw [hself _ rfl, timer_of_ne (s := s) rfl hrp] at heq
        have := h.sequence r hr
        omega
      · subst hrp
        rw [Function.update_of_ne hqp] at hq
        rw [hself _ rfl, timer_of_ne (s := s) rfl hqp] at heq
        have := h.sequence q hq
        omega
      · rw [Function.update_of_ne hqp] at hq
        rw [Function.update_of_ne hrp] at hr
        rw [timer_of_ne (s := s) rfl hqp, timer_of_ne (s := s) rfl hrp] at heq
        exact h.unique q r hq hr heq
    · intro hnone q
      rw [Ne, update_eq_iff (by rw [hfree]; decide) (by decide)]
      exact h.idle hnone q
    · intro b hb
      refine (h.batch b hb).congr (update_eq_iff (by rw [hfree]; decide) (by decide)) fun q hq => ?_
      refine Function.update_of_ne ?_ _ _
      rintro rfl
      rw [hfree] at hq
      cases hq

theorem addTimerInLoop_good (h : Good s place) {p : Address} {clock : Timestamp}
    (hstep : s.step (.addTimerInLoop p clock) = some t) :
    ∃ place', Good t place' ∧ Effect s place (.addTimerInLoop p clock) t place' := by
  simp only [step] at hstep
  split at hstep
  case isFalse => cases hstep
  case isTrue hp =>
    obtain ⟨hmem, hfree⟩ := hp
    have hcreated : place p = .created := (h.created p).1 hmem
    have hrep : Rep { s with created := s.created.erase p } place := h.toRep.congr rfl rfl rfl rfl rfl
    obtain ⟨heq, hrep'⟩ := insert_eq (p := p) hrep (by rw [hcreated]; decide) (by rw [hcreated]; decide)
    have ht : t = { s with
        created := s.created.erase p
        timers := s.timers.insert (s.entry p)
        activeTimers := s.activeTimers.insert (s.activeTimer p)
        timerfd := if s.earliestChanged (s.timer p).expiration then
          s.timerfd.resetTimerfd (s.timer p).expiration clock else s.timerfd } := by
      refine (Option.some.inj hstep).symm.trans ?_
      simp only [addTimerInLoop]
      rw [heq]
      by_cases hchanged : s.earliestChanged (s.timer p).expiration
      · rw [if_pos hchanged]
        exact if_pos hchanged
      · rw [if_neg hchanged]
        exact if_neg hchanged
    clear hstep
    subst ht
    refine ⟨Function.update place p .queued, ?_, hcreated, hfree, rfl, rfl, rfl, rfl, rfl⟩
    refine h.of_le ?_ (h.nodup.erase p) ?_ rfl ?_ ?_ ?_
    · rw [heq] at hrep'
      exact hrep'.congr rfl rfl rfl rfl rfl
    · intro q
      show q ∈ s.created.erase p ↔ _
      rw [h.nodup.mem_erase_iff, h.created]
      by_cases hq : q = p
      · subst hq
        rw [Function.update_self]
        exact ⟨fun h => absurd rfl h.1, nofun⟩
      · rw [Function.update_of_ne hq]
        exact and_iff_right hq
    · intro q hq
      refine ⟨?_, rfl⟩
      by_cases hqp : q = p
      · subst hqp
        rw [hcreated]
        decide
      · rwa [Function.update_of_ne hqp] at hq
    · intro hnone q
      rw [Ne, update_eq_iff (by rw [hcreated]; decide) (by decide)]
      exact h.idle hnone q
    · intro b hb
      exact (h.batch b hb).congr (update_eq_iff (by rw [hcreated]; decide) (by decide)) fun q _ => rfl

theorem cancelInLoop_good (h : Good s place) {id : TimerId} (hstep : s.step (.cancelInLoop id) = some t) :
    ∃ place', Good t place' ∧ Effect s place (.cancelInLoop id) t place' := by
  simp only [step] at hstep
  split at hstep
  case isFalse => cases hstep
  case isTrue hfree =>
    obtain rfl := Option.some.inj hstep
    rcases cancelInLoop_eq h.toRep id with ⟨hqueued, hseq, heq, hrep⟩ | ⟨hnot, heq⟩
    · have hheap : (s.cancelInLoop id).heap = Function.update s.heap id.timer none := by rw [heq]; rfl
      have hne : ∀ q, Function.update place id.timer .free q ≠ .free → q ≠ id.timer := by
        rintro q hq rfl
        exact hq (Function.update_self ..)
      refine ⟨Function.update place id.timer .free, ?_, hfree, ?_⟩
      · refine h.of_le hrep ?_ ?_ ?_ ?_ ?_ ?_
        · rw [heq]
          exact h.nodup
        · intro q
          rw [update_eq_iff (by rw [hqueued]; decide) (by decide), ← h.created q, heq]
          rfl
        · rw [heq]
          rfl
        · intro q hq
          refine ⟨?_, by rw [timer_of_ne hheap (hne q hq)]⟩
          rwa [Function.update_of_ne (hne q hq)] at hq
        · intro hnone q
          rw [heq] at hnone
          rw [Ne, update_eq_iff (by rw [hqueued]; decide) (by decide)]
          exact h.idle hnone q
        · intro b hb
          rw [heq] at hb
          refine (h.batch b hb).congr (update_eq_iff (by rw [hqueued]; decide) (by decide)) fun q hq => ?_
          rw [hheap]
          refine Function.update_of_ne ?_ _ _
          rintro rfl
          rw [hqueued] at hq
          cases hq
      · rw [heq]
        exact ⟨rfl, rfl, rfl, .inl ⟨hqueued, hseq, rfl, rfl⟩⟩
    · rw [heq]
      exact ⟨place, h, hfree, rfl, rfl, rfl, .inr ⟨hnot, rfl, rfl⟩⟩

theorem handleRead_good (h : Good s place) {now : Timestamp} (hstep : s.step (.handleRead now) = some t) :
    ∃ place', Good t place' ∧ Effect s place (.handleRead now) t place' := by
  simp only [step] at hstep
  split at hstep
  case isFalse => cases hstep
  case isTrue hnone =>
    have hrep : Rep { s with timerfd := s.timerfd.read } place := h.toRep.congr rfl rfl rfl rfl rfl
    obtain ⟨active, heq, hrep', hmem⟩ := getExpired_eq hrep now
    have ht : t = { s with
        timers := s.timers.dropBelow (sentry now)
        activeTimers := active
        timerfd := s.timerfd.read
        callingExpiredTimers := true
        cancelingTimers := .empty
        handling := some ⟨now, s.timers.below (sentry now), s.timers.below (sentry now)⟩ } := by
      refine (Option.some.inj hstep).symm.trans ?_
      simp only [handleRead]
      rw [heq]
    clear hstep
    subst ht
    refine ⟨s.expire now place, ?_, hnone, rfl, rfl, rfl, rfl, _, rfl⟩
    rw [heq] at hrep'
    refine h.of_le (hrep'.congr rfl rfl rfl ?_ rfl) h.nodup ?_ rfl ?_ nofun ?_
    · exact OrderedSet.eq_empty.2 h.canceling ▸ rfl
    · intro p
      rw [expire_eq_iff (by decide) (by decide)]
      exact h.created p
    · intro p hp
      rw [Ne, expire_eq_iff (by decide) (by decide)] at hp
      exact ⟨hp, rfl⟩
    · intro b hb
      obtain rfl := Option.some.inj hb
      constructor
      · exact List.suffix_rfl
      · exact s.timers.sorted_below _
      · intro e he
        obtain ⟨hexpired, hqueued, hentry⟩ := (hmem e).1 he
        refine ⟨hexpired, hentry, (lt_sentry_iff (h.bound _ (by rw [hqueued]; decide))).1 (OrderedSet.mem_below.1 he).2⟩
      · intro p hp
        refine (hmem _).2 ⟨hp, ?_, rfl⟩
        by_contra hqueued
        have hplace : s.expire now place p = place p := if_neg fun h => hqueued h.1
        exact h.idle hnone p (hplace.symm.trans hp)

theorem run_good (h : Good s place) (hstep : s.step .run = some t) :
    ∃ place', Good t place' ∧ Effect s place .run t place' := by
  simp only [step] at hstep
  split at hstep
  · rename_i now expired e rest hhandling
    have hbatch := h.batch _ hhandling
    have hderef : s.deref (ofLex e).2 = s := by
      refine h.deref ?_
      rw [(hbatch.due e (hbatch.rest.subset List.mem_cons_self)).1]
      decide
    rw [hderef] at hstep
    obtain rfl := Option.some.inj hstep
    refine ⟨place, ?_, rfl, now, expired, e, rest, hhandling, rfl⟩
    refine h.of_le (h.toRep.congr rfl rfl rfl rfl rfl) h.nodup h.created rfl (fun p hp => ⟨hp, rfl⟩) nofun ?_
    intro b hb
    obtain rfl := Option.some.inj hb
    exact { hbatch with rest := (List.suffix_cons e rest).trans hbatch.rest }
  · cases hstep

theorem reset_good (h : Good s place) {clock : Timestamp} (hstep : s.step (.reset clock) = some t) :
    ∃ place', Good t place' ∧ Effect s place (.reset clock) t place' := by
  simp only [step] at hstep
  split at hstep
  · rename_i now expired hhandling
    obtain rfl := Option.some.inj hstep
    have hbatch := h.batch _ hhandling
    have hrep : Rep { s with callingExpiredTimers := false } place := h.toRep.congr rfl rfl rfl rfl rfl
    obtain ⟨hrep', hheap, hnum, hcreated, -, hfd⟩ :=
      reset_eq hrep hbatch.nodup (fun e he => (hbatch.due e he).1) now clock
    have hplace : (fun p => if p ∈ expired.map (fun e => (ofLex e).2) then s.settlePlace p else place p) =
        fun p => if place p = .expired then s.settlePlace p else place p := by
      funext p
      exact if_congr (hbatch.mem_iff p) rfl rfl
    have hheap' : ∀ p, ({ s with callingExpiredTimers := false }.reset expired now clock).heap p =
        if place p = .expired then s.settle now p else s.heap p :=
      fun p => (hheap p).trans (if_congr (hbatch.mem_iff p) rfl rfl)
    refine ⟨fun p => if place p = .expired then s.settlePlace p else place p, ?_, now, expired, hhandling, rfl,
      hheap', hnum, rfl, hfd⟩
    refine h.of_le ?_ ?_ ?_ hnum ?_ ?_ nofun
    · exact hplace ▸ hrep'.congr rfl rfl rfl rfl rfl
    · exact cast (congrArg _ hcreated.symm) h.nodup
    · intro p
      show p ∈ ({ s with callingExpiredTimers := false }.reset expired now clock).created ↔ _
      rw [hcreated, h.created]
      split
      case isTrue hexpired =>
        rw [hexpired, settlePlace]
        split <;> decide
      case isFalse => rfl
    · intro p hp
      split at hp
      case isTrue hexpired =>
        refine ⟨by rw [hexpired]; decide, ?_⟩
        have hrepeats : (s.timer p).repeats := by
          by_contra hrepeats
          exact hp (if_neg hrepeats)
        rw [timer, hheap' p, if_pos hexpired, settle, if_pos hrepeats]
        rfl
      case isFalse hexpired =>
        refine ⟨hp, ?_⟩
        rw [timer, hheap' p, if_neg hexpired, timer]
    · intro _ p
      split
      case isTrue =>
        rw [settlePlace]
        split <;> decide
      case isFalse hexpired => exact hexpired
  · cases hstep

theorem fire_good (h : Good s place) (hstep : s.step .fire = some t) :
    ∃ place', Good t place' ∧ Effect s place .fire t place' := by
  simp only [step] at hstep
  split at hstep
  · rename_i value expiration hfd
    obtain rfl := Option.some.inj hstep
    refine ⟨place, ?_, rfl, ⟨value, expiration, hfd⟩, rfl⟩
    exact h.of_le (h.toRep.congr rfl rfl rfl rfl rfl) h.nodup h.created rfl (fun p hp => ⟨hp, rfl⟩) h.idle
      fun b hb => (h.batch b hb).congr (fun _ => Iff.rfl) fun _ _ => rfl
  · cases hstep

/-- **What a step does**, whichever it is. -/
theorem step_good (h : Good s place) {a : Action} (hstep : s.step a = some t) :
    ∃ place', Good t place' ∧ Effect s place a t place' := by
  cases a with
  | new p when interval => exact new_good h hstep
  | addTimerInLoop p clock => exact addTimerInLoop_good h hstep
  | cancelInLoop id => exact cancelInLoop_good h hstep
  | handleRead now => exact handleRead_good h hstep
  | run => exact run_good h hstep
  | reset clock => exact reset_good h hstep
  | fire => exact fire_good h hstep

theorem Effect.numCreated_le {a : Action} (h : Effect s place a t place') : s.numCreated ≤ t.numCreated := by
  cases a with
  | new p when interval =>
    obtain ⟨-, -, rfl⟩ := h
    show s.numCreated ≤ s.numCreated + 1
    omega
  | addTimerInLoop p clock => exact h.2.2.2.2.1.ge
  | cancelInLoop id => exact h.2.1.ge
  | handleRead now => exact h.2.2.2.1.ge
  | run =>
    obtain ⟨-, now, expired, e, rest, -, rfl⟩ := h
    exact le_rfl
  | reset clock =>
    obtain ⟨now, expired, -, -, -, hnum, -⟩ := h
    exact hnum.ge
  | fire => exact h.2.2 ▸ le_rfl

end Lemmas

def Inv (s : TimerQueue) : Prop := ∃ place, Good s place

theorem inv_init : Inv init := ⟨_, good_init⟩

theorem inv_step (ok : TimerQueue → Action → Prop) (s : TimerQueue) (a : Action) (t : TimerQueue) (_ : ok s a)
    (hstep : machine.step s a = some t) : Inv s → Inv t := by
  rintro ⟨place, hgood⟩
  obtain ⟨place', hgood', -⟩ := step_good hgood hstep
  exact ⟨place', hgood'⟩

end Chatroom.Net.TimerQueue
