import Chatroom.Net.TimerSteps

/-!
# When timers fire

What is created, added, cancelled and started is logged. In every run the two sets agree and no assertion fails; a
callback is started in a `handleRead` that found its timer due, after those of the earlier timers; a one-shot timer is
started at most once; and a timer that was added is queued until it is cancelled or due.
-/

namespace Chatroom.Net.TimerQueue

open Lib

/-- Timers are named by their sequence numbers. -/
inductive Event where
  | created (sequence : ℤ) (repeats : Bool)
  | added (sequence : ℤ)
  | cancelled (sequence : ℤ)
  | read (now : Timestamp)
  | started (sequence : ℤ) (expiration : Timestamp)

def Event.started? : Event → Option ℤ
  | .started sequence _ => some sequence
  | _ => none

def starts (log : List Event) : List ℤ := log.filterMap Event.started?

/-- `.cancelled` is logged when `cancelInLoop` finds the timer. -/
def events (s : TimerQueue) : Action → List Event
  | .new _ _ interval => [.created (s.numCreated + 1) interval.isSome]
  | .addTimerInLoop p _ => [.added (s.timer p).sequence]
  | .cancelInLoop id => if (toLex (id.timer, id.seq) : ActiveTimer) ∈ s.activeTimers then [.cancelled id.seq] else []
  | .handleRead now => [.read now]
  | .run =>
    match s.handling with
    | some ⟨_, _, e :: _⟩ => [.started (s.timer (ofLex e).2).sequence (s.timer (ofLex e).2).expiration]
    | _ => []
  | .reset _ => []
  | .fire => []

/-- `m_timers` and `m_activeTimers` hold the same timers, all of which exist, each as it is now. -/
structure Aligned (s : TimerQueue) : Prop where
  iff : ∀ p, s.entry p ∈ s.timers ↔ s.activeTimer p ∈ s.activeTimers
  timers : ∀ e ∈ s.timers, (s.heap (ofLex e).2).isSome ∧ e = s.entry (ofLex e).2
  activeTimers : ∀ a ∈ s.activeTimers, (s.heap (ofLex a).1).isSome ∧ a = s.activeTimer (ofLex a).1

/-- The last `handleRead` before a callback found its timer due and has started no later one. -/
def FiredOnTime (log : List Event) : Prop :=
  ∀ l₁ q x l₂, log = l₁ ++ .started q x :: l₂ →
    ∃ now l₀ l, l₁ = l₀ ++ .read now :: l ∧ (∀ n, .read n ∉ l) ∧ x ≤ now ∧ ∀ q' x', .started q' x' ∈ l → x' ≤ x

def IsQueued (s : TimerQueue) (q : ℤ) : Prop := ∃ e ∈ s.timers, (s.timer (ofLex e).2).sequence = q

/-- It was due when the `handleRead` that is under way read the clock. -/
def IsHandled (s : TimerQueue) (q : ℤ) : Prop :=
  ∃ h ∈ s.handling, ∃ e ∈ h.expired, (s.timer (ofLex e).2).sequence = q ∧ (s.timer (ofLex e).2).expiration ≤ h.now

section Lemmas

variable {s t : TimerQueue} {place place' : Address → Place} {a : Action} {log : List Event}

theorem Rep.aligned (h : Rep s place) : Aligned s where
  iff p := (h.entry_mem_iff p).trans (h.activeTimer_mem_iff p).symm
  timers e he := by
    obtain ⟨hqueued, heq⟩ := (h.timers e).1 he
    exact ⟨(h.heap _).2 (by rw [hqueued]; decide), heq⟩
  activeTimers a ha := by
    obtain ⟨hqueued, heq⟩ := (h.activeTimers a).1 ha
    exact ⟨(h.heap _).2 (by rw [hqueued]; decide), heq⟩

/-- Only the next callback of a batch is started. -/
theorem started_of_mem_events {q : ℤ} {x : Timestamp} (h : .started q x ∈ s.events a) :
    ∃ now expired e rest, s.handling = some ⟨now, expired, e :: rest⟩ ∧ q = (s.timer (ofLex e).2).sequence := by
  cases a with
  | run =>
    simp only [events] at h
    split at h
    case h_1 now expired e rest hhandling =>
      exact ⟨now, expired, e, rest, hhandling, (Event.started.inj (List.mem_singleton.1 h)).1⟩
    case h_2 => cases h
  | cancelInLoop id =>
    simp only [events] at h
    split at h
    · cases List.mem_singleton.1 h
    · cases h
  | reset clock => cases h
  | fire => cases h
  | _ => cases List.mem_singleton.1 h

/-- A timer that exists after a step is new, or it existed before and keeps its number. -/
theorem Effect.timer (h : Effect s place a t place') {p : Address} (hp : place' p ≠ .free) :
    (place p ≠ .free ∧ (t.timer p).sequence = (s.timer p).sequence ∧
      (t.timer p).repeats = (s.timer p).repeats) ∨
      ∃ when interval, a = .new p when interval ∧ t.timer p = ⟨when, interval, s.numCreated + 1⟩ := by
  have hupdate : ∀ {q : Address} {c : Place} {x : Option Timer}, place' = Function.update place q c →
      t.heap = Function.update s.heap q x → p ≠ q → place p ≠ .free ∧
        (t.timer p).sequence = (s.timer p).sequence ∧ (t.timer p).repeats = (s.timer p).repeats := by
    intro q c x hplace hheap hq
    rw [hplace, Function.update_of_ne hq] at hp
    rw [timer_of_ne hheap hq]
    exact ⟨hp, rfl, rfl⟩
  cases a with
  | new q when interval =>
    obtain ⟨-, hplace, rfl⟩ := h
    by_cases hq : p = q
    · subst hq
      refine .inr ⟨when, interval, rfl, ?_⟩
      rw [timer]
      show (Function.update s.heap p _ p).getD _ = _
      rw [Function.update_self]
      rfl
    · exact .inl (hupdate hplace rfl hq)
  | addTimerInLoop q clock =>
    obtain ⟨hcreated, -, rfl, hheap, -⟩ := h
    refine .inl ⟨?_, ?_⟩
    · by_cases hq : p = q
      · subst hq
        rw [hcreated]
        decide
      · rwa [Function.update_of_ne hq] at hp
    · rw [timer_congr (congrFun hheap p)]
      exact ⟨rfl, rfl⟩
  | cancelInLoop id =>
    obtain ⟨-, -, -, -, ⟨-, -, hplace, hheap⟩ | ⟨-, rfl, rfl⟩⟩ := h
    · refine .inl (hupdate hplace hheap ?_)
      rintro rfl
      rw [hplace] at hp
      exact hp (Function.update_self ..)
    · exact .inl ⟨hp, rfl, rfl⟩
  | handleRead now =>
    obtain ⟨-, rfl, hheap, -⟩ := h
    rw [Ne, expire_eq_iff (by decide) (by decide)] at hp
    rw [timer_congr (congrFun hheap p)]
    exact .inl ⟨hp, rfl, rfl⟩
  | run =>
    obtain ⟨rfl, now, expired, e, rest, -, rfl⟩ := h
    exact .inl ⟨hp, rfl, rfl⟩
  | reset clock =>
    obtain ⟨now, expired, -, rfl, hheap, -⟩ := h
    have hheap := hheap p
    have hp : (if place p = .expired then s.settlePlace p else place p) ≠ .free := hp
    split at hp
    case isTrue hexpired =>
      have hrepeats : (s.timer p).repeats := by
        by_contra hrepeats
        exact hp (if_neg hrepeats)
      rw [if_pos hexpired, settle, if_pos hrepeats] at hheap
      rw [TimerQueue.timer, hheap]
      exact .inl ⟨by rw [hexpired]; decide, rfl, rfl⟩
    case isFalse hexpired =>
      rw [if_neg hexpired] at hheap
      rw [timer_congr hheap]
      exact .inl ⟨hp, rfl, rfl⟩
  | fire =>
    obtain ⟨rfl, -, rfl⟩ := h
    exact .inl ⟨hp, rfl, rfl⟩

/-! ## On time -/

theorem FiredOnTime.concat (h : FiredOnTime log) {event : Event}
    (hevent : ∀ q x, event = .started q x → ∃ now l₀ l, log = l₀ ++ .read now :: l ∧ (∀ n, .read n ∉ l) ∧ x ≤ now ∧
      ∀ q' x', .started q' x' ∈ l → x' ≤ x) : FiredOnTime (log ++ [event]) := by
  intro l₁ q x l₂ heq
  rcases List.eq_nil_or_concat l₂ with rfl | ⟨l₂, b, rfl⟩
  · obtain ⟨rfl, hlast⟩ := List.append_inj' heq rfl
    exact hevent q x (List.cons.inj hlast).1
  · rw [List.concat_eq_append, ← List.cons_append, ← List.append_assoc] at heq
    exact h l₁ q x l₂ (List.append_inj' heq rfl).1

structure Fired (s : TimerQueue) (log : List Event) : Prop where
  onTime : FiredOnTime log
  reading : ∀ h ∈ s.handling, ∃ l₀ l, log = l₀ ++ .read h.now :: l ∧ (∀ n, .read n ∉ l) ∧
    ∀ q x, .started q x ∈ l → ∀ e ∈ h.rest, x ≤ (ofLex e).1

/-- Neither a callback is started nor a `handleRead`. -/
theorem Fired.concat (h : Fired s log) {event : Event} (hstarted : ∀ q x, event ≠ .started q x)
    (hread : ∀ n, event ≠ .read n) (hhandling : t.handling = s.handling) : Fired t (log ++ [event]) where
  onTime := h.onTime.concat fun q x heq => absurd heq (hstarted q x)
  reading b hb := by
    obtain ⟨l₀, l, rfl, hl, hrest⟩ := h.reading b (hhandling ▸ hb)
    refine ⟨l₀, l ++ [event], by simp, fun n hn => ?_, fun q x hx => ?_⟩
    · rcases List.mem_append.1 hn with hn | hn
      · exact hl n hn
      · exact hread n (List.mem_singleton.1 hn).symm
    · rcases List.mem_append.1 hx with hx | hx
      · exact hrest q x hx
      · exact absurd (List.mem_singleton.1 hx).symm (hstarted q x)

theorem Fired.step (hgood : Good s place) (h : Fired s log) (heffect : Effect s place a t place') :
    Fired t (log ++ s.events a) := by
  cases a with
  | new p when interval =>
    obtain ⟨-, -, rfl⟩ := heffect
    exact h.concat nofun nofun rfl
  | addTimerInLoop p clock =>
    obtain ⟨-, -, -, -, -, hhandling, -⟩ := heffect
    exact h.concat nofun nofun hhandling
  | cancelInLoop id =>
    obtain ⟨-, -, hhandling, -⟩ := heffect
    simp only [events]
    split
    case isTrue => exact h.concat nofun nofun hhandling
    case isFalse =>
      rw [List.append_nil]
      exact ⟨h.onTime, hhandling ▸ h.reading⟩
  | handleRead now =>
    obtain ⟨-, -, -, -, -, expired, hhandling⟩ := heffect
    refine ⟨h.onTime.concat nofun, fun b hb => ?_⟩
    rw [hhandling] at hb
    obtain rfl := Option.some.inj hb
    exact ⟨log, [], rfl, by simp, by simp⟩
  | run =>
    obtain ⟨-, now, expired, e, rest, hhandling, rfl⟩ := heffect
    have hbatch := hgood.batch _ hhandling
    obtain ⟨-, hentry, hdue⟩ := hbatch.due e (hbatch.rest.subset List.mem_cons_self)
    obtain ⟨l₀, l, hlog, hl, hrest⟩ := h.reading _ hhandling
    have hexpiration : (s.timer (ofLex e).2).expiration = (ofLex e).1 :=
      (congrArg (fun e : Entry => (ofLex e).1) hentry).symm
    simp only [events, hhandling]
    rw [hexpiration]
    constructor
    · refine h.onTime.concat fun q x heq => ⟨now, l₀, l, hlog, hl, ?_⟩
      obtain ⟨-, rfl⟩ := Event.started.inj heq
      exact ⟨hdue, fun q' x' hx => hrest q' x' hx e List.mem_cons_self⟩
    · intro b hb
      obtain rfl := Option.some.inj hb
      refine ⟨l₀, l ++ [.started (s.timer (ofLex e).2).sequence (ofLex e).1], by rw [hlog]; simp, ?_, ?_⟩
      · intro n hn
        rcases List.mem_append.1 hn with hn | hn
        · exact hl n hn
        · cases List.mem_singleton.1 hn
      · intro q x hx e' he'
        rcases List.mem_append.1 hx with hx | hx
        · exact hrest q x hx e' (List.mem_cons_of_mem e he')
        · obtain ⟨-, rfl⟩ := Event.started.inj (List.mem_singleton.1 hx)
          have hsorted := (hbatch.sorted.sublist hbatch.rest.sublist)
          have hlt : e < e' := (List.pairwise_cons.1 hsorted).1 e' he'
          rcases Prod.Lex.lt_iff.1 hlt with hlt | ⟨heq, -⟩
          · exact hlt.le
          · exact heq.le
  | reset clock =>
    obtain ⟨now, expired, -, -, -, -, hnone, -⟩ := heffect
    simp only [events, List.append_nil]
    refine ⟨h.onTime, fun b hb => ?_⟩
    rw [hnone] at hb
    cases hb
  | fire =>
    obtain ⟨-, -, rfl⟩ := heffect
    simp only [events, List.append_nil]
    exact ⟨h.onTime, h.reading⟩

/-! ## At most once -/

/-- The callback of a timer is still to come, if it is to come once. -/
def Waiting (s : TimerQueue) (place : Address → Place) (p : Address) : Prop :=
  place p ≠ .free ∧ (place p = .expired → ∃ h ∈ s.handling, s.entry p ∈ h.rest)

structure OneShot (s : TimerQueue) (place : Address → Place) (log : List Event) : Prop where
  created : ∀ q r, .created q r ∈ log → q ≤ s.numCreated
  agrees : ∀ p, place p ≠ .free → ∀ r, .created (s.timer p).sequence r ∈ log → r = (s.timer p).repeats
  started : ∀ q ∈ starts log, q ≤ s.numCreated
  waiting : ∀ p, Waiting s place p → (s.timer p).repeats = false → (s.timer p).sequence ∉ starts log
  once : ∀ q, .created q false ∈ log → (starts log).count q ≤ 1

/-- No timer comes and no callback starts. -/
theorem OneShot.of_le (h : OneShot s place log) {new : List Event} (hnew : ∀ q r, .created q r ∉ new)
    (hstarts : starts new = []) (hnum : t.numCreated = s.numCreated)
    (htimer : ∀ p, place' p ≠ .free → place p ≠ .free ∧ (t.timer p).sequence = (s.timer p).sequence ∧
      (t.timer p).repeats = (s.timer p).repeats)
    (hwaiting : ∀ p, (t.timer p).repeats = false → Waiting t place' p → Waiting s place p) :
    OneShot t place' (log ++ new) := by
  have hcreated : ∀ q r, .created q r ∈ log ++ new ↔ .created q r ∈ log := by
    intro q r
    rw [List.mem_append]
    exact or_iff_left (hnew q r)
  have hstarts' : starts (log ++ new) = starts log := by
    rw [starts, List.filterMap_append]
    exact (congrArg _ hstarts).trans (List.append_nil _)
  constructor
  · intro q r hq
    rw [hnum]
    exact h.created q r ((hcreated q r).1 hq)
  · intro p hp r hr
    obtain ⟨hlive, hseq, hrepeats⟩ := htimer p hp
    rw [hcreated, hseq] at hr
    rw [hrepeats]
    exact h.agrees p hlive r hr
  · intro q hq
    rw [hstarts'] at hq
    rw [hnum]
    exact h.started q hq
  · intro p hp hrepeats
    obtain ⟨-, hseq, hrepeats'⟩ := htimer p hp.1
    rw [hstarts', hseq]
    exact h.waiting p (hwaiting p hrepeats hp) (hrepeats' ▸ hrepeats)
  · intro q hq
    rw [hstarts']
    exact h.once q ((hcreated q false).1 hq)

/-- The new timer has a number that no event names. -/
theorem OneShot.new (hgood : Good s place) (h : OneShot s place log) {p : Address} {when : Timestamp}
    {interval : Option ℕ} (heffect : Effect s place (.new p when interval) t place') :
    OneShot t place' (log ++ s.events (.new p when interval)) := by
  have htimer := fun q hq => heffect.timer (p := q) hq
  obtain ⟨hfree, rfl, rfl⟩ := heffect
  have hself : ∀ r, .created (s.numCreated + 1) r ∉ log := fun r hr => by
    have := h.created _ r hr
    omega
  have hstarts : starts (log ++ [.created (s.numCreated + 1) interval.isSome]) = starts log := by
    rw [starts, List.filterMap_append]
    exact List.append_nil _
  have hmem : ∀ q r, .created q r ∈ log ++ [.created (s.numCreated + 1) interval.isSome] ↔
      .created q r ∈ log ∨ q = s.numCreated + 1 ∧ r = interval.isSome := by
    intro q r
    simp
  constructor
  · intro q r hq
    show q ≤ s.numCreated + 1
    rcases (hmem q r).1 hq with hq | ⟨rfl, -⟩
    · have := h.created q r hq
      omega
    · exact le_rfl
  · intro q hq r hr
    rcases htimer q hq with ⟨hlive, hseq, hrepeats⟩ | ⟨_, _, heq, htimer⟩
    · rw [hseq] at hr
      rw [hrepeats]
      rcases (hmem _ r).1 hr with hr | ⟨heq, -⟩
      · exact h.agrees q hlive r hr
      · have := (hgood.sequence q hlive).2
        omega
    · obtain ⟨-, rfl, rfl⟩ := Action.new.inj heq
      rw [htimer] at hr ⊢
      rcases (hmem _ r).1 hr with hr | ⟨-, rfl⟩
      · exact absurd hr (hself r)
      · rfl
  · intro q hq
    rw [events, hstarts] at hq
    have := h.started q hq
    show q ≤ s.numCreated + 1
    omega
  · intro q hq hrepeats
    rw [events, hstarts]
    rcases htimer q hq.1 with ⟨hlive, hseq, hrepeats'⟩ | ⟨_, _, -, htimer⟩
    · rw [hseq]
      refine h.waiting q ⟨hlive, fun hexpired => ?_⟩ (hrepeats' ▸ hrepeats)
      have hne : q ≠ p := by
        rintro rfl
        exact hlive hfree
      obtain ⟨b, hb, hrest⟩ := hq.2 (by rw [Function.update_of_ne hne]; exact hexpired)
      refine ⟨b, hb, ?_⟩
      rwa [entry_of_ne (s := s) rfl hne] at hrest
    · rw [htimer]
      intro hmem
      have : s.numCreated + 1 ≤ s.numCreated := h.started _ hmem
      omega
  · intro q hq
    rw [events, hstarts]
    rcases (hmem q false).1 hq with hq | ⟨rfl, -⟩
    · exact h.once q hq
    · have hnone : s.numCreated + 1 ∉ starts log := fun hmem => by
        have := h.started _ hmem
        omega
      rw [List.count_eq_zero_of_not_mem hnone]
      exact Nat.zero_le 1

/-- A one-shot timer that was waiting has been started once. -/
theorem OneShot.run (hgood : Good s place) (h : OneShot s place log) (heffect : Effect s place .run t place') :
    OneShot t place' (log ++ s.events .run) := by
  obtain ⟨rfl, now, expired, e, rest, hhandling, rfl⟩ := heffect
  have hbatch := hgood.batch _ hhandling
  obtain ⟨hexpired, hentry, -⟩ := hbatch.due e (hbatch.rest.subset List.mem_cons_self)
  have hlive : place' (ofLex e).2 ≠ .free := by
    rw [hexpired]
    decide
  simp only [events, hhandling]
  set q := (s.timer (ofLex e).2).sequence with hq
  have hstarts : starts (log ++ [.started q (s.timer (ofLex e).2).expiration]) = starts log ++ [q] := by
    rw [starts, List.filterMap_append]
    rfl
  have hmem : ∀ q' r, .created q' r ∈ log ++ [.started q (s.timer (ofLex e).2).expiration] ↔
      .created q' r ∈ log := by simp
  have hwaiting : Waiting s place' (ofLex e).2 :=
    ⟨hlive, fun _ => ⟨_, hhandling, hentry ▸ List.mem_cons_self⟩⟩
  constructor
  · exact fun q' r hr => h.created q' r ((hmem q' r).1 hr)
  · exact fun p hp r hr => h.agrees p hp r ((hmem _ r).1 hr)
  · intro q' hq'
    rw [hstarts, List.mem_append, List.mem_singleton] at hq'
    rcases hq' with hq' | rfl
    · exact h.started q' hq'
    · exact (hgood.sequence _ hlive).2
  · intro p hp hrepeats
    have hp' : Waiting s place' p := by
      refine ⟨hp.1, fun hpexpired => ?_⟩
      obtain ⟨b, hb, hrest⟩ := hp.2 hpexpired
      obtain rfl := Option.some.inj hb
      exact ⟨_, hhandling, List.mem_cons_of_mem e hrest⟩
    rw [hstarts, List.mem_append, List.mem_singleton]
    rintro (hin | heq)
    · exact h.waiting p hp' hrepeats hin
    · have hpe : p = (ofLex e).2 := hgood.unique p _ hp.1 hlive heq
      subst hpe
      obtain ⟨b, hb, hrest⟩ := hp.2 hexpired
      obtain rfl := Option.some.inj hb
      have hrest : e ∈ rest := hentry ▸ hrest
      have hsorted := hbatch.sorted.sublist hbatch.rest.sublist
      exact lt_irrefl e ((List.pairwise_cons.1 hsorted).1 e hrest)
  · intro q' hq'
    rw [hmem] at hq'
    rw [hstarts, List.count_append]
    by_cases heq : q' = q
    · subst heq
      have hrepeats := h.agrees _ hlive _ hq'
      rw [List.count_eq_zero_of_not_mem (h.waiting _ hwaiting hrepeats.symm)]
      simp
    · have := h.once q' hq'
      rw [List.count_singleton]
      simpa [Ne.symm heq] using this

theorem OneShot.step (hgood : Good s place) (h : OneShot s place log) (heffect : Effect s place a t place') :
    OneShot t place' (log ++ s.events a) := by
  cases a with
  | new p when interval => exact h.new hgood heffect
  | addTimerInLoop p clock =>
    have htimer := fun q hq => (heffect.timer (p := q) hq).resolve_right nofun
    obtain ⟨hcreated, -, rfl, hheap, hnum, hhandling, -⟩ := heffect
    refine h.of_le (by simp [events]) rfl hnum htimer fun q _ hq => ⟨(htimer q hq.1).1, fun hexpired => ?_⟩
    obtain ⟨b, hb, hrest⟩ := hq.2 ((update_eq_iff (by rw [hcreated]; decide) (by decide) q).2 hexpired)
    exact ⟨b, hhandling ▸ hb, entry_congr (congrFun hheap q) ▸ hrest⟩
  | cancelInLoop id =>
    have htimer := fun q hq => (heffect.timer (p := q) hq).resolve_right nofun
    obtain ⟨-, hnum, hhandling, -, hcases⟩ := heffect
    refine h.of_le ?_ ?_ hnum htimer fun q _ hq => ?_
    · intro q r
      simp only [events]
      split <;> simp
    · simp only [events]
      split <;> rfl
    · rcases hcases with ⟨hqueued, -, rfl, hheap⟩ | ⟨-, rfl, rfl⟩
      · have hne : q ≠ id.timer := by
          rintro rfl
          exact hq.1 (Function.update_self ..)
        refine ⟨(htimer q hq.1).1, fun hexpired => ?_⟩
        obtain ⟨b, hb, hrest⟩ := hq.2 (by rwa [Function.update_of_ne hne])
        exact ⟨b, hhandling ▸ hb, entry_of_ne hheap hne ▸ hrest⟩
      · exact hq
  | handleRead now =>
    have htimer := fun q hq => (heffect.timer (p := q) hq).resolve_right nofun
    obtain ⟨hnone, rfl, hheap, hnum, -⟩ := heffect
    refine h.of_le (by simp [events]) rfl hnum htimer fun q _ hq => ⟨(htimer q hq.1).1, fun hexpired => ?_⟩
    exact absurd hexpired (hgood.idle hnone q)
  | run => exact h.run hgood heffect
  | reset clock =>
    have htimer := fun q hq => (heffect.timer (p := q) hq).resolve_right nofun
    obtain ⟨now, expired, hhandling, rfl, hheap, hnum, -⟩ := heffect
    refine h.of_le (by simp [events]) rfl hnum htimer fun q hrepeats hq => ⟨(htimer q hq.1).1, fun hexpired => ?_⟩
    obtain ⟨-, -, hrepeats'⟩ := htimer q hq.1
    have hfree : s.settlePlace q = .free := if_neg (by rw [← hrepeats', hrepeats]; decide)
    have hq : (if place q = .expired then s.settlePlace q else place q) ≠ .free := hq.1
    rw [if_pos hexpired] at hq
    exact absurd hfree hq
  | fire =>
    obtain ⟨rfl, -, rfl⟩ := heffect
    exact h.of_le (by simp [events]) rfl rfl (fun q hq => ⟨hq, rfl, rfl⟩) fun q _ hq => hq

/-! ## None is lost -/

def OnQueue (place : Address → Place) (p : Address) : Prop := place p = .queued ∨ place p = .expired

structure Kept (s : TimerQueue) (place : Address → Place) (log : List Event) : Prop where
  created : ∀ p, place p ≠ .free → .created (s.timer p).sequence (s.timer p).repeats ∈ log
  started : ∀ h ∈ s.handling, ∀ e ∈ h.expired, e ∈ h.rest ∨ ∃ x, .started (s.timer (ofLex e).2).sequence x ∈ log
  kept : ∀ q, .added q ∈ log → .cancelled q ∈ log ∨ (∃ p, OnQueue place p ∧ (s.timer p).sequence = q) ∨
    .created q false ∈ log ∧ ∃ x, .started q x ∈ log

/-- A timer leaves by a `cancelInLoop`, or as a one-shot timer whose callback has been started. -/
theorem Kept.stays (hgood : Good s place) (h : Kept s place log) (heffect : Effect s place a t place') {p : Address}
    (hp : OnQueue place p) : .cancelled (s.timer p).sequence ∈ s.events a ∨
      (OnQueue place' p ∧ (t.timer p).sequence = (s.timer p).sequence) ∨
      .created (s.timer p).sequence false ∈ log ∧ ∃ x, .started (s.timer p).sequence x ∈ log := by
  have hfree : place p ≠ .free := by
    rcases hp with hp | hp
    all_goals
      rw [hp]
      decide
  have hstays : OnQueue place' p → OnQueue place' p ∧ (t.timer p).sequence = (s.timer p).sequence := by
    intro hp'
    refine ⟨hp', ?_⟩
    have hlive : place' p ≠ .free := by
      rcases hp' with hp' | hp'
      all_goals
        rw [hp']
        decide
    rcases heffect.timer hlive with ⟨-, hseq, -⟩ | ⟨when, interval, rfl, -⟩
    · exact hseq
    · exact absurd heffect.1 hfree
  cases a with
  | new q when interval =>
    obtain ⟨hq, rfl, -⟩ := heffect
    refine .inr (.inl (hstays ?_))
    rw [OnQueue, update_eq_iff (by rw [hq]; decide) (by decide), update_eq_iff (by rw [hq]; decide) (by decide)]
    exact hp
  | addTimerInLoop q clock =>
    obtain ⟨hq, -, rfl, -⟩ := heffect
    refine .inr (.inl (hstays ?_))
    have hne : p ≠ q := by
      rintro rfl
      rw [OnQueue, hq] at hp
      rcases hp with hp | hp <;> cases hp
    rw [OnQueue, Function.update_of_ne hne]
    exact hp
  | cancelInLoop id =>
    obtain ⟨-, -, -, -, ⟨hqueued, hseq, rfl, -⟩ | ⟨-, rfl, rfl⟩⟩ := heffect
    · by_cases hpq : p = id.timer
      · subst hpq
        refine .inl ?_
        have hmem : (toLex (id.timer, id.seq) : ActiveTimer) ∈ s.activeTimers := by
          rw [hseq]
          exact (hgood.activeTimer_mem_iff id.timer).2 hqueued
        rw [events, if_pos hmem, hseq]
        exact List.mem_singleton_self _
      · refine .inr (.inl (hstays ?_))
        rw [OnQueue, Function.update_of_ne hpq]
        exact hp
    · exact .inr (.inl ⟨hp, rfl⟩)
  | handleRead now =>
    obtain ⟨-, rfl, -⟩ := heffect
    refine .inr (.inl (hstays ?_))
    unfold OnQueue expire
    split
    case isTrue => exact .inr rfl
    case isFalse => exact hp
  | run =>
    obtain ⟨rfl, -⟩ := heffect
    exact .inr (.inl (hstays hp))
  | reset clock =>
    obtain ⟨now, expired, hhandling, rfl, -⟩ := heffect
    by_cases hexpired : place p = .expired
    · by_cases hrepeats : (s.timer p).repeats
      · refine .inr (.inl (hstays (.inl ?_)))
        show (if place p = .expired then s.settlePlace p else place p) = .queued
        rw [if_pos hexpired, settlePlace, if_pos hrepeats]
      · refine .inr (.inr ⟨?_, ?_⟩)
        · rw [← Bool.eq_false_iff.2 hrepeats]
          exact h.created p hfree
        · rcases h.started _ hhandling _ ((hgood.batch _ hhandling).complete p hexpired) with hrest | hstarted
          · cases hrest
          · exact hstarted
    · refine .inr (.inl (hstays ?_))
      show (if place p = .expired then s.settlePlace p else place p) = _ ∨
        (if place p = .expired then s.settlePlace p else place p) = _
      rw [if_neg hexpired]
      exact hp
  | fire =>
    obtain ⟨rfl, -⟩ := heffect
    exact .inr (.inl (hstays hp))

/-- The entries that a batch has passed are entries whose callback was started. -/
theorem Kept.step_started (hgood : Good s place) (hgood' : Good t place') (h : Kept s place log)
    (heffect : Effect s place a t place') : ∀ h ∈ t.handling, ∀ e ∈ h.expired, e ∈ h.rest ∨
      ∃ x, .started (t.timer (ofLex e).2).sequence x ∈ log ++ s.events a := by
  have hsame : t.handling = s.handling → ∀ h ∈ t.handling, ∀ e ∈ h.expired, e ∈ h.rest ∨
      ∃ x, .started (t.timer (ofLex e).2).sequence x ∈ log ++ s.events a := by
    intro heq b hb e he
    have hb' : b ∈ s.handling := heq ▸ hb
    refine (h.started b hb' e he).imp_right fun ⟨x, hx⟩ => ⟨x, List.mem_append_left _ ?_⟩
    have hlive : place' (ofLex e).2 ≠ .free := by
      rw [((hgood'.batch b hb).due e he).1]
      decide
    rcases heffect.timer hlive with ⟨-, hseq, -⟩ | ⟨when, interval, rfl, -⟩
    · rw [hseq]
      exact hx
    · exact absurd heffect.1 (by rw [((hgood.batch b hb').due e he).1]; decide)
  cases a with
  | new p when interval => exact hsame (heffect.2.2 ▸ rfl)
  | addTimerInLoop p clock => exact hsame heffect.2.2.2.2.2.1
  | cancelInLoop id => exact hsame heffect.2.2.1
  | handleRead now =>
    obtain ⟨-, -, -, -, -, expired, hhandling⟩ := heffect
    intro b hb e he
    rw [hhandling] at hb
    obtain rfl := Option.some.inj hb
    exact .inl he
  | run =>
    obtain ⟨-, now, expired, e, rest, hhandling, rfl⟩ := heffect
    intro b hb e' he'
    obtain rfl := Option.some.inj hb
    rcases h.started _ hhandling e' he' with hrest | ⟨x, hx⟩
    · rcases List.mem_cons.1 hrest with rfl | hrest
      · refine .inr ⟨(s.timer (ofLex e').2).expiration, List.mem_append_right _ ?_⟩
        simp only [events, hhandling]
        exact List.mem_cons_self
      · exact .inl hrest
    · exact .inr ⟨x, List.mem_append_left _ hx⟩
  | reset clock =>
    obtain ⟨now, expired, -, -, -, -, hnone, -⟩ := heffect
    intro b hb
    rw [hnone] at hb
    cases hb
  | fire => exact hsame (heffect.2.2 ▸ rfl)

/-- Only `addTimerInLoop` adds, and what it adds is on the queue then. -/
theorem Effect.added (heffect : Effect s place a t place') {q : ℤ} (hq : .added q ∈ s.events a) :
    ∃ p, place' p = .queued ∧ (t.timer p).sequence = q := by
  cases a with
  | addTimerInLoop p clock =>
    obtain ⟨-, -, rfl, hheap, -⟩ := heffect
    obtain rfl := Event.added.inj (List.mem_singleton.1 hq)
    refine ⟨p, Function.update_self .., ?_⟩
    rw [timer_congr (congrFun hheap p)]
  | new p when interval => cases List.mem_singleton.1 hq
  | cancelInLoop id =>
    simp only [events] at hq
    split at hq
    · cases List.mem_singleton.1 hq
    · cases hq
  | handleRead now => cases List.mem_singleton.1 hq
  | run =>
    obtain ⟨-, now, expired, e, rest, hhandling, -⟩ := heffect
    simp only [events, hhandling] at hq
    cases List.mem_singleton.1 hq
  | reset clock => cases hq
  | fire => cases hq

theorem Kept.step (hgood : Good s place) (hgood' : Good t place') (h : Kept s place log)
    (heffect : Effect s place a t place') : Kept t place' (log ++ s.events a) := by
  constructor
  · intro p hp
    rcases heffect.timer hp with ⟨hlive, hseq, hrepeats⟩ | ⟨when, interval, rfl, htimer⟩
    · rw [hseq, hrepeats]
      exact List.mem_append_left _ (h.created p hlive)
    · rw [htimer]
      exact List.mem_append_right _ List.mem_cons_self
  · exact h.step_started hgood hgood' heffect
  · intro q hq
    rcases List.mem_append.1 hq with hq | hq
    · rcases h.kept q hq with hcancelled | ⟨p, hp, rfl⟩ | ⟨hcreated, x, hx⟩
      · exact .inl (List.mem_append_left _ hcancelled)
      · rcases h.stays hgood heffect hp with hcancelled | ⟨hp', hseq⟩ | ⟨hcreated, x, hx⟩
        · exact .inl (List.mem_append_right _ hcancelled)
        · exact .inr (.inl ⟨p, hp', hseq⟩)
        · exact .inr (.inr ⟨List.mem_append_left _ hcreated, x, List.mem_append_left _ hx⟩)
      · exact .inr (.inr ⟨List.mem_append_left _ hcreated, x, List.mem_append_left _ hx⟩)
    · obtain ⟨p, hqueued, hseq⟩ := heffect.added hq
      exact .inr (.inl ⟨p, .inl hqueued, hseq⟩)

/-! ## Every run -/

def Traced (s : TimerQueue × List Event) : Prop :=
  ∃ place, Good s.1 place ∧ Fired s.1 s.2 ∧ OneShot s.1 place s.2 ∧ Kept s.1 place s.2

theorem traced_init : Traced (init, []) := by
  refine ⟨fun _ => .free, good_init, ⟨fun l₁ q x l₂ heq => absurd heq.symm (by simp), nofun⟩,
    ⟨nofun, fun p hp => absurd rfl hp, nofun, fun p hp => absurd rfl hp.1, nofun⟩,
    ⟨fun p hp => absurd rfl hp, nofun, nofun⟩⟩

theorem traced_step (s : TimerQueue × List Event) (a : Action) (t : TimerQueue × List Event) (_ : True)
    (hstep : (machine.logged events).step s a = some t) : Traced s → Traced t := by
  rintro ⟨place, hgood, hfired, honeShot, hkept⟩
  obtain ⟨t, ht, rfl⟩ := Option.map_eq_some_iff.1 hstep
  obtain ⟨place', hgood', heffect⟩ := step_good hgood ht
  exact ⟨place', hgood', hfired.step hgood heffect, honeShot.step hgood heffect, hkept.step hgood hgood' heffect⟩

/-- **Firing**: in every run the sets agree and all assertions hold, callbacks are started on time and in order, those
of one-shot timers at most once, and a timer that was added is queued unless it was cancelled or was due. -/
theorem firing_of_run {l : List Action} {s : TimerQueue} {log : List Event}
    (h : (machine.logged events).Run (fun _ _ => True) (init, []) l (s, log)) :
    s.asserted = true ∧ Aligned s ∧ FiredOnTime log ∧
      (∀ q, .created q false ∈ log → (starts log).count q ≤ 1) ∧
      ∀ q, .added q ∈ log → .cancelled q ∈ log ∨ IsQueued s q ∨ IsHandled s q ∨
        .created q false ∈ log ∧ ∃ x, .started q x ∈ log := by
  obtain ⟨place, hgood, hfired, honeShot, hkept⟩ := h.invariant traced_step traced_init
  refine ⟨hgood.asserted, hgood.aligned, hfired.onTime, honeShot.once, fun q hq => ?_⟩
  rcases hkept.kept q hq with hcancelled | ⟨p, hqueued | hexpired, rfl⟩ | hstarted
  · exact .inl hcancelled
  · exact .inr (.inl ⟨s.entry p, (hgood.entry_mem_iff p).2 hqueued, rfl⟩)
  · refine .inr (.inr (.inl ?_))
    cases hhandling : s.handling with
    | none => exact absurd hexpired (hgood.idle hhandling p)
    | some b =>
      have hbatch := hgood.batch b hhandling
      have hmem := hbatch.complete p hexpired
      exact ⟨b, hhandling, s.entry p, hmem, rfl, (hbatch.due _ hmem).2.2⟩
  · exact .inr (.inr (.inr hstarted))

end Lemmas

/-- The callback of the first timer adds a repeating one and cancels the other. -/
theorem firing_of_run_sample :
    ∃ s, (machine.logged events).Run (fun _ _ => True) (init, [])
        [.new 8 5 none, .addTimerInLoop 8 1, .new 16 20 none, .addTimerInLoop 16 2, .fire, .handleRead 6, .run,
          .new 24 3 (some 4), .addTimerInLoop 24 6, .cancelInLoop ⟨16, 2⟩, .reset 7]
        (s, [.created 1 false, .added 1, .created 2 false, .added 2, .read 6, .started 1 5, .created 3 true, .added 3,
          .cancelled 2]) ∧
      s.asserted = true ∧ Aligned s := by
  have hrun : ∃ s, (machine.logged events).Run (fun _ _ => True) (init, [])
      [.new 8 5 none, .addTimerInLoop 8 1, .new 16 20 none, .addTimerInLoop 16 2, .fire, .handleRead 6, .run,
        .new 24 3 (some 4), .addTimerInLoop 24 6, .cancelInLoop ⟨16, 2⟩, .reset 7]
      (s, [.created 1 false, .added 1, .created 2 false, .added 2, .read 6, .started 1 5, .created 3 true, .added 3,
        .cancelled 2]) := ⟨_, Machine.run_of_exec rfl⟩
  obtain ⟨s, hrun⟩ := hrun
  exact ⟨s, hrun, (firing_of_run hrun).1, (firing_of_run hrun).2.1⟩

end Chatroom.Net.TimerQueue
