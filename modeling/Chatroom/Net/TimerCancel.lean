import Chatroom.Net.TimerFiring

/-!
# `cancel` with the id that `addTimer` returned

The ids that `addTimer` returns have the sequence number 0, which no timer has: `cancelInLoop` finds nothing. So the
timer is never started again only when it would not have been anyway (`IsPending`), and otherwise some run starts it.
-/

namespace Chatroom.Net.TimerQueue

open Lib

/-- No run from here on comes to a step that starts the callback. -/
def NeverStarted (s : TimerQueue) (q : ℤ) : Prop :=
  ∀ l t a u, machine.Run (fun _ _ => True) s l t → t.step a = some u → ∀ x, .started q x ∉ t.events a

/-- The timer exists, and if `handleRead` has taken it out, then its callback is still to come or it repeats. -/
def IsPending (s : TimerQueue) (q : ℤ) : Prop :=
  ∃ p, (s.heap p).isSome ∧ (s.timer p).sequence = q ∧
    ∀ h ∈ s.handling, ∀ e ∈ h.expired, (ofLex e).2 = p → e ∈ h.rest ∨ (s.timer p).repeats

section Lemmas

variable {s t : TimerQueue} {place place' : Address → Place} {p : Address}

/-- A timer that is taken out and not to be queued again waits for its callback. -/
def Pends (s : TimerQueue) (place : Address → Place) (p : Address) : Prop :=
  place p ≠ .free ∧ (place p = .expired → (∃ h ∈ s.handling, s.entry p ∈ h.rest) ∨ (s.timer p).repeats)

theorem isPending_iff (h : Good s place) {q : ℤ} : IsPending s q ↔ ∃ p, (s.timer p).sequence = q ∧ Pends s place p := by
  unfold IsPending Pends
  refine exists_congr fun p => ?_
  rw [and_left_comm, h.heap p]
  refine and_congr_right fun _ => and_congr_right fun _ => ?_
  constructor
  · intro hpends hexpired
    cases hhandling : s.handling with
    | none => exact absurd hexpired (h.idle hhandling p)
    | some b =>
      have hmem := (h.batch b hhandling).complete p hexpired
      exact (hpends b hhandling _ hmem rfl).imp_left fun hrest => ⟨b, rfl, hrest⟩
  · rintro hpends b hb e he rfl
    obtain ⟨hexpired, hentry, -⟩ := (h.batch b hb).due e he
    refine (hpends hexpired).imp_left ?_
    rintro ⟨b', hb', hrest⟩
    obtain rfl := Option.some.inj (hb.symm.trans hb')
    exact hentry ▸ hrest

/-! ## Not pending -/

theorem Pends.of_step (hgood : Good s place) {a : Action} (heffect : Effect s place a t place')
    (hlive : place p ≠ .free) (h : Pends t place' p) : Pends s place p := by
  refine ⟨hlive, fun hexpired => ?_⟩
  have htimer : (t.timer p).repeats = (s.timer p).repeats := by
    rcases heffect.timer h.1 with ⟨-, -, hrepeats⟩ | ⟨when, interval, rfl, -⟩
    · exact hrepeats
    · exact absurd heffect.1 hlive
  rw [← htimer]
  cases a with
  | new q when interval =>
    obtain ⟨hfree, rfl, rfl⟩ := heffect
    have hne : p ≠ q := by
      rintro rfl
      exact hlive hfree
    have hpends := h.2 (by rwa [Function.update_of_ne hne])
    rwa [entry_of_ne (s := s) rfl hne] at hpends
  | addTimerInLoop q clock =>
    obtain ⟨hcreated, -, rfl, hheap, -, hhandling, -⟩ := heffect
    have hpends := h.2 ((update_eq_iff (by rw [hcreated]; decide) (by decide) p).2 hexpired)
    rwa [hhandling, entry_congr (congrFun hheap p)] at hpends
  | cancelInLoop id =>
    obtain ⟨-, -, hhandling, -, ⟨hqueued, -, rfl, hheap⟩ | ⟨-, rfl, rfl⟩⟩ := heffect
    · have hne : p ≠ id.timer := by
        rintro rfl
        exact h.1 (Function.update_self ..)
      have hpends := h.2 (by rwa [Function.update_of_ne hne])
      rwa [hhandling, entry_of_ne hheap hne] at hpends
    · exact h.2 hexpired
  | handleRead now =>
    obtain ⟨hnone, -⟩ := heffect
    exact absurd hexpired (hgood.idle hnone p)
  | run =>
    obtain ⟨rfl, now, expired, e, rest, hhandling, rfl⟩ := heffect
    refine (h.2 hexpired).imp_left ?_
    rintro ⟨b, hb, hrest⟩
    obtain rfl := Option.some.inj hb
    exact ⟨_, hhandling, List.mem_cons_of_mem e hrest⟩
  | reset clock =>
    obtain ⟨now, expired, -, rfl, -⟩ := heffect
    have hfree : (if place p = .expired then s.settlePlace p else place p) ≠ .free := h.1
    rw [if_pos hexpired, settlePlace] at hfree
    rw [htimer]
    exact .inr (by_contra fun hrepeats => hfree (if_neg hrepeats))
  | fire =>
    obtain ⟨rfl, -, rfl⟩ := heffect
    exact h.2 hexpired

theorem numCreated_le_of_step (h : Inv s) {a : Action} (hstep : s.step a = some t) : s.numCreated ≤ t.numCreated := by
  obtain ⟨place, hgood⟩ := h
  obtain ⟨place', -, heffect⟩ := step_good hgood hstep
  exact heffect.numCreated_le

theorem sequence_le (h : Inv s) (hp : (s.heap p).isSome) : (s.timer p).sequence ≤ s.numCreated := by
  obtain ⟨place, hgood⟩ := h
  exact (hgood.sequence p ((hgood.heap p).1 hp)).2

/-- A timer that exists after a step existed before, or it has the next number. -/
theorem timer_of_step (h : Inv s) {a : Action} (hstep : s.step a = some t) (hp : (t.heap p).isSome) :
    ((s.heap p).isSome ∧ (t.timer p).sequence = (s.timer p).sequence ∧ (t.timer p).repeats = (s.timer p).repeats) ∨
      ∃ when interval, a = .new p when interval ∧ t.timer p = ⟨when, interval, s.numCreated + 1⟩ := by
  obtain ⟨place, hgood⟩ := h
  obtain ⟨place', hgood', heffect⟩ := step_good hgood hstep
  rw [hgood.heap]
  exact heffect.timer ((hgood'.heap p).1 hp)

/-- What a step leaves pending was pending, or it was made by the step. -/
theorem IsPending.of_step (h : Inv s) {a : Action} (hstep : s.step a = some t) {q : ℤ} (hq : IsPending t q) :
    IsPending s q ∨ (∃ p when interval, a = .new p when interval) ∧ q = s.numCreated + 1 := by
  obtain ⟨place, hgood⟩ := h
  obtain ⟨place', hgood', heffect⟩ := step_good hgood hstep
  obtain ⟨p, rfl, hpends⟩ := (isPending_iff hgood').1 hq
  rcases heffect.timer hpends.1 with ⟨hlive, hseq, -⟩ | ⟨when, interval, rfl, htimer⟩
  · exact .inl ((isPending_iff hgood).2 ⟨p, hseq.symm, hpends.of_step hgood heffect hlive⟩)
  · exact .inr ⟨⟨p, when, interval, rfl⟩, by rw [htimer]⟩

theorem isSome_of_handling (h : Inv s) {now : Timestamp} {expired rest : List Entry} {e : Entry}
    (hhandling : s.handling = some ⟨now, expired, e :: rest⟩) : (s.heap (ofLex e).2).isSome := by
  obtain ⟨place, hgood⟩ := h
  have hbatch := hgood.batch _ hhandling
  rw [hgood.heap, (hbatch.due e (hbatch.rest.subset List.mem_cons_self)).1]
  decide

/-- A timer that does not repeat is pending until its callback is called. -/
theorem isPending_of_run (h : Inv s) {now : Timestamp} {expired rest : List Entry} {e : Entry}
    (hhandling : s.handling = some ⟨now, expired, e :: rest⟩) (hrepeats : (s.timer (ofLex e).2).repeats = false)
    (hstep : s.step .run = some t) :
    IsPending s (s.timer (ofLex e).2).sequence ∧ ¬ IsPending t (s.timer (ofLex e).2).sequence := by
  obtain ⟨place, hgood⟩ := h
  have hbatch := hgood.batch _ hhandling
  obtain ⟨hexpired, hentry, -⟩ := hbatch.due e (hbatch.rest.subset List.mem_cons_self)
  have hlive : place (ofLex e).2 ≠ .free := by
    rw [hexpired]
    decide
  refine ⟨(isPending_iff hgood).2 ⟨_, rfl, hlive, fun _ => .inl ⟨_, hhandling, ?_⟩⟩, ?_⟩
  · exact hentry ▸ List.mem_cons_self
  · obtain ⟨place', hgood', rfl, now', expired', e', rest', hhandling', rfl⟩ := step_good hgood hstep
    obtain ⟨rfl, rfl, hrest⟩ := Handling.mk.inj (Option.some.inj (hhandling.symm.trans hhandling'))
    obtain ⟨rfl, rfl⟩ := List.cons.inj hrest
    rw [isPending_iff hgood']
    rintro ⟨p, hseq, hp, hpends⟩
    obtain rfl := hgood.unique p (ofLex e).2 hp hlive hseq
    rcases hpends hexpired with ⟨b, hb, hmem⟩ | hrepeats'
    · obtain rfl := Option.some.inj hb
      -- the entries of the batch are in order, and this one comes before the others
      have hlt := (List.pairwise_cons.1 (hbatch.sorted.sublist hbatch.rest.sublist)).1 _ hmem
      exact hlt.ne hentry
    · exact Bool.false_ne_true (hrepeats.symm.trans hrepeats')

/-- It was created, and it will not be started. -/
def Past (q : ℤ) (s : TimerQueue) : Prop := Inv s ∧ q ≤ s.numCreated ∧ ¬ IsPending s q

/-- What is created later has another number. -/
theorem past_step (q : ℤ) (s : TimerQueue) (a : Action) (t : TimerQueue) (_ : True)
    (hstep : machine.step s a = some t) : Past q s → Past q t := by
  rintro ⟨hinv, hq, hpending⟩
  refine ⟨inv_step (fun _ _ => True) s a t trivial hstep hinv, hq.trans (numCreated_le_of_step hinv hstep), ?_⟩
  intro hpending'
  rcases hpending'.of_step hinv hstep with hpending' | ⟨-, rfl⟩
  · exact hpending hpending'
  · omega

theorem Past.neverStarted {q : ℤ} (h : Past q s) : NeverStarted s q := by
  intro l t a u hrun _ x hx
  obtain ⟨⟨place, hgood⟩, -, hpending⟩ := hrun.invariant (past_step q) h
  obtain ⟨now, expired, e, rest, hhandling, rfl⟩ := started_of_mem_events hx
  have hbatch := hgood.batch _ hhandling
  obtain ⟨hexpired, hentry, -⟩ := hbatch.due e (hbatch.rest.subset List.mem_cons_self)
  refine hpending ((isPending_iff hgood).2 ⟨_, rfl, by rw [hexpired]; decide, fun _ => .inl ⟨_, hhandling, ?_⟩⟩)
  exact hentry ▸ List.mem_cons_self

/-! ## Pending -/

theorem NeverStarted.step {q : ℤ} (h : NeverStarted s q) {a : Action} (hstep : s.step a = some t) :
    NeverStarted t q :=
  fun l u b v hrun => h (a :: l) u b v (.cons trivial hstep hrun)

/-- The callbacks of a batch are run one after the other. -/
theorem not_neverStarted_of_rest {now : Timestamp} {expired rest : List Entry} {e : Entry}
    (hhandling : s.handling = some ⟨now, expired, rest⟩) (he : e ∈ rest) (hgood : Good s place) :
    ¬ NeverStarted s (s.timer (ofLex e).2).sequence := by
  induction rest generalizing s place with
  | nil => cases he
  | cons e' rest ih =>
    intro hnever
    have hstep : s.step .run = some { s.deref (ofLex e').2 with handling := some ⟨now, expired, rest⟩ } := by
      simp only [TimerQueue.step, hhandling]
    rcases List.mem_cons.1 he with rfl | he
    · refine hnever [] s .run _ (.nil s) hstep (s.timer (ofLex e).2).expiration ?_
      simp only [events, hhandling]
      exact List.mem_cons_self
    · obtain ⟨place', hgood', -⟩ := step_good hgood hstep
      exact ih rfl he hgood' (hnever.step hstep)

theorem not_neverStarted_of_queued (hgood : Good s place) (hhandling : s.handling = none) (hp : place p = .queued) :
    ¬ NeverStarted s (s.timer p).sequence := by
  intro hnever
  have hstep : s.step (.handleRead (s.timer p).expiration) = some (s.handleRead (s.timer p).expiration) :=
    if_pos hhandling
  obtain ⟨place', hgood', -, hplace, hheap, -, -, expired, hhandling'⟩ := step_good hgood hstep
  have hexpired : place' p = .expired := by
    rw [hplace]
    exact if_pos ⟨hp, le_rfl⟩
  have hmem := (hgood'.batch _ hhandling').complete p hexpired
  refine not_neverStarted_of_rest hhandling' hmem hgood' ?_
  show NeverStarted _ ((s.handleRead (s.timer p).expiration).timer p).sequence
  rw [timer_congr (congrFun hheap p)]
  exact hnever.step hstep

theorem not_neverStarted_of_idle (hgood : Good s place) (hhandling : s.handling = none) (hp : place p ≠ .free) :
    ¬ NeverStarted s (s.timer p).sequence := by
  intro hnever
  cases hplace : place p with
  | free => exact hp hplace
  | created =>
    have hfree : s.Free := by
      intro b hb
      rw [hhandling] at hb
      cases hb
    have hstep : s.step (.addTimerInLoop p 0) =
        some ({ s with created := s.created.erase p }.addTimerInLoop p 0) :=
      if_pos ⟨(hgood.created p).2 hplace, hfree⟩
    obtain ⟨place', hgood', -, -, hplace', hheap, -, hhandling', -⟩ := step_good hgood hstep
    refine not_neverStarted_of_queued (p := p) hgood' (hhandling'.trans hhandling) ?_ ?_
    · rw [hplace']
      exact Function.update_self ..
    · rw [timer_congr (congrFun hheap p)]
      exact hnever.step hstep
  | queued => exact not_neverStarted_of_queued hgood hhandling hplace hnever
  | expired => exact hgood.idle hhandling p hplace

theorem not_neverStarted_of_pends {now : Timestamp} {expired rest : List Entry}
    (hhandling : s.handling = some ⟨now, expired, rest⟩) (hgood : Good s place) (hp : Pends s place p) :
    ¬ NeverStarted s (s.timer p).sequence := by
  induction rest generalizing s place with
  | nil =>
    intro hnever
    obtain ⟨t, hstep⟩ : ∃ t, s.step (.reset 0) = some t := by
      simp only [TimerQueue.step, hhandling]
      exact ⟨_, rfl⟩
    obtain ⟨place', hgood', heffect⟩ := step_good hgood hstep
    have hlive : place' p ≠ .free := by
      obtain ⟨_, _, -, rfl, -⟩ := heffect
      show (if place p = .expired then s.settlePlace p else place p) ≠ .free
      split
      case isTrue hexpired =>
        rcases hp.2 hexpired with ⟨b, hb, hrest⟩ | hrepeats
        · obtain rfl := Option.some.inj (hhandling.symm.trans hb)
          cases hrest
        · rw [settlePlace, if_pos hrepeats]
          decide
      case isFalse => exact hp.1
    have hseq : (t.timer p).sequence = (s.timer p).sequence := by
      rcases heffect.timer hlive with ⟨-, hseq, -⟩ | ⟨when, interval, heq, -⟩
      · exact hseq
      · cases heq
    obtain ⟨_, _, -, -, -, -, hnone, -⟩ := heffect
    refine not_neverStarted_of_idle hgood' hnone hlive ?_
    rw [hseq]
    exact hnever.step hstep
  | cons e rest ih =>
    intro hnever
    by_cases he : s.entry p ∈ e :: rest
    · exact not_neverStarted_of_rest hhandling he hgood hnever
    · obtain ⟨t, hstep⟩ : ∃ t, s.step .run = some t := by
        simp only [TimerQueue.step, hhandling]
        exact ⟨_, rfl⟩
      obtain ⟨place', hgood', rfl, now', expired', e', rest', hhandling', rfl⟩ := step_good hgood hstep
      obtain ⟨rfl, rfl, hrest'⟩ := Handling.mk.inj (Option.some.inj (hhandling.symm.trans hhandling'))
      obtain ⟨rfl, rfl⟩ := List.cons.inj hrest'
      refine ih rfl hgood' ⟨hp.1, fun hexpired => ?_⟩ (hnever.step hstep)
      rcases hp.2 hexpired with ⟨b, hb, hrest⟩ | hrepeats
      · obtain rfl := Option.some.inj (hhandling.symm.trans hb)
        exact absurd hrest he
      · exact .inr hrepeats

/-- **Pending timers, and no others, can still be started.** -/
theorem neverStarted_iff (h : Inv s) {q : ℤ} (hq : q ≤ s.numCreated) : NeverStarted s q ↔ ¬ IsPending s q := by
  refine ⟨fun hnever hpending => ?_, fun hpending => Past.neverStarted ⟨h, hq, hpending⟩⟩
  obtain ⟨place, hgood⟩ := h
  obtain ⟨p, rfl, hp⟩ := (isPending_iff hgood).1 hpending
  cases hhandling : s.handling with
  | none => exact not_neverStarted_of_idle hgood hhandling hp.1 hnever
  | some b => exact not_neverStarted_of_pends hhandling hgood hp hnever

/-! ## `cancel` -/

/-- No timer has the number 0. -/
theorem cancelInLoop_ofTimer (h : Inv s) (p : Address) : s.cancelInLoop (.ofTimer p) = s := by
  obtain ⟨place, hgood⟩ := h
  rcases cancelInLoop_eq hgood.toRep (.ofTimer p) with ⟨hqueued, hseq, -⟩ | ⟨-, heq⟩
  · have hlive : place p ≠ .free := by
      rw [show place p = .queued from hqueued]
      decide
    have hseq : 0 = (s.timer p).sequence := hseq
    have := (hgood.sequence p hlive).1
    omega
  · exact heq

def Counted (n : ℤ) (s : TimerQueue) : Prop := Inv s ∧ n ≤ s.numCreated

theorem counted_step (n : ℤ) (s : TimerQueue) (a : Action) (t : TimerQueue) (_ : True)
    (hstep : machine.step s a = some t) : Counted n s → Counted n t := by
  rintro ⟨hinv, hle⟩
  exact ⟨inv_step (fun _ _ => True) s a t trivial hstep hinv, hle.trans (numCreated_le_of_step hinv hstep)⟩

end Lemmas

/-- **After `cancel`**: `addTimer` made a timer at `p`, and its id is cancelled at any later point. The callback is
never started from then on exactly when the timer was not pending any more. -/
theorem cancel_iff {l₁ l₂ : List Action} {s₁ s₂ s t : TimerQueue} {p : Address} {when : Timestamp}
    {interval : Option ℕ} (hbefore : machine.Run (fun _ _ => True) init l₁ s₁)
    (hnew : s₁.step (.new p when interval) = some s₂) (hafter : machine.Run (fun _ _ => True) s₂ l₂ s)
    (hcancel : s.step (.cancelInLoop (.ofTimer p)) = some t) :
    NeverStarted t (s₂.timer p).sequence ↔ ¬ IsPending s (s₂.timer p).sequence := by
  have hinv₁ : Inv s₁ := hbefore.invariant (inv_step _) inv_init
  have hinv₂ : Inv s₂ := inv_step (fun _ _ => True) s₁ (.new p when interval) s₂ trivial hnew hinv₁
  have hcounted : (s₂.timer p).sequence ≤ s₂.numCreated := by
    obtain ⟨place, hgood⟩ := hinv₁
    obtain ⟨place', hgood', -, hplace, -⟩ := step_good hgood hnew
    refine sequence_le hinv₂ ((hgood'.heap p).2 ?_)
    rw [hplace, Function.update_self]
    decide
  obtain ⟨hinv, hle⟩ := hafter.invariant (counted_step _) ⟨hinv₂, hcounted⟩
  obtain rfl : s = t := by
    simp only [step, cancelInLoop_ofTimer hinv] at hcancel
    split at hcancel
    · exact Option.some.inj hcancel
    · cases hcancel
  exact neverStarted_iff hinv hle

/-- A one-shot timer is cancelled after its callback has been run. -/
theorem cancel_iff_done :
    ∃ s₂ s t, init.step (.new 8 5 none) = some s₂ ∧
      machine.Run (fun _ _ => True) s₂ [.addTimerInLoop 8 1, .fire, .handleRead 6, .run, .reset 7] s ∧
      s.step (.cancelInLoop (.ofTimer 8)) = some t ∧ NeverStarted t (s₂.timer 8).sequence := by
  obtain ⟨s₂, s, t, hnew, hrun, hcancel, hheap⟩ : ∃ s₂ s t, init.step (.new 8 5 none) = some s₂ ∧
      machine.Run (fun _ _ => True) s₂ [.addTimerInLoop 8 1, .fire, .handleRead 6, .run, .reset 7] s ∧
      s.step (.cancelInLoop (.ofTimer 8)) = some t ∧ ∀ p, s.heap p = none := by
    refine ⟨_, _, _, rfl, Machine.run_of_exec rfl, rfl, fun p => ?_⟩
    show Function.update (Function.update (fun _ => (none : Option Timer)) 8 (some ⟨5, none, 1⟩)) 8 none p = none
    rw [Function.update_idem, Function.update_apply, ite_self]
  refine ⟨s₂, s, t, hnew, hrun, hcancel, (cancel_iff (.nil _) hnew hrun hcancel).2 ?_⟩
  rintro ⟨p, hp, -⟩
  rw [hheap] at hp
  cases hp

/-- The id of a queued timer is cancelled, and then its callback is started. -/
theorem cancelled_timer_starts :
    ∃ s₂ s t u, init.step (.new 8 5 none) = some s₂ ∧ machine.Run (fun _ _ => True) s₂ [.addTimerInLoop 8 1] s ∧
      s.step (.cancelInLoop (.ofTimer 8)) = some t ∧ machine.Run (fun _ _ => True) t [.fire, .handleRead 6] u ∧
      (u.step .run).isSome ∧ .started (s₂.timer 8).sequence 5 ∈ u.events .run ∧
      ¬ NeverStarted t (s₂.timer 8).sequence := by
  obtain ⟨s₂, s, t, u, v, hnew, hadd, hcancel, hread, hrun, hstarted⟩ :
      ∃ s₂ s t u v, init.step (.new 8 5 none) = some s₂ ∧ machine.Run (fun _ _ => True) s₂ [.addTimerInLoop 8 1] s ∧
        s.step (.cancelInLoop (.ofTimer 8)) = some t ∧ machine.Run (fun _ _ => True) t [.fire, .handleRead 6] u ∧
        u.step .run = some v ∧ u.events .run = [.started (s₂.timer 8).sequence 5] :=
    ⟨_, _, _, _, _, rfl, Machine.run_of_exec rfl, rfl, Machine.run_of_exec rfl, rfl, rfl⟩
  have hmem : .started (s₂.timer 8).sequence 5 ∈ u.events .run := by
    rw [hstarted]
    exact List.mem_cons_self
  exact ⟨s₂, s, t, u, hnew, hadd, hcancel, hread, by rw [hrun]; rfl, hmem,
    fun hnever => hnever _ u .run v hread hrun 5 hmem⟩

end Chatroom.Net.TimerQueue
