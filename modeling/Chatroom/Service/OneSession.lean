import Chatroom.Service.Attribution
import Chatroom.Service.Messages
import Chatroom.Service.Session

/-!
# One session per user

Between the query with which `login` looks at the state of a user and the update that sets him online, any other
thread can come in, and another can set him offline before LOGIN_SUCCESS is sent. The log of a run has the commands
that the threads performed; in a run in which neither happens (`Careful`), nobody is sent a second LOGIN_SUCCESS
before his state was set to offline (`oneSession_of_run`).
-/

namespace Chatroom.Service

open Lib

/-! ## The commands in question -/

/-- LOGIN_SUCCESS is sent to the user. -/
def Cmd.Greets (u : ℤ) (c : Cmd) : Prop :=
  ∃ conn js, c = .send conn js ∧ js.field "msgid" = .ok (.msg .loginSuccess) ∧ js.field "id" = .ok (.num u)

/-- The state of the user is set to offline. -/
def Cmd.SetsOffline (u : ℤ) (c : Cmd) : Prop := c = .updateState u .offline ∨ c = .resetState

theorem Cmd.Greets.not_setsOffline {u v : ℤ} {c : Cmd} (h : c.Greets u) : ¬ c.SetsOffline v := by
  obtain ⟨conn, js, rfl, -⟩ := h
  simp [SetsOffline]

theorem greets_loginSuccess {conn : Conn} {u v : ℤ} {name : String} :
    (Cmd.send conn (loginSuccess v name)).Greets u ↔ v = u := by
  constructor
  · rintro ⟨d, js, heq, -, hid⟩
    obtain ⟨-, rfl⟩ := Cmd.send.inj heq
    exact Json.num.inj (Except.ok.inj hid)
  · rintro rfl
    exact ⟨conn, _, rfl, rfl, rfl⟩

/-- What is said without LOGIN_SUCCESS greets nobody. -/
theorem Cmd.Says.not_greets {ms : List EnMsgType} {c : Cmd} (h : c.Says ms) (hms : .loginSuccess ∉ ms) (u : ℤ) :
    ¬ c.Greets u := by
  rintro ⟨conn, js, rfl, hmsgid, -⟩
  cases js with
  | obj fields =>
    obtain ⟨v, hv, hmsg⟩ := h
    have hfield : Json.field (.obj fields) "msgid" = .ok v := by simp [Json.field, hv]
    rw [Except.ok.inj (hfield.symm.trans hmsgid), isMsg_msg] at hmsg
    exact hms hmsg
  | _ => exact h

/-! ## LOGIN_SUCCESS is sent right after the update -/

/-- The next command of the program sends LOGIN_SUCCESS to the user. -/
def AboutToGreet (u : ℤ) (p : Task Unit) : Prop := ∃ c next, p = .call c next ∧ c.Greets u

/-- LOGIN_SUCCESS is sent to a user only right after he was set online. -/
def Heralded : Task Unit → Prop
  | .ret _ => True
  | .throw _ => True
  | .call c next => ∀ a, (∀ u, AboutToGreet u (next a) → c = .updateState u .online) ∧ Heralded (next a)

/-- It does not begin with a LOGIN_SUCCESS either. -/
def Calm (p : Task Unit) : Prop := Heralded p ∧ ∀ u, ¬ AboutToGreet u p

theorem calm_call {c : Cmd} {next : Ans c → Task Unit} (hc : ∀ u, ¬ c.Greets u) (hnext : ∀ a, Calm (next a)) :
    Calm (.call c next) := by
  refine ⟨fun a => ⟨fun u hu => absurd hu ((hnext a).2 u), (hnext a).1⟩, ?_⟩
  rintro u ⟨d, next', heq, hu⟩
  cases heq
  exact hc u hu

theorem calm_bind {α : Type} {p : Task α} {f : α → Task Unit}
    (h : p.Safe (fun c => ∀ u, ¬ c.Greets u) (fun _ _ => True) fun a => Calm (f a)) : Calm (p >>= f) := by
  induction p with
  | ret a => exact h
  | throw e => exact ⟨trivial, nofun⟩
  | call c next ih => exact calm_call h.1 fun a => ih a (h.2 a trivial)

theorem calm_of_safe {p : Task Unit} (h : p.Safe (fun c => ∀ u, ¬ c.Greets u) (fun _ _ => True) fun _ => True) :
    Calm p := by
  rw [← Program.bind_ret p]
  exact calm_bind (h.imp fun _ _ => ⟨trivial, nofun⟩)

theorem Speaks.calm {ms : List EnMsgType} {p : Task Unit} (h : Speaks ms p) (hms : .loginSuccess ∉ ms) : Calm p :=
  calm_of_safe (h.mono (fun _ hc => hc.not_greets hms) (fun _ _ ha => ha) fun _ ha => ha)

theorem calm_perform {c : Cmd} {f : Ans c → Task Unit} (hc : ∀ u, ¬ c.Greets u) (hf : ∀ a, Calm (f a)) :
    Calm (perform c >>= f) := calm_call hc hf

/-- The end of `login` for a user whom it accepts. -/
theorem calm_greet (conn : Conn) (userid : ℤ) (name : String) (rest : Task Unit) (hrest : Calm rest) :
    Calm (do
      let _ ← perform (.updateState userid .online)
      let _ ← perform (.send conn (loginSuccess userid name))
      rest) := by
  refine ⟨fun _ => ⟨?_, fun _ => ⟨fun u hu => absurd hu (hrest.2 u), hrest.1⟩⟩, ?_⟩
  · rintro u ⟨c, next, heq, hu⟩
    cases heq
    rw [greets_loginSuccess.1 hu]
  · rintro u ⟨c, next, heq, d, js, hc, -⟩
    cases heq
    cases hc

theorem calm_login (conn : Conn) (js : Json) (time : String) : Calm (login conn js time) := by
  refine calm_bind (safe_read.2 fun name _ => calm_bind (safe_read.2 fun pwd _ => ?_))
  refine calm_perform (by simp [Cmd.Greets]) fun user => ?_
  by_cases haccept : user.name = name ∧ user.password = pwd
  · rw [if_pos haccept]
    by_cases honline : user.state = "online"
    · have hsays : Speaks [.loginRepeat] (sendMsg conn .loginRepeat) := by simp [Speaks]
      rw [if_pos honline]
      exact hsays.calm (by decide)
    · rw [if_neg honline]
      refine calm_perform (by simp [Cmd.Greets]) fun _ => calm_perform (by simp [Cmd.Greets]) fun _ => ?_
      refine calm_perform (by simp [Cmd.Greets]) fun _ => calm_greet conn user.id user.name _ ?_
      refine calm_perform (by simp [Cmd.Greets]) fun userVec => ?_
      have hsays : Speaks [.friendOnline] (forM userVec fun userTmp => sendToUser userTmp.id
          [("id", .num user.id), ("msgid", .msg .friendOnline), ("name", .str user.name)]) :=
        Program.safe_forM (fun _ _ => by simp [List.lookup_cons]) trivial
      exact hsays.calm (by decide)
  · have hsays : Speaks [.loginFail] (send conn [("msg", .str "登录失败, 用户不存在"), ("msgid", .msg .loginFail)]) := by
      simp [Speaks, List.lookup_cons]
    rw [if_neg haccept]
    exact hsays.calm (by decide)

/-- **In every activity, LOGIN_SUCCESS is sent to a user only right after he was set online.** -/
theorem calm_body (a : Activity) : Calm a.body := by
  by_cases h : .loginSuccess ∈ a.messages
  · cases a with
    | request conn msgid js time =>
      rw [Activity.body, eq_login_of_mem_messagesOf h, getHandler_login]
      exact calm_login conn js time
    | _ => simp [Activity.messages] at h
  · exact a.speaks_body.calm h

/-! ## What is left of a session in the log -/

/-- LOGIN_SUCCESS was sent to the user after his state was last set to offline. -/
def Greeted (u : ℤ) (log : List Cmd) : Prop :=
  ∃ p c q, log = p ++ c :: q ∧ c.Greets u ∧ ∀ d ∈ q, ¬ d.SetsOffline u

/-- Between two of them that are sent to the user, his state is set to offline. -/
def OneSession (u : ℤ) (log : List Cmd) : Prop := ∀ p c q, log = p ++ c :: q → c.Greets u → ¬ Greeted u p

theorem not_greeted_nil (u : ℤ) : ¬ Greeted u [] := by
  rintro ⟨p, c, q, h, -⟩
  simp at h

theorem greeted_concat {u : ℤ} {log : List Cmd} {c : Cmd} :
    Greeted u (log ++ [c]) ↔ c.Greets u ∨ (Greeted u log ∧ ¬ c.SetsOffline u) := by
  constructor
  · rintro ⟨p, d, q, hlog, hd, hq⟩
    induction q using List.reverseRecOn with
    | nil =>
      obtain ⟨-, heq⟩ := List.append_inj' hlog rfl
      exact .inl (List.singleton_inj.1 heq ▸ hd)
    | append_singleton q e _ =>
      rw [← List.cons_append, ← List.append_assoc] at hlog
      obtain ⟨rfl, heq⟩ := List.append_inj' hlog rfl
      obtain rfl := List.singleton_inj.1 heq
      exact .inr ⟨⟨p, d, q, rfl, hd, fun e he => hq e (by simp [he])⟩, hq c (by simp)⟩
  · rintro (hc | ⟨⟨p, d, q, rfl, hd, hq⟩, hc⟩)
    · exact ⟨log, c, [], rfl, hc, by simp⟩
    · refine ⟨p, d, q ++ [c], by simp, hd, fun e he => ?_⟩
      rcases List.mem_append.1 he with he | he
      · exact hq e he
      · exact List.mem_singleton.1 he ▸ hc

theorem oneSession_concat {u : ℤ} {log : List Cmd} {c : Cmd} (h : OneSession u log)
    (hc : c.Greets u → ¬ Greeted u log) : OneSession u (log ++ [c]) := by
  intro p d q hlog hd
  induction q using List.reverseRecOn with
  | nil =>
    obtain ⟨rfl, heq⟩ := List.append_inj' hlog rfl
    exact hc (List.singleton_inj.1 heq ▸ hd)
  | append_singleton q e _ =>
    rw [← List.cons_append, ← List.append_assoc] at hlog
    obtain ⟨rfl, -⟩ := List.append_inj' hlog rfl
    exact h p d q rfl hd

/-! ## Every run -/

/-- What a step must not do: set a user online whose row does not say `offline` any more, or offline when his
LOGIN_SUCCESS is about to be sent. -/
def Careful (s : Threads) (a : Pool.Action Activity) : Prop := ∀ c ∈ s.performed a, ∀ u,
  (c = .updateState u .online → ∃ r, s.shared.db.user.lookup u = some r ∧ r.state = .offline) ∧
  (c.SetsOffline u → ∀ th ∈ s.threads, ¬ AboutToGreet u th.rest)

/-- Over the threads `ths`: who was greeted since he was last set to offline, or is about to be, is online, and is
so by one thread only. -/
structure Exclusive (w : World) (ths : List (Thread Ans Fault Activity)) (log : List Cmd) : Prop where
  heralded : ∀ th ∈ ths, Heralded th.rest
  apart : ∀ u, ths.Pairwise fun th th' => ¬ (AboutToGreet u th.rest ∧ AboutToGreet u th'.rest)
  alone : ∀ u, Greeted u log → ∀ th ∈ ths, ¬ AboutToGreet u th.rest
  online : ∀ u, (Greeted u log ∨ ∃ th ∈ ths, AboutToGreet u th.rest) → Online w.db.user u
  once : ∀ u, OneSession u log

section Run

variable {env : Environment} {w : World} {u : ℤ}

/-- Who is online stays so until his state is set to offline. -/
theorem Online.exec (h : Online w.db.user u) {c : Cmd} (hc : ¬ c.SetsOffline u) :
    Online (exec env c w).2.db.user u := by
  cases c with
  | insertUser name password state =>
    obtain ⟨r, hr, hstate⟩ := h
    have hne : u ≠ w.db.user.next := by
      rintro rfl
      rw [AutoTable.lookup_next] at hr
      cases hr
    refine ⟨r, ?_, hstate⟩
    show (AutoTable.insert _ _ _).lookup u = some r
    rw [AutoTable.lookup_insert, if_neg fun hu => hne hu.2, hr]
  | updateState v state =>
    refine online_setState.2 ?_
    split
    case isTrue hu =>
      subst hu
      obtain ⟨r, hr, -⟩ := h
      cases state with
      | online => exact ⟨by rw [hr]; rfl, rfl⟩
      | offline => exact absurd (.inl rfl) hc
    case isFalse => exact h
  | resetState => exact absurd (.inr rfl) hc
  | _ => exact h

namespace Exclusive

variable {ths others : List (Thread Ans Fault Activity)} {th : Thread Ans Fault Activity} {log : List Cmd}

theorem perm (h : Exclusive w ths log) {ths' : List (Thread Ans Fault Activity)} (hperm : ths.Perm ths') :
    Exclusive w ths' log where
  heralded th hth := h.heralded th (hperm.mem_iff.2 hth)
  apart u := hperm.pairwise (h.apart u) fun hnot hboth => hnot hboth.symm
  alone u hu th hth := h.alone u hu th (hperm.mem_iff.2 hth)
  online u hu := h.online u (hu.imp_right fun ⟨th, hth, hgreet⟩ => ⟨th, hperm.mem_iff.2 hth, hgreet⟩)
  once := h.once

theorem finish (h : Exclusive w (th :: others) log) : Exclusive w others log where
  heralded th hth := h.heralded th (List.mem_cons_of_mem _ hth)
  apart u := (List.pairwise_cons.1 (h.apart u)).2
  alone u hu th hth := h.alone u hu th (List.mem_cons_of_mem _ hth)
  online u hu := h.online u (hu.imp_right fun ⟨th, hth, hgreet⟩ => ⟨th, List.mem_cons_of_mem _ hth, hgreet⟩)
  once := h.once

theorem start (h : Exclusive w ths log) (task : Activity) : Exclusive w (⟨task, task.body⟩ :: ths) log := by
  have hcalm := calm_body task
  refine ⟨?_, fun u => ?_, ?_, ?_, h.once⟩
  · exact List.forall_mem_cons.2 ⟨hcalm.1, h.heralded⟩
  · exact List.pairwise_cons.2 ⟨fun th _ hboth => hcalm.2 u hboth.1, h.apart u⟩
  · exact fun u hu => List.forall_mem_cons.2 ⟨hcalm.2 u, h.alone u hu⟩
  · rintro u (hu | ⟨th, hth, hgreet⟩)
    · exact h.online u (.inl hu)
    · rcases List.mem_cons.1 hth with rfl | hth
      · exact absurd hgreet (hcalm.2 u)
      · exact h.online u (.inr ⟨th, hth, hgreet⟩)

/-- A thread performs a command. -/
theorem call (h : Exclusive w (th :: others) log) {c : Cmd} {next : Ans c → Task Unit} (hrest : th.rest = .call c next)
    (hcareful : ∀ u, (c = .updateState u .online → ∃ r, w.db.user.lookup u = some r ∧ r.state = .offline) ∧
      (c.SetsOffline u → ∀ th' ∈ th :: others, ¬ AboutToGreet u th'.rest)) :
    Exclusive (exec env c w).2 ({ th with rest := next (exec env c w).1 } :: others) (log ++ [c]) := by
  have hheralded : Heralded (.call c next) := hrest ▸ h.heralded th (List.mem_cons_self ..)
  obtain ⟨hnext, hlater⟩ := hheralded (exec env c w).1
  have hth : ∀ u, c.Greets u → AboutToGreet u th.rest := fun u hu => ⟨c, next, hrest, hu⟩
  -- of the others, none is about to greet whom this thread greets or is about to greet
  have hothers : ∀ u, c.Greets u ∨ AboutToGreet u (next (exec env c w).1) →
      ¬ Greeted u log ∧ ∀ th' ∈ others, ¬ AboutToGreet u th'.rest := by
    rintro u (hu | hu)
    · refine ⟨fun hlog => h.alone u hlog th (List.mem_cons_self ..) (hth u hu), fun th' hth' hgreet => ?_⟩
      exact (List.pairwise_cons.1 (h.apart u)).1 th' hth' ⟨hth u hu, hgreet⟩
    · have hoffline : ¬ Online w.db.user u := by
        rintro ⟨r, hr, hstate⟩
        obtain ⟨r', hr', hstate'⟩ := (hcareful u).1 (hnext u hu)
        rw [hr] at hr'
        rw [← Option.some.inj hr', hstate] at hstate'
        cases hstate'
      refine ⟨fun hlog => hoffline (h.online u (.inl hlog)), fun th' hth' hgreet => ?_⟩
      exact hoffline (h.online u (.inr ⟨th', List.mem_cons_of_mem _ hth', hgreet⟩))
  refine ⟨?_, fun u => ?_, fun u hu => ?_, fun u hu => ?_, fun u => ?_⟩
  · exact List.forall_mem_cons.2 ⟨hlater, fun th' hth' => h.heralded th' (List.mem_cons_of_mem _ hth')⟩
  · refine List.pairwise_cons.2 ⟨fun th' hth' hboth => ?_, (List.pairwise_cons.1 (h.apart u)).2⟩
    exact (hothers u (.inr hboth.1)).2 th' hth' hboth.2
  · rw [greeted_concat] at hu
    refine List.forall_mem_cons.2 ⟨fun hgreet => ?_, fun th' hth' hgreet => ?_⟩
    · rcases hu with ⟨conn, js, rfl, -⟩ | ⟨hlog, -⟩
      · cases hnext u hgreet
      · exact (hothers u (.inr hgreet)).1 hlog
    · rcases hu with hu | ⟨hlog, -⟩
      · exact (hothers u (.inl hu)).2 th' hth' hgreet
      · exact h.alone u hlog th' (List.mem_cons_of_mem _ hth') hgreet
  · rw [greeted_concat] at hu
    rcases hu with (hu | ⟨hlog, hc⟩) | ⟨th', hth', hgreet⟩
    · exact (h.online u (.inr ⟨th, List.mem_cons_self .., hth u hu⟩)).exec hu.not_setsOffline
    · exact (h.online u (.inl hlog)).exec hc
    · rcases List.mem_cons.1 hth' with rfl | hth'
      · obtain rfl := hnext u hgreet
        obtain ⟨r, hr, -⟩ := (hcareful u).1 rfl
        exact online_setState.2 (by simp [hr])
      · have hmem := List.mem_cons_of_mem th hth'
        exact (h.online u (.inr ⟨th', hmem, hgreet⟩)).exec fun hc => (hcareful u).2 hc th' hmem hgreet
  · exact oneSession_concat (h.once u) fun hu => (hothers u (.inl hu)).1

end Exclusive

theorem exclusive_step {s t : Threads} {a : Pool.Action Activity} {log : List Cmd} (hcareful : Careful s a)
    (hst : (server env).step s a = some t) (h : Exclusive s.shared s.threads log) :
    Exclusive t.shared t.threads (log ++ s.performed a) := by
  have hperforms := Pool.performs_of_step _ _ hst
  unfold Careful at hcareful
  generalize s.performed a = cs at hperforms hcareful
  cases hperforms with
  | enqueue hshared hthreads =>
    rw [hshared, hthreads, List.append_nil]
    exact h
  | start task hshared hthreads =>
    rw [hshared, List.append_nil]
    exact (h.start task).perm hthreads.symm
  | call th others c next hrest hthreads hthreads' hshared =>
    rw [hshared]
    refine ((h.perm hthreads).call hrest fun u => ?_).perm hthreads'.symm
    obtain ⟨honline, hoffline⟩ := hcareful c (List.mem_singleton_self c) u
    exact ⟨honline, fun hc th' hth' => hoffline hc th' (hthreads.mem_iff.2 hth')⟩
  | finish th others hrest hthreads hthreads' hshared =>
    rw [hshared, List.append_nil]
    exact (h.perm hthreads).finish.perm hthreads'.symm

/-- **One session per user**: between two LOGIN_SUCCESS that are sent to a user, his state is set to offline, in every
careful run of the server with any number of workers. -/
theorem oneSession_of_run {w₀ : World} {n : ℕ} {l : List (Pool.Action Activity)} {s : Threads} {log : List Cmd}
    (h : ((server env).logged Pool.performed).Run (fun s a => Careful s.1 a) (Pool.start n (boot env w₀), []) l (s, log))
    (u : ℤ) : OneSession u log := by
  have hstep : ∀ (s : Threads × List Cmd) a t, Careful s.1 a →
      ((server env).logged Pool.performed).step s a = some t → Exclusive s.1.shared s.1.threads s.2 →
      Exclusive t.1.shared t.1.threads t.2 := by
    rintro ⟨s, log⟩ a t hcareful hst hs
    obtain ⟨t', ht', rfl⟩ := Option.map_eq_some_iff.1 hst
    exact exclusive_step hcareful ht' hs
  have hstart : Exclusive (boot env w₀) (Pool.start n (boot env w₀) : Threads).threads [] := by
    rw [Pool.threads_start]
    refine ⟨by simp, by simp, by simp, ?_, ?_⟩
    · rintro u (hu | ⟨th, hth, -⟩)
      · exact absurd hu (not_greeted_nil u)
      · cases hth
    · rintro u p c q hlog -
      simp at hlog
  exact (h.invariant hstep hstart).once u

end Run

section Careful

variable {s : Threads} {a : Pool.Action Activity}

theorem careful_of_idle (h : s.performed a = []) : Careful s a := by
  intro c hc
  rw [h] at hc
  cases hc

theorem careful_of_performed {c : Cmd} (h : s.performed a = [c])
    (honline : ∀ u, c = .updateState u .online → ∃ r, s.shared.db.user.lookup u = some r ∧ r.state = .offline)
    (hoffline : ∀ u, ¬ c.SetsOffline u) : Careful s a := by
  intro d hd u
  rw [h, List.mem_singleton] at hd
  subst hd
  exact ⟨honline u, fun hc => absurd hc (hoffline u)⟩

/-- A command that updates no state is no danger. -/
theorem careful_of_performed_of_ne {c : Cmd} (h : s.performed a = [c]) (hupdate : ∀ u state, c ≠ .updateState u state)
    (hreset : c ≠ .resetState) : Careful s a :=
  careful_of_performed h (fun u hc => absurd hc (hupdate u .online))
    fun u hc => hc.elim (fun hc => absurd hc (hupdate u .offline)) fun hc => absurd hc hreset

/-- Nobody is about to be greeted by a thread that sets a user offline. -/
theorem careful_of_offline {v : ℤ} {th : Thread Ans Fault Activity} {next : Ans (.updateState v .offline) → Task Unit}
    (h : s.performed a = [.updateState v .offline]) (hthreads : s.threads = [th])
    (hrest : th.rest = .call (.updateState v .offline) next) : Careful s a := by
  intro c hc u
  rw [h, List.mem_singleton] at hc
  subst hc
  refine ⟨fun hu => absurd hu (by simp), fun _ th' hth' => ?_⟩
  rw [hthreads, List.mem_singleton] at hth'
  subst hth'
  rintro ⟨c, next', hcall, conn, js, rfl, -⟩
  rw [hrest] at hcall
  cases hcall

end Careful

/-- Bob logs in on connection 1 while another worker has his LOGIN_MSG of connection 2 and is late to ask for his
state; connection 1 goes down, and he logs in on connection 2. -/
def bobAgain : List (Pool.Action Activity) :=
  [.enqueue (logsIn 1 "bob" "b"), .enqueue (logsIn 2 "bob" "b"), .dequeue 0, .dequeue 1] ++
    List.replicate 5 (.work 0) ++ .work 1 :: List.replicate 3 (.work 0) ++ List.replicate 2 (.work 1) ++
    .spawn (.down 1) :: List.replicate 8 (.loop 0) ++
    .enqueue (logsIn 2 "bob" "b") :: .dequeue 1 :: List.replicate 8 (.work 1)

theorem oneSession_of_run_bob : ∃ s log, ((server .still).logged Pool.performed).Run (fun s a => Careful s.1 a)
    (Pool.start 2 (boot .still (World.init annAndBob)), []) bobAgain (s, log) ∧
      .send 1 (loginSuccess 4 "bob") ∈ log ∧ .send 2 (loginSuccess 4 "bob") ∈ log ∧ OneSession 4 log := by
  have honline : ∀ (s : Threads) (a : Pool.Action Activity), s.performed a = [.updateState 4 .online] →
      (∃ r, s.shared.db.user.lookup 4 = some r ∧ r.state = .offline) → Careful s a := by
    intro s a hc hrow
    refine careful_of_performed hc (fun u hu => ?_) (by simp [Cmd.SetsOffline])
    rw [← (Cmd.updateState.inj hu).1]
    exact hrow
  obtain ⟨s, log, hrun, hfirst, hsecond⟩ : ∃ s log, ((server .still).logged Pool.performed).Run
      (fun s a => Careful s.1 a) (Pool.start 2 (boot .still (World.init annAndBob)), []) bobAgain (s, log) ∧
      .send 1 (loginSuccess 4 "bob") ∈ log ∧ .send 2 (loginSuccess 4 "bob") ∈ log := by
    refine ⟨_, _,
      .cons (careful_of_idle rfl) rfl <| .cons (careful_of_idle rfl) rfl <| .cons (careful_of_idle rfl) rfl <|
      .cons (careful_of_idle rfl) rfl <| .cons (careful_of_performed_of_ne rfl nofun nofun) rfl <|
      .cons (careful_of_performed_of_ne rfl nofun nofun) rfl <|
      .cons (careful_of_performed_of_ne rfl nofun nofun) rfl <|
      .cons (careful_of_performed_of_ne rfl nofun nofun) rfl <| .cons (honline _ _ rfl ⟨_, rfl, rfl⟩) rfl <|
      .cons (careful_of_performed_of_ne rfl nofun nofun) rfl <|
      .cons (careful_of_performed_of_ne rfl nofun nofun) rfl <|
      .cons (careful_of_performed_of_ne rfl nofun nofun) rfl <| .cons (careful_of_idle rfl) rfl <|
      .cons (careful_of_performed_of_ne rfl nofun nofun) rfl <| .cons (careful_of_idle rfl) rfl <|
      .cons (careful_of_idle rfl) rfl <| .cons (careful_of_performed_of_ne rfl nofun nofun) rfl <|
      .cons (careful_of_performed_of_ne rfl nofun nofun) rfl <|
      .cons (careful_of_performed_of_ne rfl nofun nofun) rfl <|
      .cons (careful_of_performed_of_ne rfl nofun nofun) rfl <|
      .cons (careful_of_performed_of_ne rfl nofun nofun) rfl <|
      .cons (careful_of_performed_of_ne rfl nofun nofun) rfl <| .cons (careful_of_offline rfl rfl rfl) rfl <|
      .cons (careful_of_performed_of_ne rfl nofun nofun) rfl <| .cons (careful_of_idle rfl) rfl <|
      .cons (careful_of_idle rfl) rfl <| .cons (careful_of_performed_of_ne rfl nofun nofun) rfl <|
      .cons (careful_of_performed_of_ne rfl nofun nofun) rfl <|
      .cons (careful_of_performed_of_ne rfl nofun nofun) rfl <|
      .cons (careful_of_performed_of_ne rfl nofun nofun) rfl <| .cons (honline _ _ rfl ⟨_, rfl, rfl⟩) rfl <|
      .cons (careful_of_performed_of_ne rfl nofun nofun) rfl <|
      .cons (careful_of_performed_of_ne rfl nofun nofun) rfl <| .cons (careful_of_idle rfl) rfl <| .nil _, ?_, ?_⟩
    · exact List.mem_of_getElem? (i := 6) rfl
    · exact List.mem_of_getElem? (i := 22) rfl
  exact ⟨s, log, hrun, hfirst, hsecond, oneSession_of_run hrun 4⟩

/-- Two workers log bob in, on the connections 1 and 2; each has asked for his state before the other sets it. -/
def bobTwice : List (Pool.Action Activity) :=
  [.enqueue (logsIn 1 "bob" "b"), .enqueue (logsIn 2 "bob" "b"), .dequeue 0, .dequeue 1, .work 0, .work 1] ++
    List.replicate 5 (.work 0) ++ List.replicate 5 (.work 1)

/-- Bob is sent LOGIN_SUCCESS twice. -/
theorem bob_has_two_sessions : ∃ s log, ((server .still).logged Pool.performed).exec
    (Pool.start 2 (boot .still (World.init annAndBob)), []) bobTwice = some (s, log) ∧ ¬ OneSession 4 log := by
  refine ⟨_, _, rfl, fun h => ?_⟩
  let first : List Cmd := [.queryUserByName "bob", .queryUserByName "bob", .setUserConn 4 1, .setConnUser 1 4,
    .setConnStatus 1 true, .updateState 4 .online]
  let second : List Cmd := [.setUserConn 4 2, .setConnUser 2 4, .setConnStatus 2 true, .updateState 4 .online]
  refine h (first ++ .send 1 (loginSuccess 4 "bob") :: second) (.send 2 (loginSuccess 4 "bob")) [] rfl
    (greets_loginSuccess.2 rfl) ⟨first, _, second, rfl, greets_loginSuccess.2 rfl, ?_⟩
  simp [second, Cmd.SetsOffline]

end Chatroom.Service
