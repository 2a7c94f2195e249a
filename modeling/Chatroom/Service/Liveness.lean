import Chatroom.Service.Watching

/-!
# Whom the heartbeat closes

`checkIfConnAlive` goes by the flags alone: `onJsonMessage` sets them, SEND_FILE removes them until SEND_FILE_END, a
login sets its own, and a download none. It closes only idle connections if the steps are considerate (`idle_of_run`),
and others where a download takes longer than two checks or a login comes late (`busy_closed`).
-/

namespace Chatroom.Service

open Lib Pool

namespace Watching

/-! ## What is asked of the steps -/

variable (conn : Conn)

/-- RECEIVE_FILE of the connection. -/
def isDownload : Activity → Bool
  | .request d msgid _ _ => d = conn && msgid = EnMsgType.receiveFile.code
  | _ => false

/-- `handleReceiveFile` is running for the connection. -/
def downloading (s : Watching) : Bool :=
  s.threads.threads.any fun th => isDownload conn th.task && th.rest.running

/-- The loop is about to enqueue RECEIVE_FILE. -/
def announces : LoopPc → Bool
  | .enqueue msgid _ _ => msgid = EnMsgType.receiveFile.code
  | _ => false

/-- RECEIVE_FILE of the connection was read, and has not been answered to its end. -/
def pending (s : Watching) : Bool :=
  s.downloading conn || s.threads.queue.any (fun x => isDownload conn x.1) || announces (s.loop conn)

/-- What a command must not come upon. -/
def ConsiderateCall (s : Watching) : Cmd → Prop
  -- a check comes between two downloads, or when more was heard since the last one; and not in the middle of SEND_FILE
  | .sweepConnStatus => (s.pending conn = true → s.heard conn = true) ∧ s.loop conn ≠ .removeStatus
  -- a login comes before the upload
  | .setConnStatus d _ => d = conn → s.uploads conn = false
  | _ => True

/-- What a step must not come upon. -/
def Considerate (s : Watching) : Event → Prop
  | .pool a => ∀ c ∈ s.threads.performed a, ConsiderateCall conn s c
  -- SEND_FILE does not come while a check is running
  | .read d (.sendFile true) => d = conn → s.checking = false
  -- a file that does not open comes after something that was heard
  | .read d (.sendFile false) => d = conn → s.heard conn = true
  | _ => True

/-- Nothing was heard from the connection since the check before, and nothing is transferred. -/
structure Idle (s : Watching) : Prop where
  heard : s.heard conn = false
  heardBefore : s.heardBefore conn = false
  uploads : s.uploads conn = false
  downloading : s.downloading conn = false

/-! ## The flag of a connection -/

/-- The entry in `m_connStatusMap`. -/
def flag (s : Watching) : Option Bool := s.threads.shared.connStatusMap.lookup conn

/-- What the flag says of a connection when the steps are considerate. -/
structure Faithful (s : Watching) : Prop where
  /-- whoever was heard since the last check has it -/
  heard : s.heard conn = true → s.loop conn ≠ .removeStatus → s.flag conn ≠ some false
  /-- whoever sends a file is not listed -/
  uploads : s.uploads conn = true → s.loop conn ≠ .removeStatus → s.flag conn = none
  receiving : s.uploads conn = true → s.loop conn = .idle ∨ s.loop conn = .removeStatus ∨ s.loop conn = .gone
  removing : s.loop conn = .removeStatus → s.checking = false
  /-- whom the check is about to close has been silent, and is about to get nothing -/
  silent : s.checking = true → conn ∈ s.connectionsToDelete → s.heard conn = false ∧ s.heardBefore conn = false ∧
    s.uploads conn = false ∧ s.pending conn = false

/-- Nothing that is kept about the connection changes, its flag apart. -/
structure Untouched (s t : Watching) : Prop where
  loop : t.loop conn = s.loop conn
  uploads : t.uploads conn = s.uploads conn
  heard : t.heard conn = s.heard conn
  heardBefore : t.heardBefore conn = s.heardBefore conn
  connectionsToDelete : t.connectionsToDelete = s.connectionsToDelete

section Faithful

variable {conn} {env : Environment} {s t : Watching}

/-! ### Checks and downloads -/

/-- What was not so before has not become so. -/
theorem eq_false_of_imp {a b : Bool} (hb : b = false) (h : a = true → b = true) : a = false := by
  cases a with
  | false => rfl
  | true => exact (h rfl).symm.trans hb

theorem isChecking_body (task : Activity) : isChecking ⟨task, task.body⟩ = false := by
  cases task <;> rfl

/-- Only the first loop of a check begins it. -/
theorem isChecking_of_call {th : Thread Ans Fault Activity} {c : Cmd} {next : Ans c → Task Unit} {p : Task Unit}
    (hrest : th.rest = .call c next) (hsweep : c ≠ .sweepConnStatus)
    (h : isChecking { th with rest := p } = true) : isChecking th = true := by
  cases htask : th.task with
  | heartbeat =>
    simp only [isChecking, htask, holdsMutex, hrest]
    cases c <;> first | rfl | exact absurd rfl hsweep
  | _ => simp [isChecking, htask] at h

theorem checking_iff : s.checking = true ↔ ∃ th ∈ s.threads.threads, isChecking th = true := by
  simp [checking]

theorem locked_of_checking (h : s.checking = true) : s.locked = true := by
  obtain ⟨th, hth, hchecking⟩ := checking_iff.1 h
  refine List.any_eq_true.2 ⟨th, hth, ?_⟩
  unfold isChecking at hchecking
  split at hchecking
  · exact hchecking
  · cases hchecking

theorem not_checking_of_free (h : s.locked = false) : s.checking = false :=
  eq_false_of_imp h locked_of_checking

theorem pending_iff : s.pending conn = true ↔
    (∃ th ∈ s.threads.threads, isDownload conn th.task = true ∧ th.rest.running = true) ∨
    (∃ x ∈ s.threads.queue, isDownload conn x.1 = true) ∨ announces (s.loop conn) = true := by
  simp [pending, downloading, or_assoc]

theorem pending_of_downloading (h : s.downloading conn = true) : s.pending conn = true := by
  rw [pending, h]
  rfl

/-- A download does not come from nowhere. -/
theorem pending_mono (h : t.pending conn = true)
    (hthreads : ∀ th ∈ t.threads.threads, isDownload conn th.task = true → th.rest.running = true →
      (∃ th' ∈ s.threads.threads, isDownload conn th'.task = true ∧ th'.rest.running = true) ∨
      ∃ x ∈ s.threads.queue, isDownload conn x.1 = true)
    (hqueue : ∀ x ∈ t.threads.queue, isDownload conn x.1 = true →
      x ∈ s.threads.queue ∨ announces (s.loop conn) = true)
    (hloop : announces (t.loop conn) = true → announces (s.loop conn) = true) : s.pending conn = true := by
  rw [pending_iff] at h ⊢
  rcases h with ⟨th, hth, htask, hrunning⟩ | ⟨x, hx, hdownload⟩ | hannounces
  · rcases hthreads th hth htask hrunning with hth' | hx
    · exact .inl hth'
    · exact .inr (.inl hx)
  · rcases hqueue x hx hdownload with hx | hannounces
    · exact .inr (.inl ⟨x, hx, hdownload⟩)
    · exact .inr (.inr hannounces)
  · exact .inr (.inr (hloop hannounces))

/-- The threads and the queue are the same. -/
theorem pending_of_same (h : t.pending conn = true) (hthreads : t.threads.threads = s.threads.threads)
    (hqueue : t.threads.queue = s.threads.queue)
    (hloop : announces (t.loop conn) = true → announces (s.loop conn) = true) : s.pending conn = true :=
  pending_mono h (fun th hth htask hrunning => .inl ⟨th, hthreads ▸ hth, htask, hrunning⟩)
    (fun _ hx _ => .inl (hqueue ▸ hx)) hloop

/-! ### One step -/

namespace Faithful

theorem of_untouched (h : Faithful conn s) (hsame : Untouched conn s t)
    (hflag : t.flag conn = s.flag conn ∨ t.flag conn = none ∨ (t.flag conn = some true ∧ s.uploads conn = false))
    (hchecking : t.checking = true → s.checking = true) (hpending : t.pending conn = true → s.pending conn = true) :
    Faithful conn t := by
  constructor
  · rw [hsame.heard, hsame.loop]
    intro hheard hloop
    rcases hflag with hkept | hnone | ⟨htrue, -⟩
    · rw [hkept]
      exact h.heard hheard hloop
    · simp [hnone]
    · simp [htrue]
  · rw [hsame.uploads, hsame.loop]
    intro huploads hloop
    rcases hflag with hkept | hnone | ⟨-, hfalse⟩
    · rw [hkept]
      exact h.uploads huploads hloop
    · exact hnone
    · rw [hfalse] at huploads
      cases huploads
  · rw [hsame.uploads, hsame.loop]
    exact h.receiving
  · intro hloop
    rw [hsame.loop] at hloop
    exact eq_false_of_imp (h.removing hloop) hchecking
  · intro hcheck hconn
    rw [hsame.connectionsToDelete] at hconn
    obtain ⟨hheard, hbefore, huploads, hnone⟩ := h.silent (hchecking hcheck) hconn
    rw [hsame.heard, hsame.heardBefore, hsame.uploads]
    exact ⟨hheard, hbefore, huploads, eq_false_of_imp hnone hpending⟩

/-- No check is running, and the flag is given or the entry is gone. -/
theorem of_free (hchecking : t.checking = false) (hloop : t.loop conn ≠ .removeStatus)
    (hflag : t.flag conn = none ∨ (t.flag conn = some true ∧ t.uploads conn = false))
    (hreceiving : t.uploads conn = true → t.loop conn = .idle ∨ t.loop conn = .removeStatus ∨ t.loop conn = .gone) :
    Faithful conn t := by
  constructor
  · rintro - -
    rcases hflag with hnone | ⟨htrue, -⟩
    · simp [hnone]
    · simp [htrue]
  · intro huploads _
    rcases hflag with hnone | ⟨-, hfalse⟩
    · exact hnone
    · rw [hfalse] at huploads
      cases huploads
  · exact hreceiving
  · exact fun h => absurd h hloop
  · intro h
    rw [hchecking] at h
    cases h

/-! ### A step of the threads -/

section Call

variable {a : Pool.Action Activity} {threads : Threads} {th : Thread Ans Fault Activity}
  {others : List (Thread Ans Fault Activity)} {c : Cmd} {next : Ans c → Task Unit}

theorem flag_exec (w : World) (hsweep : c ≠ .sweepConnStatus) :
    (exec env c w).2.connStatusMap.lookup conn = w.connStatusMap.lookup conn ∨
      (exec env c w).2.connStatusMap.lookup conn = none ∨
      ∃ b, c = .setConnStatus conn b ∧ (exec env c w).2.connStatusMap.lookup conn = some b := by
  cases c <;> first | exact .inl rfl | skip
  case setConnStatus d b =>
    rw [exec, Table.lookup_insert']
    split
    case isTrue hd => exact .inr (.inr ⟨b, by rw [hd], rfl⟩)
    case isFalse => exact .inl rfl
  case eraseConnStatus d =>
    by_cases hd : conn = d
    · subst hd
      exact .inr (.inl (AList.lookup_erase _ _))
    · exact .inl (AList.lookup_erase_ne hd)
  case sweepConnStatus => exact absurd rfl hsweep

/-- A command makes no download. -/
theorem pending_call (hrest : th.rest = .call c next) (hthreads : s.threads.threads.Perm (th :: others))
    {p : Task Unit} (hthreads' : t.threads.threads.Perm ({ th with rest := p } :: others))
    (hqueue : t.threads.queue = s.threads.queue) (hloop : t.loop conn = s.loop conn) (h : t.pending conn = true) :
    s.pending conn = true := by
  refine pending_mono h (fun th' hth' htask hrunning => .inl ?_) (fun x hx _ => .inl (hqueue ▸ hx)) fun h => hloop ▸ h
  rcases List.mem_cons.1 (hthreads'.mem_iff.1 hth') with rfl | hth'
  · exact ⟨th, hthreads.mem_iff.2 (List.mem_cons_self ..), htask, by rw [hrest]; rfl⟩
  · exact ⟨th', hthreads.mem_iff.2 (List.mem_cons_of_mem _ hth'), htask, hrunning⟩

/-- The first loop of a check. -/
theorem sweep {next : List Conn → Task Unit} (h : Faithful conn s)
    (hok : ConsiderateCall conn s .sweepConnStatus)
    (hrest : th.rest = .call .sweepConnStatus next) (hthreads : s.threads.threads.Perm (th :: others)) {p : Task Unit}
    (hthreads' : t.threads.threads.Perm ({ th with rest := p } :: others))
    (hshared : t.threads.shared = s.threads.shared.swept) (hqueue : t.threads.queue = s.threads.queue)
    (hloop : t.loop conn = s.loop conn) (huploads : t.uploads conn = s.uploads conn) (hheard : t.heard conn = false)
    (hbefore : t.heardBefore conn = s.heard conn) (hconns : t.connectionsToDelete = s.threads.shared.silent) :
    Faithful conn t := by
  obtain ⟨hdownload, hremove⟩ := hok
  constructor
  · rw [hheard]
    nofun
  · intro hup _
    have hnone := h.uploads (huploads ▸ hup) hremove
    rw [flag, hshared, World.swept, Table.lookup_mapRows, show s.threads.shared.connStatusMap.lookup conn = none from
      hnone]
    rfl
  · rw [huploads, hloop]
    exact h.receiving
  · intro hloop'
    exact absurd (hloop ▸ hloop') hremove
  · intro _ hconn
    rw [hconns, mem_silent] at hconn
    -- who has no flag was not heard, so no download is pending
    have hquiet : s.heard conn = false := by
      by_contra hnot
      exact h.heard (eq_true_of_ne_false hnot) hremove hconn
    refine ⟨hheard, hbefore.trans hquiet, ?_, ?_⟩
    · rw [huploads]
      by_contra hnot
      have hnone := h.uploads (eq_true_of_ne_false hnot) hremove
      rw [show s.flag conn = some false from hconn] at hnone
      cases hnone
    · exact eq_false_of_imp hquiet fun hpending =>
        hdownload (pending_call hrest hthreads hthreads' hqueue hloop hpending)

/-- Another command. -/
theorem call (h : Faithful conn s) (hok : ConsiderateCall conn s c) (hset : SetsTrue c) (hsweep : c ≠ .sweepConnStatus)
    (hsame : Untouched conn s t) (hrest : th.rest = .call c next) (hthreads : s.threads.threads.Perm (th :: others))
    {p : Task Unit} (hthreads' : t.threads.threads.Perm ({ th with rest := p } :: others))
    (hshared : t.threads.shared = (exec env c s.threads.shared).2) (hqueue : t.threads.queue = s.threads.queue) :
    Faithful conn t := by
  refine h.of_untouched hsame ?_ (fun hchecking => ?_) (pending_call hrest hthreads hthreads' hqueue hsame.loop)
  · unfold flag
    rw [hshared]
    rcases @flag_exec conn env c s.threads.shared hsweep with hkept | hnone | ⟨b, hb, htrue⟩
    · exact .inl hkept
    · exact .inr (.inl hnone)
    · rw [hset conn b hb] at htrue
      rw [hb] at hok
      exact .inr (.inr ⟨htrue, hok rfl⟩)
  · obtain ⟨th', hth', hcheck⟩ := checking_iff.1 hchecking
    rcases List.mem_cons.1 (hthreads'.mem_iff.1 hth') with rfl | hth'
    · exact checking_iff.2 ⟨th, hthreads.mem_iff.2 (List.mem_cons_self ..), isChecking_of_call hrest hsweep hcheck⟩
    · exact checking_iff.2 ⟨th', hthreads.mem_iff.2 (List.mem_cons_of_mem _ hth'), hcheck⟩

end Call

/-- A step of the threads. -/
theorem pool {a : Pool.Action Activity} {threads : Threads} (h : Faithful conn s) (hd : Disciplined s)
    (hok : Considerate conn s (.pool a)) (hallowed : s.allowed a = true)
    (hpool : Pool.step Activity.body (exec env) s.threads a = some threads) :
    Faithful conn (s.stepPool a threads) := by
  have hstart : ∀ task, threads.threads.Perm (⟨task, task.body⟩ :: s.threads.threads) →
      (s.stepPool a threads).checking = true → s.checking = true := by
    intro task hperm hchecking
    obtain ⟨th, hth, hcheck⟩ := checking_iff.1 hchecking
    rcases List.mem_cons.1 (hperm.mem_iff.1 hth) with rfl | hth
    · rw [isChecking_body] at hcheck
      cases hcheck
    · exact checking_iff.2 ⟨th, hth, hcheck⟩
  cases Pool.takes_of_step _ _ hpool with
  | enqueue task => cases hallowed
  | dequeue i k task hshared hperm hqueue =>
    refine h.of_untouched ⟨rfl, rfl, rfl, rfl, rfl⟩ (.inl ?_) (hstart task hperm) fun hpending => ?_
    · exact congrArg (fun w : World => w.connStatusMap.lookup conn) hshared
    · -- it moves from the queue to a worker
      refine pending_mono hpending (fun th hth htask hrunning => ?_)
        (fun x hx _ => .inl (hqueue ▸ List.mem_cons_of_mem _ hx)) id
      rcases List.mem_cons.1 (hperm.mem_iff.1 hth) with rfl | hth
      · exact .inr ⟨(task, k), hqueue ▸ List.mem_cons_self .., htask⟩
      · exact .inl ⟨th, hth, htask, hrunning⟩
  | spawn task hshared hperm hqueue =>
    have hflag : (s.stepPool (.spawn task) threads).flag conn = s.flag conn :=
      congrArg (fun w : World => w.connStatusMap.lookup conn) hshared
    have hpending : announces ((s.stepPool (.spawn task) threads).loop conn) = announces (s.loop conn) →
        (s.stepPool (.spawn task) threads).pending conn = true → s.pending conn = true := by
      intro hloop hpending
      refine pending_mono hpending (fun th hth htask hrunning => ?_) (fun x hx _ => .inl (hqueue ▸ hx))
        fun hannounces => hloop ▸ hannounces
      rcases List.mem_cons.1 (hperm.mem_iff.1 hth) with rfl | hth
      · -- a request is not spawned
        cases task with
        | request d msgid js time => cases hallowed
        | connStatus | removeConnStatus | down | heartbeat => cases htask
      · exact .inl ⟨th, hth, htask, hrunning⟩
    by_cases hdown : task = .down conn
    · subst hdown
      have hidle : s.loop conn = .idle := by
        simp only [allowed] at hallowed
        split at hallowed
        case h_1 hidle => exact hidle
        case h_2 => cases hallowed
      have hgone : (s.stepPool (.spawn (.down conn)) threads).loop conn = .gone := Function.update_self ..
      constructor
      · intro hheard _
        rw [hflag]
        exact h.heard hheard (by simp [hidle])
      · intro huploads _
        rw [hflag]
        exact h.uploads huploads (by simp [hidle])
      · exact fun _ => .inr (.inr hgone)
      · intro hremove
        rw [hgone] at hremove
        cases hremove
      · intro hchecking hconn
        obtain ⟨hheard, hbefore, huploads, hnone⟩ := h.silent (hstart _ hperm hchecking) hconn
        exact ⟨hheard, hbefore, huploads, eq_false_of_imp hnone (hpending (by rw [hgone, hidle]; rfl))⟩
    · have hloop : (s.stepPool (.spawn task) threads).loop conn = s.loop conn := by
        cases task with
        | down d => exact Function.update_of_ne (fun heq => hdown (by rw [heq])) ..
        | request | connStatus | removeConnStatus | heartbeat => rfl
      exact h.of_untouched ⟨hloop, rfl, rfl, rfl, rfl⟩ (.inl hflag) (hstart task hperm) (hpending (by rw [hloop]))
  | call th others c next hth hrest hperm hperm' hshared hqueue =>
    have hcall : ConsiderateCall conn s c := hok c (by rw [Pool.performed_of_call hth hrest]; simp)
    have hsweeps := sweeps_of_call hth hrest
    have hset := hd.setsTrue th (hperm.mem_iff.2 (List.mem_cons_self ..))
    rw [hrest] at hset
    have hloop := loopAfter_of_performer hth
    by_cases hsweep : c = .sweepConnStatus
    · subst hsweep
      refine h.sweep hcall hrest hperm hperm' hshared hqueue (congrFun hloop conn) rfl ?_ ?_ ?_
      all_goals simp [stepPool, hsweeps, isSweep]
    · have hnot : s.sweeps a = false := by
        rw [hsweeps]
        cases c <;> first | rfl | exact absurd rfl hsweep
      have hsame : Untouched conn s (s.stepPool a threads) := by
        constructor
        · exact congrFun hloop conn
        · rfl
        · simp [stepPool, hnot]
        · simp [stepPool, hnot]
        · simp [stepPool, hnot]
      exact h.call hcall hset.1 hsweep hsame hrest hperm hperm' hshared hqueue
  | finish th others hth hrest hperm hperm' hshared hqueue =>
    have hnot := sweeps_of_not_call hth hrest
    have hmem : ∀ th' ∈ threads.threads, th' ∈ s.threads.threads :=
      fun th' hth' => hperm.mem_iff.2 (List.mem_cons_of_mem _ (hperm'.mem_iff.1 hth'))
    have hloop := loopAfter_of_performer hth
    have hsame : Untouched conn s (s.stepPool a threads) := by
      constructor
      · exact congrFun hloop conn
      · rfl
      · simp [stepPool, hnot]
      · simp [stepPool, hnot]
      · simp [stepPool, hnot]
    refine h.of_untouched hsame (.inl ?_) (fun hchecking => ?_) fun hpending => ?_
    · exact congrArg (fun w : World => w.connStatusMap.lookup conn) hshared
    · obtain ⟨th', hth', hcheck⟩ := checking_iff.1 hchecking
      exact checking_iff.2 ⟨th', hmem th' hth', hcheck⟩
    · exact pending_mono hpending (fun th' hth' htask hrunning => .inl ⟨th', hmem th' hth', htask, hrunning⟩)
        (fun _ hx _ => .inl (hqueue ▸ hx)) fun hannounces => congrFun hloop conn ▸ hannounces

end Faithful

/-! ### A step of a loop -/

/-- The loop of the connection moves, neither to nor from `removeConnStatus`. -/
theorem Faithful.setLoop (h : Faithful conn s) {pc : LoopPc} (hs : s.loop conn ≠ .removeStatus)
    (hpc : pc ≠ .removeStatus) (huploads : s.uploads conn = false)
    (hannounces : announces pc = true → announces (s.loop conn) = true) : Faithful conn (s.setLoop conn pc) := by
  have hloop : (s.setLoop conn pc).loop conn = pc := Function.update_self ..
  constructor
  · exact fun hheard _ => h.heard hheard hs
  · exact fun hup _ => h.uploads hup hs
  · intro hup
    rw [show s.uploads conn = true from hup] at huploads
    cases huploads
  · intro hremove
    exact absurd (hloop ▸ hremove) hpc
  · intro hchecking hconn
    obtain ⟨hheard, hbefore, huploads, hnone⟩ := h.silent hchecking hconn
    refine ⟨hheard, hbefore, huploads, eq_false_of_imp hnone fun hpending => ?_⟩
    exact pending_of_same hpending rfl rfl fun hann => hannounces (hloop ▸ hann)

/-- What is read on another connection. -/
theorem untouched_read {d : Conn} {input : Input} (hst : Steps env s (.read d input) t) (hd : conn ≠ d) :
    Untouched conn s t ∧ t.threads = s.threads := by
  cases hst <;>
    exact ⟨⟨by simp [setLoop, hear, setUpload, hd], by simp [setLoop, hear, setUpload, hd],
      by simp [setLoop, hear, setUpload, hd], rfl, rfl⟩, rfl⟩

theorem faithful_read {d : Conn} {input : Input} (hok : Considerate conn s (.read d input))
    (hst : Steps env s (.read d input) t) (h : Faithful conn s) : Faithful conn t := by
  by_cases hd : conn = d
  · subst hd
    cases hst with
    | up hloop =>
      have huploads : s.uploads conn = false := by
        by_contra hnot
        have hreceiving := h.receiving (eq_true_of_ne_false hnot)
        simp [hloop] at hreceiving
      exact h.setLoop (by simp [hloop]) (by simp) huploads (by simp [announces])
    | sendFileEnd hloop hupload => exact h.setLoop (by simp [hloop]) (by simp) hupload (by simp [announces])
    | message hloop hupload => exact h.setLoop (by simp [hloop]) (by simp) hupload (by simp [announces])
    | @bytes _ last hloop hupload =>
      have hnone : s.flag conn = none := h.uploads hupload (by simp [hloop])
      constructor
      · intro _ _
        simp [show ((s.hear conn).setUpload conn (!last)).flag conn = none from hnone]
      · exact fun _ _ => hnone
      · exact fun _ => .inl hloop
      · intro hremove
        rw [show s.loop conn = .removeStatus from hremove] at hloop
        cases hloop
      · intro hchecking hconn
        have huploads := (h.silent hchecking hconn).2.2.1
        rw [hupload] at huploads
        cases huploads
    | sendFile hloop hupload =>
      have hchecking : s.checking = false := hok rfl
      have hremove : (((s.hear conn).setUpload conn true).setLoop conn .removeStatus).loop conn = .removeStatus :=
        Function.update_self ..
      constructor
      · exact fun _ hnot => absurd hremove hnot
      · exact fun _ hnot => absurd hremove hnot
      · exact fun _ => .inr (.inl hremove)
      · exact fun _ => hchecking
      · intro hnot
        rw [show s.checking = true from hnot] at hchecking
        cases hchecking
    | refused hloop hupload =>
      have hheard : s.heard conn = true := hok rfl
      have hsame : Untouched conn s (s.hear conn) := ⟨rfl, rfl, by simp [hear, hheard], rfl, rfl⟩
      exact h.of_untouched hsame (.inl rfl) id id
  · obtain ⟨hsame, hthreads⟩ := untouched_read hst hd
    refine h.of_untouched hsame (.inl ?_) (fun hchecking => ?_) fun hpending => ?_
    · rw [flag, hthreads, ← flag]
    · rwa [checking, hthreads, ← checking] at hchecking
    · exact pending_of_same hpending (by rw [hthreads]) (by rw [hthreads]) fun hann => hsame.loop ▸ hann

theorem flag_perform_set (d : Conn) (b : Bool) :
    (s.perform env (setConnStatus d b)).flag conn = if conn = d then some b else s.flag conn :=
  Table.lookup_insert' s.threads.shared.connStatusMap d conn b

theorem flag_perform_remove (d : Conn) :
    (s.perform env (removeConnStatus d)).flag conn = if conn = d then none else s.flag conn := by
  by_cases hd : conn = d
  · subst hd
    rw [if_pos rfl]
    exact AList.lookup_erase _ _
  · rw [if_neg hd]
    exact AList.lookup_erase_ne hd

/-- What the loop of another connection does next. -/
theorem untouched_go {d : Conn} (hst : Steps env s (.go d) t) (hd : conn ≠ d) :
    Untouched conn s t ∧ t.flag conn = s.flag conn ∧ t.threads.threads = s.threads.threads ∧
      ∀ x ∈ t.threads.queue, x ∈ s.threads.queue ∨ isDownload conn x.1 = false := by
  cases hst with
  | connected | status | addStatus =>
    refine ⟨⟨by simp [setLoop, hear, perform, hd], rfl, by simp [setLoop, hear, perform, hd], rfl, rfl⟩, ?_, rfl,
      fun x hx => .inl hx⟩
    exact (flag_perform_set d true).trans (if_neg hd)
  | removeStatus =>
    refine ⟨⟨by simp [setLoop, perform, hd], rfl, rfl, rfl, rfl⟩, ?_, rfl, fun x hx => .inl hx⟩
    exact (flag_perform_remove d).trans (if_neg hd)
  | @enqueue _ msgid js time threads hloop hpool =>
    cases Pool.takes_of_step _ _ hpool with
    | enqueue task hshared hsame hqueue =>
      refine ⟨⟨by simp [setLoop, hd], rfl, rfl, rfl, rfl⟩, ?_, hsame, fun x hx => ?_⟩
      · exact congrArg (fun w : World => w.connStatusMap.lookup conn) hshared
      · rcases List.mem_append.1 (hqueue ▸ hx : x ∈ s.threads.queue ++ _) with hx | hx
        · exact .inl hx
        · obtain rfl := List.mem_singleton.1 hx
          exact .inr (by simp [isDownload, Ne.symm hd])
    | call th others c next hth => cases hth
    | finish th others hth => cases hth

theorem faithful_go {d : Conn} (hst : Steps env s (.go d) t) (h : Faithful conn s) : Faithful conn t := by
  by_cases hd : conn = d
  · subst hd
    have huploads : s.loop conn ≠ .idle → s.loop conn ≠ .removeStatus → s.loop conn ≠ .gone →
        s.uploads conn = false := by
      intro hidle hremove hgone
      by_contra hnot
      rcases h.receiving (eq_true_of_ne_false hnot) with hloop | hloop | hloop
      · exact hidle hloop
      · exact hremove hloop
      · exact hgone hloop
    cases hst with
    | connected hloop hfree =>
      have hnone := huploads (by simp [hloop]) (by simp [hloop]) (by simp [hloop])
      refine .of_free (not_checking_of_free hfree) (by simp [Watching.setLoop]) (.inr ⟨?_, hnone⟩)
        fun _ => .inl (Function.update_self ..)
      exact (flag_perform_set conn true).trans (if_pos rfl)
    | status hloop hfree =>
      have hnone := huploads (by simp [hloop]) (by simp [hloop]) (by simp [hloop])
      refine .of_free (not_checking_of_free hfree) (by simp [Watching.setLoop]) (.inr ⟨?_, hnone⟩) fun hup => ?_
      · exact (flag_perform_set conn true).trans (if_pos rfl)
      · rw [show s.uploads conn = true from hup] at hnone
        cases hnone
    | addStatus hloop hfree =>
      have hnone := huploads (by simp [hloop]) (by simp [hloop]) (by simp [hloop])
      refine .of_free (not_checking_of_free hfree) (by simp [Watching.setLoop]) (.inr ⟨?_, hnone⟩)
        fun _ => .inl (Function.update_self ..)
      exact (flag_perform_set conn true).trans (if_pos rfl)
    | removeStatus hloop hfree =>
      refine .of_free (not_checking_of_free hfree) (by simp [Watching.setLoop]) (.inl ?_)
        fun _ => .inl (Function.update_self ..)
      exact (flag_perform_remove conn).trans (if_pos rfl)
    | @enqueue _ msgid js time threads hloop hpool =>
      have hnone := huploads (by simp [hloop]) (by simp [hloop]) (by simp [hloop])
      cases Pool.takes_of_step _ _ hpool with
      | enqueue task hshared hsame hqueue =>
        have hflag : ({ s with threads }.setLoop conn .idle).flag conn = s.flag conn :=
          congrArg (fun w : World => w.connStatusMap.lookup conn) hshared
        have hidle : ({ s with threads }.setLoop conn .idle).loop conn = .idle := Function.update_self ..
        constructor
        · intro hheard _
          rw [hflag]
          exact h.heard hheard (by simp [hloop])
        · intro hup
          rw [show s.uploads conn = true from hup] at hnone
          cases hnone
        · exact fun _ => .inl hidle
        · intro hremove
          rw [hidle] at hremove
          cases hremove
        · intro hchecking hconn
          have hcheck : s.checking = true := by
            rw [checking, ← hsame]
            exact hchecking
          obtain ⟨hheard, hbefore, huploads, hquiet⟩ := h.silent hcheck hconn
          refine ⟨hheard, hbefore, huploads, eq_false_of_imp hquiet fun hpending => ?_⟩
          -- what is enqueued was announced
          refine pending_mono hpending (fun th hth htask hrunning => .inl ⟨th, hsame ▸ hth, htask, hrunning⟩)
            (fun x hx hdownload => ?_) ?_
          · rcases List.mem_append.1 (hqueue ▸ hx : x ∈ s.threads.queue ++ _) with hx | hx
            · exact .inl hx
            · obtain rfl := List.mem_singleton.1 hx
              refine .inr ?_
              rw [hloop]
              simpa [isDownload, announces] using hdownload
          · intro hann
            rw [hidle] at hann
            cases hann
      | call th others c next hth => cases hth
      | finish th others hth => cases hth
  · obtain ⟨hsame, hflag, hthreads, hqueue⟩ := untouched_go hst hd
    refine h.of_untouched hsame (.inl hflag) (fun hchecking => ?_) fun hpending => ?_
    · rwa [checking, hthreads, ← checking] at hchecking
    · refine pending_mono hpending (fun th hth htask hrunning => .inl ⟨th, hthreads ▸ hth, htask, hrunning⟩)
        (fun x hx hdownload => ?_) fun hann => hsame.loop ▸ hann
      rcases hqueue x hx with hx | hnot
      · exact .inl hx
      · rw [hdownload] at hnot
        cases hnot

theorem faithful_step {e : Event} (hok : Considerate conn s e) (hst : (machine env).step s e = some t)
    (hd : Disciplined s) (h : Faithful conn s) : Faithful conn t := by
  have hsteps := steps_of_step hst
  cases e with
  | pool a =>
    cases hsteps with
    | pool hallowed hpool => exact h.pool hd hok hallowed hpool
  | read d input => exact faithful_read hok hsteps h
  | go d => exact faithful_go hsteps h

theorem faithful_start (n : ℕ) (w : World) : Faithful conn (start env n w) := by
  have hthreads : (start env n w).threads.threads = [] := Pool.threads_start ..
  refine ⟨nofun, nofun, nofun, nofun, fun hchecking => ?_⟩
  rw [checking, hthreads] at hchecking
  cases hchecking

/-! ## Every run -/

/-- **The heartbeat closes only idle connections**, in every run whose steps are considerate to the connection: whenever
a check is about to close it, nothing was heard from it since the check before, and nothing is being transferred. -/
theorem idle_of_run {n : ℕ} {w₀ : World} {l : List Event}
    (h : (machine env).Run (Considerate conn) (start env n w₀) l s) {th : Thread Ans Fault Activity}
    (hth : th ∈ s.threads.threads) (htask : th.task = .heartbeat) {next : Unit → Task Unit}
    (hrest : th.rest = .call (.forceClose conn) next) : Idle conn s := by
  have hstep : ∀ u e v, Considerate conn u e → (machine env).step u e = some v → Disciplined u ∧ Faithful conn u →
      Disciplined v ∧ Faithful conn v :=
    fun u e v hok hst ⟨hd, hf⟩ => ⟨disciplined_step hst hd, faithful_step hok hst hd hf⟩
  obtain ⟨hd, hf⟩ := h.invariant hstep ⟨disciplined_start n w₀, faithful_start n w₀⟩
  have hconn : conn ∈ s.connectionsToDelete := by
    rcases hd.checks th hth htask with hbody | hdrops
    · rw [hrest] at hbody
      cases hbody
    · rw [hrest] at hdrops
      exact hdrops.1.2 conn rfl
  have hchecking : s.checking = true :=
    checking_iff.2 ⟨th, hth, by simp [isChecking, htask, holdsMutex, hrest]⟩
  obtain ⟨hheard, hbefore, huploads, hnone⟩ := hf.silent hchecking hconn
  exact ⟨hheard, hbefore, huploads, eq_false_of_imp hnone pending_of_downloading⟩

end Faithful

/-! ## Runs -/

section Runs

variable {conn} {s : Watching} {a : Pool.Action Activity}

theorem considerate_of_none (h : s.threads.performed a = []) : Considerate conn s (.pool a) := by
  intro c hc
  rw [h] at hc
  cases hc

theorem considerate_of_call {c : Cmd} (h : s.threads.performed a = [c]) (hc : ConsiderateCall conn s c) :
    Considerate conn s (.pool a) := by
  intro d hd
  rw [h] at hd
  rwa [List.mem_singleton.1 hd]

/-- Connection 1 comes up. -/
def comes : List Event := [.read 1 .up, .go 1]

/-- A message of connection 1 is read, enqueued and taken, and the only worker takes `n` steps with it. -/
def handled (msgid : EnMsgType) (fields : List (String × Json)) (n : ℕ) : List Event :=
  [.read 1 (.message msgid.code (.obj fields) ""), .go 1, .go 1, .pool (.dequeue 0)] ++
    List.replicate n (.pool (.work 0))

/-- A check begins as the `i`-th callback, and takes `n` steps. -/
def check (i n : ℕ) : List Event := .pool (.spawn .heartbeat) :: List.replicate n (.pool (.loop i))

def serverStarts : Watching := start .still 1 (World.init annAndBob)

/-- After the run a check is about to close connection 1, and `P` holds. -/
def AboutToClose (l : List Event) (P : Watching → Prop) : Prop :=
  ∃ s, (machine .still).exec serverStarts l = some s ∧
    (∃ th ∈ s.threads.threads, th.task = .heartbeat ∧ ∃ next, th.rest = .call (.forceClose 1) next) ∧ P s

/-- The connection says nothing from one check to the next. -/
theorem idle_of_run_silent : ∃ s,
    (machine .still).Run (Considerate 1) serverStarts (comes ++ check 0 1 ++ check 1 3) s ∧
    (∃ th ∈ s.threads.threads, th.task = .heartbeat ∧ ∃ next, th.rest = .call (.forceClose 1) next) ∧ Idle 1 s := by
  obtain ⟨s, hrun, th, hth, htask, next, hrest⟩ : ∃ s,
      (machine .still).Run (Considerate 1) serverStarts (comes ++ check 0 1 ++ check 1 3) s ∧
        ∃ th ∈ s.threads.threads, th.task = .heartbeat ∧ ∃ next, th.rest = .call (.forceClose 1) next := by
    refine ⟨_, .cons trivial rfl <| .cons trivial rfl <|
      .cons (considerate_of_none rfl) rfl <| .cons (considerate_of_call rfl ⟨nofun, nofun⟩) rfl <|
      .cons (considerate_of_none rfl) rfl <| .cons (considerate_of_call rfl ⟨nofun, nofun⟩) rfl <|
      .cons (considerate_of_call rfl trivial) rfl <| .cons (considerate_of_call rfl trivial) rfl <| .nil _, ?_⟩
    exact ⟨_, List.mem_cons_of_mem _ (List.mem_cons_self ..), rfl, _, rfl⟩
  exact ⟨s, hrun, ⟨th, hth, htask, next, hrest⟩, idle_of_run hrun hth htask hrest⟩

/-- The client is sent a file for longer than two checks. -/
def longDownload : List Event :=
  comes ++ handled .receiveFile [("filename", .str "f")] 7 ++ check 0 1 ++ check 1 3

/-- The client logs in and sends a file before the login comes to the worker. -/
def lateLogin : List Event :=
  comes ++ [.read 1 (.message EnMsgType.loginMsg.code (.obj [("name", .str "bob"), ("password", .str "b")]) ""),
    .go 1, .go 1, .read 1 (.sendFile true), .go 1, .pool (.dequeue 0)] ++ List.replicate 4 (.pool (.work 0)) ++
    check 0 1 ++ [.read 1 (.bytes false)] ++ check 1 4

/-- The client begins to send a file when the check has just listed it. -/
def sendFileInCheck : List Event :=
  comes ++ check 0 1 ++ check 1 1 ++ [.read 1 (.sendFile true), .pool (.loop 1), .pool (.loop 1)]

/-- The client sends a file that does not open. -/
def refusedFile : List Event := comes ++ check 0 1 ++ [.read 1 (.sendFile false)] ++ check 1 3

/-- **Connections that are not idle are closed**: in the middle of a download, and of an upload, also of one that has
just begun, and after a message that set no flag. -/
theorem busy_closed :
    AboutToClose longDownload (fun s => ∃ th ∈ s.threads.threads,
      (∃ js, th.task = .request 1 EnMsgType.receiveFile.code js "") ∧ ∃ size next,
        th.rest = .call (.sendfileLoop 1 size) next) ∧
    AboutToClose lateLogin (fun s => s.uploads 1 = true ∧ s.heardBefore 1 = true) ∧
    AboutToClose sendFileInCheck (fun s => s.uploads 1 = true) ∧
    AboutToClose refusedFile fun s => s.heardBefore 1 = true := by
  refine ⟨⟨_, rfl, ?_, ?_⟩, ⟨_, rfl, ?_, rfl, rfl⟩, ⟨_, rfl, ?_, rfl⟩, ⟨_, rfl, ?_, rfl⟩⟩
  · exact ⟨_, List.mem_cons_of_mem _ (List.mem_cons_of_mem _ (List.mem_cons_self ..)), rfl, _, rfl⟩
  · exact ⟨_, List.mem_cons_self .., ⟨_, rfl⟩, _, _, rfl⟩
  · exact ⟨_, List.mem_cons_of_mem _ (List.mem_cons_of_mem _ (List.mem_cons_self ..)), rfl, _, rfl⟩
  · exact ⟨_, List.mem_cons_of_mem _ (List.mem_cons_self ..), rfl, _, rfl⟩
  · exact ⟨_, List.mem_cons_of_mem _ (List.mem_cons_self ..), rfl, _, rfl⟩

end Runs

end Watching

end Chatroom.Service
