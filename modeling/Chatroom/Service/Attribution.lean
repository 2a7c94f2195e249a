import Chatroom.Service.Footprint
import Chatroom.Service.Server

/-!
# In whose name a request acts

A request on a connection acts for 0, the user of a connection that `m_connUserMap` does not know, or for a
user whom `login` accepted on this connection: the invariant is that `m_connUserMap` has no others
(`Inv.user`), and that whatever is left of a handler is confined to them (`Inv.confined`).
-/

namespace Chatroom.Service

open Lib History

/-- What `login` sends to a user whom it accepts. -/
def loginSuccess (userid : ℤ) (name : String) : Json :=
  .obj [("id", .num userid), ("msg", .str "登录成功"), ("msgid", .msg .loginSuccess), ("name", .str name)]

/-- A LOGIN_SUCCESS for the user was sent on the connection, or a handler is on its way to sending it. -/
def LoggedIn (s : Threads) (conn : Conn) (userid : ℤ) : Prop :=
  ∃ name, (conn, loginSuccess userid name) ∈ s.shared.sent ∨
    ∃ th ∈ s.threads, th.rest.WillCall (.send conn (loginSuccess userid name))

/-- Those in whose name a request on `conn` can act. -/
def Authors (s : Threads) (conn : Conn) : Set ℤ := {u | u = 0 ∨ LoggedIn s conn u}

/-! ## One command -/

section Exec

variable (env : Environment) (c : Cmd) (w : World)

theorem sent_exec : ∃ l, (exec env c w).2.sent = w.sent ++ l := by
  cases c <;> first | exact ⟨[], (List.append_nil _).symm⟩ | exact ⟨_, rfl⟩

theorem connUserMap_exec {conn : Conn} {u : ℤ} (h : (exec env c w).2.connUserMap conn = some u) :
    w.connUserMap conn = some u ∨ (c = .connUser conn ∧ u = 0) ∨ c = .setConnUser conn u := by
  cases c <;> first | exact .inl h | skip
  case connUser d =>
    by_cases hd : conn = d
    · subst hd
      cases hw : w.connUserMap conn <;> simp_all [exec]
    · exact .inl (by simpa [exec, hd] using h)
  case setConnUser d v =>
    by_cases hd : conn = d
    · subst hd
      exact .inr (.inr (by simp_all [exec]))
    · exact .inl (by simpa [exec, hd] using h)
  case eraseConnUser d =>
    by_cases hd : conn = d
    · subst hd
      simp [exec] at h
    · exact .inl (by simpa [exec, hd] using h)

theorem answers_exec {conn : Conn} {U : Set ℤ} (hzero : 0 ∈ U)
    (huser : ∀ u, w.connUserMap conn = some u → u ∈ U) : Answers conn U c (exec env c w).1 := by
  cases c <;> first | trivial | skip
  case connUser d =>
    rintro rfl
    cases h : w.connUserMap d with
    | none => simpa [exec, h] using hzero
    | some u => simpa [exec, h] using huser u h

end Exec

/-! ## Users are accepted before they are announced -/

/-- Where the program enters a user into `m_connUserMap`, it is bound to send LOGIN_SUCCESS. -/
def Announced : Task Unit → Prop
  | .ret _ => True
  | .throw _ => True
  | .call c next => (∀ conn u, c = .setConnUser conn u → ∃ name, ∀ a,
      (next a).WillCall (.send conn (loginSuccess u name))) ∧ ∀ a, Announced (next a)

/-- The command enters no user into `m_connUserMap`. -/
def Quiet (c : Cmd) : Prop := ∀ conn u, c ≠ .setConnUser conn u

theorem announced_bind {α : Type} {p : Task α} {f : α → Task Unit}
    (h : p.Safe Quiet (fun _ _ => True) fun a => Announced (f a)) : Announced (p >>= f) := by
  induction p with
  | ret a => exact h
  | throw e => trivial
  | call c next ih => exact ⟨fun conn u hc => absurd hc (h.1 conn u), fun a => ih a (h.2 a trivial)⟩

theorem announced_perform {c : Cmd} {f : Ans c → Task Unit} (hc : Quiet c) (hf : ∀ a, Announced (f a)) :
    Announced (perform c >>= f) :=
  ⟨fun conn u h => absurd h (hc conn u), hf⟩

theorem announced_of_safe {p : Task Unit} (h : p.Safe Quiet (fun _ _ => True) fun _ => True) : Announced p := by
  rw [← Program.bind_ret p]
  exact announced_bind (h.imp fun _ _ => trivial)

theorem Confined.announced {areas : List Area} {h : Handler} (hh : Confined areas h) (conn : Conn) (js : Json)
    (time : String) : Announced (h conn js time) :=
  announced_of_safe (hh.safe (fun _ hc conn u => (hc.session u conn).2.1) js time)

theorem quiet_sendToUser {userid : ℤ} {fields : List (String × Json)} :
    (sendToUser userid fields).Safe Quiet (fun _ _ => True) fun _ => True :=
  safe_sendToUser_of (by simp [Quiet]) (by simp [Quiet]) trivial

theorem announced_login (conn : Conn) (js : Json) (time : String) : Announced (login conn js time) := by
  refine announced_bind (safe_read.2 fun name _ => announced_bind (safe_read.2 fun pwd _ => ?_))
  refine announced_perform (by simp [Quiet]) fun user => ?_
  by_cases haccept : user.name = name ∧ user.password = pwd
  · rw [if_pos haccept]
    by_cases honline : user.state = "online"
    · rw [if_pos honline]
      exact announced_of_safe ⟨by simp [Quiet], fun _ _ => trivial⟩
    · rw [if_neg honline]
      refine announced_perform (by simp [Quiet]) fun _ => ⟨?_, fun _ => announced_of_safe ?_⟩
      · intro d u heq
        obtain ⟨rfl, rfl⟩ := Cmd.setConnUser.inj heq
        exact ⟨user.name, fun _ => .inr fun _ => .inr fun _ => .inl rfl⟩
      · refine ⟨by simp [Quiet], fun _ _ => ⟨by simp [Quiet], fun _ _ => ⟨by simp [Quiet], fun _ _ => ?_⟩⟩⟩
        exact ⟨by simp [Quiet], fun userVec _ => Program.safe_forM (fun _ _ => quiet_sendToUser) trivial⟩
  · rw [if_neg haccept]
    exact announced_of_safe ⟨by simp [Quiet], fun _ _ => trivial⟩

theorem safe_quiet_setOffline (id : ℤ) : (setOffline id).Safe Quiet (fun _ _ => True) fun _ => True :=
  ⟨by simp [Quiet], fun _ _ => ⟨by simp [Quiet], fun _ _ => trivial⟩⟩

theorem announced_clientClose_bind (conn : Conn) (f : Unit → Task Unit) (hf : ∀ a, Announced (f a)) :
    Announced (clientClose conn >>= f) := by
  refine announced_bind ⟨by simp [Quiet], fun it _ => ?_⟩
  cases it with
  | none => exact ⟨by simp [Quiet], fun a _ => hf a⟩
  | some userId =>
    refine ⟨by simp [Quiet], fun _ _ => ⟨by simp [Quiet], fun _ _ => ⟨by simp [Quiet], fun _ _ => ?_⟩⟩⟩
    refine ⟨by simp [Quiet], fun _ _ => ?_⟩
    show Program.Safe _ _ (if userId ≠ -1 then setOffline userId else pure ()) _
    rw [Program.safe_ite]
    exact ⟨fun _ => (safe_quiet_setOffline userId).imp fun a _ => hf a, fun _ => hf _⟩

theorem announced_checkIfConnAlive : Announced checkIfConnAlive := by
  refine announced_perform (by simp [Quiet]) fun conns => announced_of_safe ?_
  refine Program.safe_forM (fun conn _ => ?_) trivial
  refine Program.safe_bind.2 ⟨by simp [Quiet], fun id _ => Program.safe_bind.2 (quiet_sendToUser.imp fun _ _ => ?_)⟩
  refine ⟨by simp [Quiet], fun _ _ => ⟨by simp [Quiet], fun _ _ => ⟨by simp [Quiet], fun _ _ => ?_⟩⟩⟩
  exact ⟨by simp [Quiet], fun _ _ => safe_quiet_setOffline id⟩

/-- Whatever is started announces the users it enters. -/
theorem announced_body (a : Activity) : Announced a.body := by
  cases a with
  | request conn msgid js time =>
    show Announced (getHandler msgid conn js time)
    by_cases hlogin : msgid = EnMsgType.loginMsg.code
    · rw [hlogin, getHandler_login]
      exact announced_login conn js time
    · exact (confined_getHandler hlogin).announced conn js time
  | connStatus conn status => exact announced_of_safe ⟨by simp [Quiet], fun _ _ => trivial⟩
  | removeConnStatus conn => exact announced_of_safe ⟨by simp [Quiet], fun _ _ => trivial⟩
  | down conn =>
    exact announced_clientClose_bind conn _ fun _ => announced_of_safe ⟨by simp [Quiet], fun _ _ => trivial⟩
  | heartbeat => exact announced_checkIfConnAlive

/-! ## The invariant -/

/-- What is left of a request stays in the areas of its handler and acts for users of `U`, whoever else is
accepted in the meantime. -/
def ConfinedTo (conn : Conn) (U : Set ℤ) (msgid : ℤ) (p : Task Unit) : Prop :=
  ∀ V, U ⊆ V → p.Safe (Cmd.Allowed conn V (areasOf msgid)) (Answers conn V) fun _ => True

structure Inv (s : Threads) : Prop where
  user : ∀ conn u, s.shared.connUserMap conn = some u → u ∈ Authors s conn
  announced : ∀ th ∈ s.threads, Announced th.rest
  confined : ∀ th ∈ s.threads, ∀ conn msgid js time, th.task = .request conn msgid js time →
    msgid ≠ EnMsgType.loginMsg.code → ConfinedTo conn (Authors s conn) msgid th.rest

variable {env : Environment}

/-- Who was accepted stays accepted. -/
theorem authors_subset {s t : Threads} (h : Pool.Moves Activity.body (exec env) s t) (conn : Conn) :
    Authors s conn ⊆ Authors t conn := by
  rintro u (rfl | ⟨name, hlogged⟩)
  · exact .inl rfl
  have hbound : ∀ ths : List (Thread Ans Fault Activity),
      (∃ th ∈ ths, th.rest.WillCall (.send conn (loginSuccess u name))) ↔
        Pool.Bound (fun _ => True) ths (.send conn (loginSuccess u name)) := fun ths => by simp [Pool.Bound]
  refine .inr ⟨name, ?_⟩
  rw [hbound] at hlogged ⊢
  cases h with
  | enqueue hshared hthreads =>
    rw [hshared, hthreads]
    exact hlogged
  | start task hshared hthreads =>
    rw [hshared]
    exact hlogged.imp_right (·.mono fun _ hth => hthreads.mem_iff.2 (List.mem_cons_of_mem _ hth))
  | call th others c next hrest hthreads hthreads' hshared =>
    obtain ⟨l, hl⟩ := sent_exec env c s.shared
    rw [hshared]
    rcases hlogged with hsent | hb
    · rw [hl]
      exact .inl (List.mem_append_left _ hsent)
    · by_cases hsend : c = .send conn (loginSuccess u name)
      · subst hsend
        exact .inl (List.mem_append_right _ (List.mem_singleton_self _))
      · exact .inr (hb.call hthreads' hrest hthreads hsend)
  | finish th others hrest hthreads hthreads' hshared =>
    rw [hshared]
    exact hlogged.imp_right (·.finish hrest hthreads hthreads')

theorem inv_step {s t : Threads} (h : Pool.Moves Activity.body (exec env) s t) (hs : Inv s) : Inv t := by
  have hauthors := authors_subset h
  have hmono : ∀ {conn msgid p}, ConfinedTo conn (Authors s conn) msgid p →
      ConfinedTo conn (Authors t conn) msgid p :=
    fun hp V hV => hp V ((hauthors _).trans hV)
  cases h with
  | enqueue hshared hthreads =>
    refine ⟨fun conn u hu => hauthors conn (hs.user conn u (hshared ▸ hu)), ?_, ?_⟩
    · rw [hthreads]
      exact hs.announced
    · intro th hth conn msgid js time htask hlogin
      exact hmono (hs.confined th (hthreads ▸ hth) conn msgid js time htask hlogin)
  | start task hshared hthreads =>
    refine ⟨fun conn u hu => hauthors conn (hs.user conn u (hshared ▸ hu)), ?_, ?_⟩
    · intro th hth
      rcases List.mem_cons.1 (hthreads.mem_iff.1 hth) with rfl | hth
      · exact announced_body task
      · exact hs.announced th hth
    · intro th hth conn msgid js time htask hlogin
      rcases List.mem_cons.1 (hthreads.mem_iff.1 hth) with rfl | hth
      · obtain rfl : task = _ := htask
        exact fun V _ => confined_getHandler hlogin conn js time V
      · exact hmono (hs.confined th hth conn msgid js time htask hlogin)
  | call th others c next hrest hthreads hthreads' hshared =>
    have hmem : th ∈ s.threads := hthreads.mem_iff.2 (List.mem_cons_self ..)
    have hannounced := hs.announced th hmem
    rw [hrest] at hannounced
    refine ⟨?_, ?_, ?_⟩
    · intro conn u hu
      rw [hshared] at hu
      rcases connUserMap_exec env c s.shared hu with hold | ⟨-, rfl⟩ | hset
      · exact hauthors conn (hs.user conn u hold)
      · exact .inl rfl
      · obtain ⟨name, hwill⟩ := hannounced.1 conn u hset
        exact .inr ⟨name, .inr ⟨_, hthreads'.mem_iff.2 (List.mem_cons_self ..), hwill _⟩⟩
    · intro th' hth'
      rcases List.mem_cons.1 (hthreads'.mem_iff.1 hth') with rfl | hother
      · exact hannounced.2 _
      · exact hs.announced th' (hthreads.mem_iff.2 (List.mem_cons_of_mem _ hother))
    · intro th' hth' conn msgid js time htask hlogin
      rcases List.mem_cons.1 (hthreads'.mem_iff.1 hth') with rfl | hother
      · intro V hV
        have hrun := hs.confined th hmem conn msgid js time htask hlogin V ((hauthors conn).trans hV)
        rw [hrest] at hrun
        refine hrun.2 _ (answers_exec env c s.shared (hV (.inl rfl)) fun u hu => ?_)
        exact hV (hauthors conn (hs.user conn u hu))
      · exact hmono (hs.confined th' (hthreads.mem_iff.2 (List.mem_cons_of_mem _ hother)) conn msgid js time
          htask hlogin)
  | finish th others hrest hthreads hthreads' hshared =>
    have hold : ∀ th' ∈ t.threads, th' ∈ s.threads := fun th' hth' =>
      hthreads.mem_iff.2 (List.mem_cons_of_mem _ (hthreads'.mem_iff.1 hth'))
    refine ⟨fun conn u hu => hauthors conn (hs.user conn u (hshared ▸ hu)), ?_, ?_⟩
    · exact fun th' hth' => hs.announced th' (hold th' hth')
    · intro th' hth' conn msgid js time htask hlogin
      exact hmono (hs.confined th' (hold th' hth') conn msgid js time htask hlogin)

theorem inv_start (n : ℕ) {w : World} (hw : w.connUserMap = fun _ => none) :
    Inv (Pool.start n w : Threads) := by
  refine ⟨?_, ?_, ?_⟩
  · intro conn u hu
    simp [Pool.start, hw] at hu
  · simp
  · simp

/-- The constructor of `Server` asks for no user of a connection. -/
theorem boot_connUserMap (w : World) : (boot env w).connUserMap = fun _ => none := by
  have hsafe : initServer.Safe (fun c => (∀ conn, c ≠ .connUser conn) ∧ Quiet c) (fun _ _ => True)
      fun _ => True := by
    refine Program.safe_bind.2 (Program.safe_bind.2 ⟨by simp [Quiet], fun groupVec _ => ?_⟩)
    refine Program.safe_forM (fun group _ => ?_) ?_
    · exact ⟨by simp [Quiet], fun _ _ => ⟨by simp [Quiet], fun _ _ => trivial⟩⟩
    · refine ⟨by simp [Quiet], fun userVec _ => Program.safe_forM (fun user _ => ?_) trivial⟩
      rw [Program.safe_ite]
      exact ⟨fun _ => ⟨by simp [Quiet], fun _ _ => trivial⟩, fun _ => trivial⟩
  have hexec : ∀ c w, ((∀ conn, c ≠ .connUser conn) ∧ Quiet c) → w.connUserMap = (fun _ => none) →
      True ∧ (exec env c w).2.connUserMap = fun _ => none := by
    rintro c w ⟨hc, hquiet⟩ hw
    refine ⟨trivial, funext fun conn => ?_⟩
    cases hu : (exec env c w).2.connUserMap conn with
    | none => rfl
    | some u =>
      rcases connUserMap_exec env c w hu with hold | ⟨hconn, -⟩ | hset
      · simp [hw] at hold
      · exact absurd hconn (hc conn)
      · exact absurd hset (hquiet conn u)
  exact (hsafe.run (exec env) hexec rfl).1

/-! ## What a request writes -/

/-- From `w` to `w'`, whatever is written names an author of `U`: an end of each friendship that changed, the
user of each friendship and group row that is new, the sender of each message that is cached. Of the sessions,
users of `U` are taken out or put on `conn`, and `conn` may get the user 0. -/
structure ActsFor (U : Set ℤ) (conn : Conn) (w w' : World) : Prop where
  friend : ∀ a b, w'.db.friend.lookup (a, b) ≠ w.db.friend.lookup (a, b) →
    (a ∈ U ∨ b ∈ U) ∧ (w.db.friend.lookup (a, b) = none → a ∈ U)
  groupUser : ∀ g u, w.db.groupUser.lookup (g, u) = none → w'.db.groupUser.lookup (g, u) ≠ none → u ∈ U
  privateChat : ∀ r ∈ w'.redis .privateChat, r ∈ w.redis .privateChat ∨ r.id₁ ∈ U
  groupChat : ∀ r ∈ w'.redis .groupChat, r ∈ w.redis .groupChat ∨ r.id₂ ∈ U
  user : w'.db.user = w.db.user
  userConn : ∀ u, w'.userConnMap u ≠ w.userConnMap u →
    u ∈ U ∧ (w'.userConnMap u = none ∨ w'.userConnMap u = some conn)
  connUser : ∀ d, w'.connUserMap d ≠ w.connUserMap d → d = conn ∧ w'.connUserMap d = some 0

section Effect

variable {c : Cmd} {conn : Conn} {U : Set ℤ} {areas : List Area} (h : c.Allowed conn U areas) (w : World)

include h

theorem friend_exec {a b : ℤ} (hne : (exec env c w).2.db.friend.lookup (a, b) ≠ w.db.friend.lookup (a, b)) :
    (a ∈ U ∨ b ∈ U) ∧ (w.db.friend.lookup (a, b) = none → a ∈ U) := by
  have hauthors := h.authors
  cases c <;> first | exact absurd rfl hne | skip
  case insertFriend userid friendid state =>
    have hkey : (a, b) = (userid, friendid) := by
      by_contra hkey
      exact hne ((Table.lookup_insertIgnore _ _ _ _).trans (if_neg hkey))
    obtain ⟨rfl, rfl⟩ := Prod.mk.inj hkey
    have ha : a ∈ U := by simpa using hauthors
    exact ⟨.inl ha, fun _ => ha⟩
  case modifyFriend userid friendid state =>
    have hlookup := Table.lookup_modify w.db.friend (userid, friendid) (a, b) fun _ => state
    by_cases hkey : (a, b) = (userid, friendid)
    · obtain ⟨rfl, rfl⟩ := Prod.mk.inj hkey
      refine ⟨by simpa using hauthors, fun hnone => absurd ?_ hne⟩
      show (w.db.friend.modify _ _).lookup _ = _
      rw [hlookup, if_pos rfl, hnone, Option.map_none]
    · exact absurd (hlookup.trans (if_neg hkey)) hne
  case deleteEach userid friendid =>
    have hlookup := Table.lookup_deleteWhere w.db.friend
      (fun k => k = (userid, friendid) ∨ k = (friendid, userid)) (a, b)
    have hends : userid ∈ U ∨ friendid ∈ U := by simpa using hauthors
    by_cases hkey : (a, b) = (userid, friendid) ∨ (a, b) = (friendid, userid)
    · refine ⟨?_, fun hnone => absurd ?_ hne⟩
      · rcases hkey with hkey | hkey
        · obtain ⟨rfl, rfl⟩ := Prod.mk.inj hkey
          exact hends
        · obtain ⟨rfl, rfl⟩ := Prod.mk.inj hkey
          exact hends.symm
      · show (w.db.friend.deleteWhere _).lookup _ = _
        rw [hlookup, if_pos (by simpa using hkey), hnone]
    · exact absurd (hlookup.trans (if_neg (by simpa using hkey))) hne

theorem groupUser_exec {g u : ℤ} (hnone : w.db.groupUser.lookup (g, u) = none)
    (hne : (exec env c w).2.db.groupUser.lookup (g, u) ≠ none) : u ∈ U := by
  have hauthors := h.authors
  cases c <;> first | exact absurd hnone hne | skip
  case addGroup userid groupid role =>
    have hkey : (g, u) = (groupid, userid) := by
      by_contra hkey
      exact hne ((Table.lookup_insertIgnore _ _ _ _).trans ((if_neg hkey).trans hnone))
    obtain ⟨rfl, rfl⟩ := Prod.mk.inj hkey
    simpa using hauthors
  case modifyGroupRole userid groupid role =>
    refine absurd ((Table.lookup_modify w.db.groupUser (groupid, userid) (g, u) fun _ => role).trans ?_) hne
    split
    case isTrue => rw [hnone, Option.map_none]
    case isFalse => exact hnone
  case deleteGroupMember userid groupid =>
    refine absurd ?_ hne
    by_cases hkey : (g, u) = (groupid, userid)
    · rw [hkey]
      exact AList.lookup_erase _ _
    · exact (AList.lookup_erase_ne hkey).trans hnone
  case deleteGroupUsers groupid =>
    refine absurd ((Table.lookup_deleteWhere w.db.groupUser (fun k => k.1 = groupid) (g, u)).trans ?_) hne
    split
    case isTrue => rfl
    case isFalse => exact hnone

theorem redis_exec {chat : Chat} {r : ChatRecord} (hr : r ∈ (exec env c w).2.redis chat) :
    r ∈ w.redis chat ∨ (match chat with
      | .privateChat => r.id₁
      | .groupChat => r.id₂) ∈ U := by
  have hauthors := h.authors
  cases c <;> first | exact .inl hr | skip
  case rpush chat' record =>
    by_cases hchat : chat = chat'
    · subst hchat
      simp only [exec, Function.update_self, List.mem_append, List.mem_singleton] at hr
      refine hr.imp_right ?_
      rintro rfl
      cases chat with
      | privateChat => simpa using hauthors
      | groupChat => simpa using hauthors
    · simp only [exec, Function.update_of_ne hchat] at hr
      exact .inl hr

theorem userConnMap_exec {u : ℤ} (hne : (exec env c w).2.userConnMap u ≠ w.userConnMap u) :
    u ∈ U ∧ ((exec env c w).2.userConnMap u = none ∨ (exec env c w).2.userConnMap u = some conn) := by
  have hauthors := h.authors
  have hsession := h.session
  cases c <;> first | exact absurd rfl hne | skip
  case setUserConn userid d =>
    obtain rfl := (hsession userid d).1 rfl
    by_cases hu : u = userid
    · subst hu
      exact ⟨by simpa using hauthors, .inr (Function.update_self ..)⟩
    · exact absurd (Function.update_of_ne hu ..) hne
  case eraseUserConn userid =>
    by_cases hu : u = userid
    · subst hu
      exact ⟨by simpa using hauthors, .inl (Function.update_self ..)⟩
    · exact absurd (Function.update_of_ne hu ..) hne

theorem connUserMap_of_allowed {d : Conn} (hne : (exec env c w).2.connUserMap d ≠ w.connUserMap d) :
    d = conn ∧ (exec env c w).2.connUserMap d = some 0 := by
  have hsession := h.session
  have hown := h.own
  cases c <;> first | exact absurd rfl hne | skip
  case connUser d' =>
    obtain rfl := hown d' rfl
    by_cases hd : d = d'
    · subst hd
      cases hw : w.connUserMap d with
      | none => exact ⟨rfl, by simp [exec, hw]⟩
      | some u => exact absurd (by simp [exec, hw]) hne
    · exact absurd (Function.update_of_ne hd ..) hne
  case setConnUser d' u => exact absurd rfl (hsession u d').2.1
  case eraseConnUser d' => exact absurd rfl (hsession 0 d').2.2

theorem actsFor_of_allowed (husers : Area.users ∉ areas) : ActsFor U conn w (exec env c w).2 where
  friend _ _ hne := friend_exec h w hne
  groupUser _ _ hnone hne := groupUser_exec h w hnone hne
  privateChat _ hr := redis_exec h w hr
  groupChat _ hr := redis_exec h w hr
  user := by
    cases c <;> first | rfl | exact absurd (h.area .users rfl) husers
  userConn _ hne := userConnMap_exec h w hne
  connUser _ hne := connUserMap_of_allowed h w hne

end Effect

/-! ## Every run -/

/-- **A request acts for 0 or for a user accepted on its connection**: in every run of the server, with any
number of workers, whatever the next command of a request other than REG_MSG and LOGIN_MSG writes. -/
theorem request_actsFor {db : Db} {n : ℕ} {l : List (Pool.Action Activity)} {s : Threads}
    (h : (server env).Run (fun _ _ => True) (Pool.start n (boot env (World.init db))) l s)
    {th : Thread Ans Fault Activity} (hth : th ∈ s.threads) {conn : Conn} {msgid : ℤ} {js : Json}
    {time : String} (htask : th.task = .request conn msgid js time)
    (hreg : msgid ≠ EnMsgType.regMsg.code) (hlogin : msgid ≠ EnMsgType.loginMsg.code)
    {c : Cmd} {next : Ans c → Task Unit} (hrest : th.rest = .call c next) :
    ActsFor (Authors s conn) conn s.shared (exec env c s.shared).2 := by
  have hinv : Inv s := by
    refine h.invariant (fun s a t _ hst hs => ?_) (inv_start n (boot_connUserMap _))
    exact inv_step (Pool.moves_of_step _ _ hst) hs
  have hconfined := hinv.confined th hth conn msgid js time htask hlogin _ subset_rfl
  rw [hrest] at hconfined
  exact actsFor_of_allowed hconfined.1 s.shared (users_not_mem_areasOf hreg hlogin)

/-! ## Two runs -/

/-- A message is enqueued, taken by the only worker, and `n` of its steps are done. -/
def handled (conn : Conn) (msgid : EnMsgType) (fields : List (String × Json)) (n : ℕ) :
    List (Pool.Action Activity) :=
  .enqueue (.request conn msgid.code (.obj fields) "") :: .dequeue 0 :: List.replicate n (.work 0)

/-- Bob logs in on connection 1. -/
def bobLogsIn : List (Pool.Action Activity) :=
  handled 1 .loginMsg [("name", .str "bob"), ("password", .str "b")] 8

/-- Bob writes to ann, and the message is about to be cached. -/
def bobWrites : List (Pool.Action Activity) :=
  bobLogsIn ++ handled 1 .privateChat [("id", .num 3), ("msg", .str "hi"), ("from_name", .str "bob")] 2

theorem bob_writes : ∃ s js next,
    (server .still).exec (Pool.start 1 (boot .still (World.init annAndBob))) bobWrites = some s ∧
      s.threads = [⟨.request 1 EnMsgType.privateChat.code js "",
        .call (.rpush .privateChat ⟨4, 3, "hi", Environment.still.clock 0⟩) next⟩] :=
  ⟨_, _, _, rfl, rfl⟩

theorem request_actsFor_bob : ∃ s,
    (server .still).exec (Pool.start 1 (boot .still (World.init annAndBob))) bobWrites = some s ∧
      ActsFor (Authors s 1) 1 s.shared
        (exec .still (.rpush .privateChat ⟨4, 3, "hi", Environment.still.clock 0⟩) s.shared).2 := by
  obtain ⟨s, js, next, hs, hthreads⟩ := bob_writes
  refine ⟨s, hs, ?_⟩
  exact request_actsFor (Machine.run_of_exec hs) (hthreads ▸ List.mem_singleton_self _) rfl (by decide)
    (by decide) rfl

/-- Bob logs in on connection 1; connection 0, on which nobody does, asks ann to be a friend, enters a file of
bob's, and writes to bob as ann. -/
def strangerActs : List (Pool.Action Activity) :=
  bobLogsIn ++ handled 0 .addFriend [("add_name", .str "ann")] 9 ++
    handled 0 .sendFileDatabase [("sender", .num 4), ("receiver", .num 3), ("filename", .str "f")] 3 ++
    handled 0 .privateChat [("id", .num 4), ("msg", .str "hi"), ("from_name", .str "ann")] 6

/-- Nobody was sent LOGIN_SUCCESS on connection 0, and yet it writes rows and reaches bob. -/
theorem stranger_acts :
    ∃ s, (server .still).exec (Pool.start 1 (boot .still (World.init annAndBob))) strangerActs = some s ∧
      (∀ u name, (0, loginSuccess u name) ∉ s.shared.sent) ∧
      s.shared.db.friend.lookup (0, 3) = some .request ∧
      (s.shared.db.fileTransfers.lookup "f").map FileRow.senderid = some 4 ∧
      (s.shared.redis .privateChat).map ChatRecord.id₁ = [0] ∧
      (1, .obj [("from_name", .str "ann"), ("msg", .str "hi"), ("msgid", .msg .privateChat), ("time", .str "")]) ∈
        s.shared.sent := by
  refine ⟨_, rfl, ?_, rfl, rfl, rfl, ?_⟩
  · show ∀ u name, (0, loginSuccess u name) ∉ [(1, loginSuccess 4 "bob"),
      (0, .obj [("msgid", .msg .addFriendRequest)]), (0, .obj [("msgid", .msg .sendFileDatabaseSuccess)]),
      (1, .obj [("from_name", .str "ann"), ("msg", .str "hi"), ("msgid", .msg .privateChat), ("time", .str "")])]
    simp [loginSuccess]
  · exact .tail _ (.tail _ (.tail _ (.head _)))

end Chatroom.Service
