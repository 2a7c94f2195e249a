import Chatroom.Service.Footprint
import Chatroom.Service.Texts

/-!
# Sessions

`m_userConnMap` and `m_connUserMap` are to be inverse to each other, and the users in them those whose row says
`online` (`Consistent`). A login puts a user in (`Consistent.enter`), the end of a connection takes him out
(`Consistent.leave`), and whatever else runs leaves the three alone. It goes wrong where a login is accepted on
a connection that has a user, or for the user without a row, and where `m_connUserMap[conn]` inserts its 0; and a
registration under a name that leaves its literal can be one of a user who is online.
-/

namespace Chatroom.Service

open Lib

/-- The maps and the table that sessions are kept in. -/
structure Sessions where
  userConn : ℤ → Option Conn
  connUser : Conn → Option ℤ
  user : AutoTable UserRow

def World.sessions (w : World) : Sessions := ⟨w.userConnMap, w.connUserMap, w.db.user⟩

/-- The user has a row, and it says `online`. -/
def Online (t : AutoTable UserRow) (u : ℤ) : Prop := ∃ r, t.lookup u = some r ∧ r.state = .online

structure Consistent (s : Sessions) : Prop where
  maps : ∀ u c, s.userConn u = some c ↔ s.connUser c = some u
  online : ∀ u, Online s.user u ↔ (s.userConn u).isSome

/-! ## A session begins and ends -/

/-- The table after `updateState`. -/
def setState (t : AutoTable UserRow) (id : ℤ) (state : UserState) : AutoTable UserRow :=
  t.modify id fun r => { r with state }

theorem online_setState {t : AutoTable UserRow} {u v : ℤ} {state : UserState} :
    Online (setState t u state) v ↔ if v = u then (t.lookup u).isSome ∧ state = .online else Online t v := by
  simp only [Online, setState, AutoTable.lookup_modify]
  split
  case isTrue h =>
    subst h
    cases t.lookup v <;> simp
  case isFalse => rfl

namespace Consistent

variable {s : Sessions} (h : Consistent s) {u : ℤ} {conn : Conn}

include h

theorem pos_of_userConn (hu : s.userConn u = some conn) : 0 < u := by
  obtain ⟨r, hr, -⟩ := (h.online u).2 (by simp [hu])
  exact (AutoTable.bounds_of_lookup hr).1

/-- A user without session comes in on a connection without user. -/
theorem enter (hoffline : ¬ Online s.user u) (hrow : (s.user.lookup u).isSome) (hconn : s.connUser conn = none) :
    Consistent ⟨Function.update s.userConn u (some conn), Function.update s.connUser conn (some u),
      setState s.user u .online⟩ := by
  have hu : s.userConn u = none := by
    by_contra hne
    exact hoffline ((h.online u).2 (Option.isSome_iff_ne_none.2 hne))
  constructor
  · intro v c
    have hmaps := h.maps
    simp only [Function.update_apply]
    grind
  · intro v
    show Online (setState s.user u .online) v ↔ (Function.update s.userConn u (some conn) v).isSome
    rw [online_setState]
    by_cases hv : v = u
    · subst hv
      simp [hrow]
    · rw [if_neg hv, Function.update_of_ne hv]
      exact h.online v

/-- The user of a connection goes. -/
theorem leave (hconn : s.connUser conn = some u) :
    Consistent ⟨Function.update s.userConn u none, Function.update s.connUser conn none,
      setState s.user u .offline⟩ := by
  have hu : s.userConn u = some conn := (h.maps u conn).2 hconn
  constructor
  · intro v c
    have hmaps := h.maps
    simp only [Function.update_apply]
    grind
  · intro v
    show Online (setState s.user u .offline) v ↔ (Function.update s.userConn u none v).isSome
    rw [online_setState]
    by_cases hv : v = u
    · subst hv
      simp
    · rw [if_neg hv, Function.update_of_ne hv]
      exact h.online v

/-- Only the rows of the table matter. -/
theorem congr {t : AutoTable UserRow} (ht : ∀ v, t.lookup v = s.user.lookup v) : Consistent { s with user := t } := by
  refine ⟨h.maps, fun v => ?_⟩
  rw [← h.online v]
  simp only [Online, ht]

/-- A user registers. -/
theorem register (refused : Bool) (name password : String) :
    Consistent { s with user := s.user.insert refused ⟨name, password, .offline⟩ } := by
  refine ⟨h.maps, fun v => ?_⟩
  rw [← h.online v]
  simp only [Online, AutoTable.lookup_insert]
  split
  case isTrue hv => simp [hv.2, AutoTable.lookup_next]
  case isFalse => rfl

end Consistent

/-! ## What is not about sessions -/

/-- The command leaves the maps and the table alone. -/
structure Neutral (c : Cmd) : Prop where
  session : c.area ≠ some .session
  users : c.area ≠ some .users
  connUser : ∀ conn, c ≠ .connUser conn

section Neutral

variable {env : Environment}

theorem sessions_exec {c : Cmd} (hc : Neutral c) (w : World) : (exec env c w).2.sessions = w.sessions := by
  cases c <;> first | rfl | exact absurd rfl hc.session | exact absurd rfl hc.users | exact absurd rfl (hc.connUser _)

theorem sessions_run {p : Task Unit} (h : p.Safe Neutral (fun _ _ => True) fun _ => True) (w : World) :
    (p.run (exec env) w).2.sessions = w.sessions :=
  (h.run (exec env) (I := fun s => s.sessions = w.sessions)
    (fun _ s hc hs => ⟨trivial, (sessions_exec hc s).trans hs⟩) rfl).1

theorem neutral_sendToUser (userid : ℤ) (fields : List (String × Json)) :
    (sendToUser userid fields).Safe Neutral (fun _ _ => True) fun _ => True :=
  safe_sendToUser_of ⟨by simp, by simp, by simp⟩ (fun _ => ⟨by simp, by simp, by simp⟩) trivial

end Neutral

/-! ## `login` and `reg` -/

/-- The user whom `login` accepts. -/
def accepted (env : Environment) (w : World) (js : Json) : Option User :=
  match js.stringField "name", js.stringField "password" with
  | .ok name, .ok pwd =>
    let user := w.db.queryUserByName env.collate name
    if (user.name = name ∧ user.password = pwd) ∧ user.state ≠ "online" then some user else none
  | _, _ => none

section Handlers

variable {env : Environment} {w : World} {conn : Conn} {js : Json} {time : String}

theorem sessions_login_none (h : accepted env w js = none) :
    ((login conn js time).run (exec env) w).2.sessions = w.sessions := by
  unfold accepted at h
  unfold login
  cases hname : js.stringField "name" with
  | error e => simp [Program.run_bind]
  | ok name =>
    cases hpwd : js.stringField "password" with
    | error e => simp [Program.run_bind]
    | ok pwd =>
      simp only [hname, hpwd, ite_eq_right_iff, reduceCtorEq, imp_false, not_and, not_not] at h
      simp only [Program.run_bind, run_read_ok, Program.run_perform, exec]
      split
      case isTrue haccept =>
        rw [if_pos (h haccept)]
        rfl
      case isFalse => rfl

theorem sessions_login_some {user : User} (h : accepted env w js = some user) :
    ((login conn js time).run (exec env) w).2.sessions =
      ⟨Function.update w.userConnMap user.id (some conn), Function.update w.connUserMap conn (some user.id),
        setState w.db.user user.id .online⟩ := by
  unfold accepted at h
  unfold login
  cases hname : js.stringField "name" with
  | error e => simp [hname] at h
  | ok name =>
    cases hpwd : js.stringField "password" with
    | error e => simp [hname, hpwd] at h
    | ok pwd =>
      simp only [hname, hpwd, Option.ite_none_right_eq_some, Option.some.injEq] at h
      obtain ⟨⟨haccept, hoffline⟩, rfl⟩ := h
      simp only [Program.run_bind, run_read_ok, Program.run_perform, run_send, exec, if_pos haccept,
        if_neg hoffline]
      exact sessions_run (Program.safe_forM (fun _ _ => neutral_sendToUser _ _) trivial) _

theorem consistent_reg (time : String) (h : Consistent w.sessions) :
    Consistent ((reg conn js time).run (exec env) w).2.sessions := by
  unfold reg
  cases hname : js.stringField "name" with
  | error e => simpa [Program.run_bind] using h
  | ok name =>
    cases hpwd : js.stringField "password" with
    | error e => simpa [Program.run_bind] using h
    | ok pwd =>
      simp only [Program.run_bind, run_read_ok, Program.run_perform, exec]
      have hregister := h.register (w.db.user.rows.any fun r => env.collate r.2.name = env.collate name) name pwd
      split
      case h_1 => exact hregister
      case h_2 => exact hregister

/-! ## Connections that end -/

theorem setState_queryUser (w : World) (u : ℤ) (state : UserState) (v : ℤ) :
    (setState w.db.user (w.db.queryUser u).id state).lookup v = (setState w.db.user u state).lookup v := by
  unfold Db.queryUser
  cases hu : w.db.user.lookup u with
  | some r => rfl
  | none =>
    simp only [setState, AutoTable.lookup_modify]
    split <;> split <;> simp_all [AutoTable.lookup_of_nonpos]

theorem consistent_clientClose (h : Consistent w.sessions) :
    Consistent ((clientClose conn).run (exec env) w).2.sessions := by
  unfold clientClose
  cases hconn : w.connUserMap conn with
  | none =>
    simp only [Program.run_bind, Program.run_perform, exec, hconn]
    exact h
  | some u =>
    have hu : u ≠ -1 := by
      have hpos := h.pos_of_userConn ((h.maps u conn).2 hconn)
      omega
    simp only [Program.run_bind, Program.run_perform, setOffline, exec, hconn, if_pos hu]
    exact (h.leave hconn).congr (setState_queryUser w u .offline)

theorem consistent_dropConn (h : Consistent w.sessions) :
    Consistent ((dropConn conn).run (exec env) w).2.sessions := by
  unfold dropConn
  simp only [Program.run_bind, Program.run_perform, run_connUser, run_sendToUser, setOffline, exec]
  show Consistent ⟨Function.update w.userConnMap ((w.connUserMap conn).getD 0) none,
    Function.update (Function.update w.connUserMap conn (some ((w.connUserMap conn).getD 0))) conn none,
    setState w.db.user (w.db.queryUser ((w.connUserMap conn).getD 0)).id .offline⟩
  rw [Function.update_idem]
  cases hconn : w.connUserMap conn with
  | some u => exact (h.leave hconn).congr (setState_queryUser w u .offline)
  | none =>
    -- nobody is user 0: what is erased and updated is not there
    have hzero : w.userConnMap 0 = none := by
      by_contra hne
      obtain ⟨c, hc⟩ := Option.ne_none_iff_exists'.1 hne
      exact absurd (h.pos_of_userConn hc) (by decide)
    have huser : ∀ v, (setState w.db.user (w.db.queryUser 0).id .offline).lookup v = w.db.user.lookup v := by
      intro v
      rw [setState_queryUser, setState, AutoTable.lookup_modify]
      split
      case isTrue hv => simp [hv, AutoTable.lookup_of_nonpos]
      case isFalse => rfl
    rw [Option.getD_none, Function.update_eq_self_iff.2 hzero.symm, Function.update_eq_self_iff.2 hconn.symm]
    exact h.congr huser

theorem consistent_checkIfConnAlive (h : Consistent w.sessions) :
    Consistent (checkIfConnAlive.run (exec env) w).2.sessions := by
  unfold checkIfConnAlive
  simp only [Program.run_bind, Program.run_perform, exec]
  exact Program.run_forM (exec env) (I := fun s => Consistent s.sessions)
    (fun conn _ s hs => consistent_dropConn hs) h

/-! ## Other requests -/

/-- A request that finds a user for its connection, or does not ask for it, leaves the sessions alone. -/
theorem sessions_request {msgid : ℤ} (hreg : msgid ≠ EnMsgType.regMsg.code)
    (hlogin : msgid ≠ EnMsgType.loginMsg.code) (hfile : msgid ≠ EnMsgType.receiveFile.code)
    (hconn : (w.connUserMap conn).isSome ∨
      .connUser conn ∉ (getHandler msgid conn js time).trace (exec env) w) :
    ((getHandler msgid conn js time).run (exec env) w).2.sessions = w.sessions := by
  have hsafe := (confined_getHandler hlogin).safe (P := fun c => c.Allowed conn Set.univ (areasOf msgid))
    (fun c hc => hc) js time
  have hexec : ∀ (c : Cmd) (s : World), c.Allowed conn Set.univ (areasOf msgid) →
      (c = .connUser conn → (w.connUserMap conn).isSome) → s.sessions = w.sessions →
      True ∧ (exec env c s).2.sessions = w.sessions := by
    intro c s hc hask hs
    refine ⟨trivial, ?_⟩
    by_cases hcmd : ∃ d, c = .connUser d
    · obtain ⟨d, rfl⟩ := hcmd
      obtain rfl := hc.own d rfl
      -- the user is found, and the map stays as it is
      obtain ⟨u, hu⟩ := Option.isSome_iff_exists.1 (hask rfl)
      have hsu : s.connUserMap d = some u := (congrFun (congrArg Sessions.connUser hs) d).trans hu
      rw [← hs]
      simp [exec, World.sessions, hsu]
    · refine (sessions_exec ⟨fun harea => ?_, fun harea => ?_, fun d hd => hcmd ⟨d, hd⟩⟩ s).trans hs
      · exact session_not_mem_areasOf hlogin hfile (hc.area .session harea)
      · exact users_not_mem_areasOf hreg hlogin (hc.area .users harea)
  refine (hsafe.run_of_trace (exec env) hexec (fun c hc hask => ?_) rfl).1
  exact hconn.resolve_right fun hnot => hnot (hask ▸ hc)

end Handlers

/-! ## A new process -/

section Boot

variable {env : Environment}

theorem neutral_groupUserListMapInit :
    groupUserListMapInit.Safe Neutral (fun _ _ => True) fun _ => True := by
  refine ⟨⟨by simp, by simp, by simp⟩, fun groupVec _ => Program.safe_forM (fun group _ => ?_) trivial⟩
  exact ⟨⟨by simp, by simp, by simp⟩, fun _ _ => ⟨⟨by simp, by simp, by simp⟩, fun _ _ => trivial⟩⟩

/-- The table after one round of `UserstateInit`. -/
def setOfflineRow (t : AutoTable UserRow) (user : User) : AutoTable UserRow :=
  if user.state = "online" then setState t user.id .offline else t

theorem run_userstateInit_loop (userVec : List User) (w : World) :
    ((forM userVec fun user => (if user.state = "online" then perform (.updateState user.id .offline)
      else return : Task Unit)).run (exec env) w).2.sessions =
      { w.sessions with user := userVec.foldl setOfflineRow w.db.user } := by
  induction userVec generalizing w with
  | nil => rfl
  | cons user userVec ih =>
    have hround : (if user.state = "online" then perform (.updateState user.id .offline)
        else return : Task Unit).run (exec env) w =
        (.ok (), { w with db := { w.db with user := setOfflineRow w.db.user user } }) := by
      unfold setOfflineRow
      split <;> rfl
    rw [List.forM_cons, Program.run_bind, hround]
    exact ih _

theorem not_online_setOfflineRow {t : AutoTable UserRow} {user : User} {u : ℤ}
    (h : ¬ Online t u ∨ (user.id = u ∧ user.state = "online")) : ¬ Online (setOfflineRow t user) u := by
  unfold setOfflineRow
  split
  case isTrue honline =>
    rw [online_setState]
    split
    case isTrue hu => simp
    case isFalse hu => exact h.resolve_right fun h => hu h.1.symm
  case isFalse honline => exact h.resolve_right fun h => honline h.2

theorem not_online_foldl {userVec : List User} {t : AutoTable UserRow} {u : ℤ}
    (h : ¬ Online t u ∨ ∃ user ∈ userVec, user.id = u ∧ user.state = "online") :
    ¬ Online (userVec.foldl setOfflineRow t) u := by
  induction userVec generalizing t with
  | nil => exact h.resolve_right (by simp)
  | cons user userVec ih =>
    refine ih ?_
    rcases h with hoff | ⟨user', hmem, hid, honline⟩
    · exact .inl (not_online_setOfflineRow (.inl hoff))
    · rcases List.mem_cons.1 hmem with rfl | hmem
      · exact .inl (not_online_setOfflineRow (.inr ⟨hid, honline⟩))
      · exact .inr ⟨user', hmem, hid, honline⟩

theorem consistent_boot (w : World) : Consistent (boot env w).sessions := by
  have hinit : (boot env w).sessions =
      ⟨fun _ => none, fun _ => none, w.db.queryUsers.foldl setOfflineRow w.db.user⟩ := by
    have hok : (groupUserListMapInit.run (exec env) w.restart).1 = .ok () :=
      Program.run_forM_ok _ (fun _ _ _ => rfl) _
    have hsessions : (groupUserListMapInit.run (exec env) w.restart).2.sessions = w.restart.sessions :=
      sessions_run neutral_groupUserListMapInit w.restart
    unfold boot initServer
    rw [Program.run_bind_of_ok _ hok]
    generalize (groupUserListMapInit.run (exec env) w.restart).2 = v at hsessions
    have huser : v.db.user = w.db.user := congrArg Sessions.user hsessions
    refine (run_userstateInit_loop v.db.queryUsers v).trans ?_
    rw [hsessions, Db.queryUsers, Db.queryUsers, huser]
    rfl
  rw [hinit]
  refine ⟨by simp, fun u => ?_⟩
  have hoff : ¬ Online (w.db.queryUsers.foldl setOfflineRow w.db.user) u := by
    refine not_online_foldl ?_
    by_cases honline : Online w.db.user u
    · obtain ⟨r, hr, hstate⟩ := honline
      refine .inr ⟨_, List.mem_map.2 ⟨(u, r), AutoTable.mem_rows.2 hr, rfl⟩, rfl, ?_⟩
      simp [hstate, UserState.text]
    · exact .inl honline
  simp [hoff]

end Boot

/-! ## Every run -/

/-- What a step must not do: accept a login on a connection that has a user, or of the user without a row, and
ask for the user of a connection that has none. RECEIVE_FILE is left out. -/
def Orderly (env : Environment) (w : World) : Option Activity → Prop
  | some (.request conn msgid js time) =>
    if msgid = EnMsgType.loginMsg.code then
      ∀ user, accepted env w js = some user → w.connUserMap conn = none ∧ (w.db.user.lookup user.id).isSome
    else msgid ≠ EnMsgType.receiveFile.code ∧ ((w.connUserMap conn).isSome ∨
      .connUser conn ∉ (Activity.request conn msgid js time).body.trace (exec env) w)
  | _ => True

section Run

variable {env : Environment} {w : World}

/-- An accepted user was offline. -/
theorem not_online_accepted {js : Json} {user : User} (h : accepted env w js = some user)
    (hrow : (w.db.user.lookup user.id).isSome) : ¬ Online w.db.user user.id := by
  rintro ⟨r, hr, hstate⟩
  unfold accepted at h
  split at h
  case h_1 name pwd _ _ =>
    simp only [Option.ite_none_right_eq_some, Option.some.injEq] at h
    obtain ⟨⟨-, hoffline⟩, rfl⟩ := h
    unfold Db.queryUserByName at hr hoffline
    split at hr
    case h_1 id r' hfind =>
      have hmem := AutoTable.mem_rows.1 (List.mem_of_find?_eq_some hfind)
      rw [hmem] at hr
      obtain rfl := Option.some.inj hr
      exact hoffline (by simp [hfind, hstate, UserState.text])
    case h_2 =>
      rw [AutoTable.lookup_of_nonpos _ (by decide)] at hr
      cases hr
  case h_2 => cases h

theorem consistent_serve {a : Activity} (hok : Orderly env w (some a)) (h : Consistent w.sessions) :
    Consistent (serve env a w).sessions := by
  cases a with
  | request conn msgid js time =>
    show Consistent ((getHandler msgid conn js time).run (exec env) w).2.sessions
    by_cases hlogin : msgid = EnMsgType.loginMsg.code
    · subst hlogin
      simp only [Orderly, if_true] at hok
      rw [getHandler_login]
      cases haccepted : accepted env w js with
      | none =>
        rw [sessions_login_none haccepted]
        exact h
      | some user =>
        obtain ⟨hconn, hrow⟩ := hok user haccepted
        rw [sessions_login_some haccepted]
        exact h.enter (not_online_accepted haccepted hrow) hrow hconn
    · simp only [Orderly, if_neg hlogin] at hok
      by_cases hreg : msgid = EnMsgType.regMsg.code
      · subst hreg
        exact consistent_reg time h
      · rw [sessions_request hreg hlogin hok.1 hok.2]
        exact h
  | connStatus conn status => exact h
  | removeConnStatus conn => exact h
  | down conn =>
    have hclose : Consistent ((clientClose conn).run (exec env) w).2.sessions := consistent_clientClose h
    show Consistent ((clientClose conn >>= fun _ => perform (.forceClose conn)).run (exec env) w).2.sessions
    rw [Program.run_bind]
    split
    case h_1 a t heq =>
      rw [heq] at hclose
      exact hclose
    case h_2 e t heq =>
      rw [heq] at hclose
      exact hclose
  | heartbeat => exact consistent_checkIfConnAlive h

theorem consistent_of_serial {l : List (Option Activity)} {w₀ : World}
    (h : (serial env).Run (Orderly env) (boot env w₀) l w) : Consistent w.sessions := by
  exact @serial_invariant env _ (fun s => Consistent s.sessions) (fun s _ _ => consistent_boot s)
    (fun _ _ hok hs => consistent_serve hok hs) _ _ _ h (consistent_boot w₀)

/-- **The session maps stay inverse to each other, and those online are those in them**, in every run of
complete activities that are all orderly and whose texts stay inside their literals. -/
theorem consistent_of_orderly {other : Other} {l : List (Option Activity)} {w₀ : World} {s : NullableWorld}
    (h : (serialSql env other).Run (fun s a => Worded env s.toWorld a ∧ Orderly env s.toWorld a)
      (bootSql env other w₀.nonNull) l s) : Consistent s.sessions := by
  obtain ⟨w, rfl, hrun⟩ := serial_of_worded_boot h
  exact consistent_of_serial hrun

end Run

/-- Bob logs in, asks for his friends, and goes. -/
theorem consistent_of_orderly_bob : ∃ s, (serialSql .still .overrun).Run
      (fun s a => Worded .still s.toWorld a ∧ Orderly .still s.toWorld a)
      (bootSql .still .overrun (World.init annAndBob).nonNull)
      [some (logsIn 1 "bob" "b"), some (.request 1 EnMsgType.displayFriendList.code (.obj []) ""),
        some (.down 1)] s ∧ Consistent s.sessions := by
  obtain ⟨w, hrun⟩ : ∃ w, (serial .still).Run (fun w a => Worded .still w a ∧ Orderly .still w a)
      (boot .still (World.init annAndBob))
      [some (logsIn 1 "bob" "b"), some (.request 1 EnMsgType.displayFriendList.code (.obj []) ""),
        some (.down 1)] w := by
    refine ⟨_, .cons ⟨by decide, ?_⟩ rfl (.cons ⟨by decide, ?_⟩ rfl (.cons ⟨by decide, trivial⟩ rfl (.nil _)))⟩
    · rintro user haccepted
      obtain rfl := Option.some.inj haccepted
      exact ⟨rfl, rfl⟩
    · exact ⟨by decide, .inl rfl⟩
  have hsql : (serialSql .still .overrun).Run _ _ _ _ := serialSql_of_boot hrun
  exact ⟨_, hsql, consistent_of_orderly hsql⟩

/-- Bob logs in, then ann on the same connection, which is then closed: bob stays online, in the map and unable to
log in. -/
theorem second_login_strands_first :
    ∃ w, (serial .still).exec (boot .still (World.init annAndBob))
        [some (logsIn 1 "bob" "b"), some (logsIn 1 "ann" "a"), some (.down 1)] = some w ∧
      ¬ Consistent w.sessions ∧ w.userConnMap 4 = some 1 ∧ w.connUserMap 1 = none ∧
      (w.db.user.lookup 4).map UserRow.state = some .online ∧
      accepted .still w (.obj [("name", .str "bob"), ("password", .str "b")]) = none := by
  refine ⟨_, rfl, fun h => ?_, rfl, rfl, rfl, rfl⟩
  have hbob := (h.maps 4 1).1 rfl
  cases hbob

end Chatroom.Service
