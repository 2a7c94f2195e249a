import Chatroom.Service.Connections
import Chatroom.Service.References
import Chatroom.Service.Session

/-!
# The heartbeat

`checkIfConnAlive` takes back the flag of every connection and drops those that had none. Whoever is silent from one
check to the next is dropped by one of the two (`heartbeat_reaps`): by the first if his flag was already taken back,
and else by the second, because nothing that is said on other connections gives it to him again (`elsewhere_serve`).
Where a text of a client has set the state of his row to `NULL`, the check ends before the row says `offline`
(`null_state_stays`).
-/

namespace Chatroom.Service

open Lib

/-- The session of the connection is over: it is in neither map, its user is in none, and his row says `offline`. -/
structure LoggedOut (conn : Conn) (u : ℤ) (w : World) : Prop where
  connStatus : w.connStatusMap.lookup conn = none
  connUser : w.connUserMap conn = none
  userConn : w.userConnMap u = none
  offline : (w.db.user.lookup u).map UserRow.state = some .offline

/-- The connection of a registered user. -/
structure HasUser (conn : Conn) (u : ℤ) (w : World) : Prop where
  connUser : w.connUserMap conn = some u
  registered : (w.db.user.lookup u).isSome

section Drop

variable {env : Environment} {w : World} {conn d : Conn} {u : ℤ}

/-! ## One connection is dropped -/

theorem connStatus_dropConn : ((dropConn d).run (exec env) w).2.connStatusMap = w.connStatusMap.erase d := by
  simp only [dropConn, Program.run_bind, Program.run_perform, run_connUser, run_sendToUser, setOffline]
  rfl

theorem connUser_dropConn :
    ((dropConn d).run (exec env) w).2.connUserMap = Function.update w.connUserMap d none := by
  simp only [dropConn, Program.run_bind, Program.run_perform, run_connUser, run_sendToUser, setOffline]
  exact Function.update_idem _ _ _

theorem userConn_dropConn : ((dropConn d).run (exec env) w).2.userConnMap =
    Function.update w.userConnMap (w.userOf d) none := by
  simp only [dropConn, Program.run_bind, Program.run_perform, run_connUser, run_sendToUser, setOffline]
  rfl

theorem user_dropConn (v : ℤ) : ((dropConn d).run (exec env) w).2.db.user.lookup v =
    (setState w.db.user (w.userOf d) .offline).lookup v := by
  simp only [dropConn, Program.run_bind, Program.run_perform, run_connUser, run_sendToUser, setOffline]
  exact setState_queryUser w (w.userOf d) .offline v

theorem HasUser.dropConn (h : HasUser conn u w) :
    LoggedOut conn u ((dropConn conn).run (exec env) w).2 := by
  have huser : w.userOf conn = u := by rw [World.userOf, h.connUser]; rfl
  constructor
  · rw [connStatus_dropConn]
    exact AList.lookup_erase _ _
  · rw [connUser_dropConn]
    exact Function.update_self ..
  · rw [userConn_dropConn, huser]
    exact Function.update_self ..
  · obtain ⟨r, hr⟩ := Option.isSome_iff_exists.1 h.registered
    rw [user_dropConn, huser, setState, AutoTable.lookup_modify, if_pos rfl, hr]
    rfl

theorem HasUser.dropConn_of_ne (h : HasUser conn u w) (hne : conn ≠ d) :
    HasUser conn u ((Service.dropConn d).run (exec env) w).2 := by
  constructor
  · rw [connUser_dropConn, Function.update_of_ne hne]
    exact h.connUser
  · exact registered_run (Service.dropConn d) h.registered

/-- Whoever is dropped after it does not bring it back. -/
theorem LoggedOut.dropConn (h : LoggedOut conn u w) :
    LoggedOut conn u ((dropConn d).run (exec env) w).2 := by
  constructor
  · rw [connStatus_dropConn]
    by_cases hd : conn = d
    · rw [hd]
      exact AList.lookup_erase _ _
    · rw [AList.lookup_erase_ne hd]
      exact h.connStatus
  · rw [connUser_dropConn, Function.update_apply]
    split
    · rfl
    · exact h.connUser
  · rw [userConn_dropConn, Function.update_apply]
    split
    · rfl
    · exact h.userConn
  · rw [user_dropConn, setState, AutoTable.lookup_modify]
    split
    case isTrue =>
      obtain ⟨r, hr, -⟩ := Option.map_eq_some_iff.1 h.offline
      rw [hr]
      rfl
    case isFalse => exact h.offline

/-! ## All of the victims -/

theorem fst_dropConn : ((dropConn d).run (exec env) w).1 = .ok () := by
  simp only [dropConn, Program.run_bind, Program.run_perform, run_connUser, run_sendToUser, setOffline]

theorem loggedOut_forM_dropConn {conns : List Conn} (hconn : conn ∈ conns) (h : HasUser conn u w) :
    LoggedOut conn u ((forM conns dropConn : Task Unit).run (exec env) w).2 := by
  induction conns generalizing w with
  | nil => cases hconn
  | cons d conns ih =>
    rw [List.forM_cons, Program.run_bind_of_ok _ fst_dropConn]
    by_cases hd : conn = d
    · subst hd
      exact Program.run_forM (exec env) (I := LoggedOut conn u) (fun _ _ _ hs => hs.dropConn) h.dropConn
    · exact ih ((List.mem_cons.1 hconn).resolve_left hd) (h.dropConn_of_ne hd)

/-- The others are not disturbed. -/
theorem forM_dropConn_of_notMem {conns : List Conn} (hconn : conn ∉ conns) :
    ((forM conns dropConn : Task Unit).run (exec env) w).2.connStatusMap.lookup conn =
        w.connStatusMap.lookup conn ∧
      ((forM conns dropConn : Task Unit).run (exec env) w).2.connUserMap conn = w.connUserMap conn := by
  refine Program.run_forM (exec env)
    (I := fun s => s.connStatusMap.lookup conn = w.connStatusMap.lookup conn ∧
      s.connUserMap conn = w.connUserMap conn) (fun d hd s hs => ?_) ⟨rfl, rfl⟩
  have hne : conn ≠ d := fun heq => hconn (heq ▸ hd)
  rw [connStatus_dropConn, connUser_dropConn, AList.lookup_erase_ne hne, Function.update_of_ne hne]
  exact hs

end Drop

/-! ## A check -/

section Check

variable {env : Environment} {w : World} {conn : Conn} {u : ℤ}

/-- The connections that the first loop of `checkIfConnAlive` collects. -/
def World.silent (w : World) : List Conn :=
  w.connStatusMap.rows.filterMap fun (conn, status) => if status then none else some conn

theorem mem_silent : conn ∈ w.silent ↔ w.connStatusMap.lookup conn = some false := by
  simp only [World.silent, List.mem_filterMap]
  constructor
  · rintro ⟨⟨d, status⟩, hrow, hd⟩
    cases status with
    | true => simp at hd
    | false =>
      obtain rfl : d = conn := by simpa using hd
      exact Table.mem_rows.1 hrow
  · intro h
    exact ⟨(conn, false), Table.mem_rows.2 h, rfl⟩

/-- The state after the first loop. -/
def World.swept (w : World) : World := { w with connStatusMap := w.connStatusMap.mapRows fun _ _ => false }

theorem serve_heartbeat :
    serve env .heartbeat w = ((forM w.silent dropConn : Task Unit).run (exec env) w.swept).2 := rfl

/-- **A check drops whoever has no flag.** -/
theorem loggedOut_heartbeat (hstatus : w.connStatusMap.lookup conn = some false) (h : HasUser conn u w) :
    LoggedOut conn u (serve env .heartbeat w) := by
  rw [serve_heartbeat]
  exact loggedOut_forM_dropConn (mem_silent.2 hstatus) ⟨h.connUser, h.registered⟩

/-- **A check leaves the others in the maps**, and takes back their flag. -/
theorem heartbeat_of_flagged (hstatus : w.connStatusMap.lookup conn = some true) :
    (serve env .heartbeat w).connStatusMap.lookup conn = some false ∧
      (serve env .heartbeat w).connUserMap conn = w.connUserMap conn := by
  have hconn : conn ∉ w.silent := by
    rw [mem_silent, hstatus]
    simp
  obtain ⟨hkept, huser⟩ := @forM_dropConn_of_notMem env w.swept conn _ hconn
  rw [serve_heartbeat, hkept, huser]
  refine ⟨?_, rfl⟩
  rw [World.swept, Table.lookup_mapRows, hstatus]
  rfl

end Check

/-! ## What happens on other connections -/

/-- An event of another connection. -/
def Elsewhere (conn : Conn) (a : Option Activity) : Prop :=
  ∃ b d, a = some b ∧ b.conn = some d ∧ d ≠ conn

section Elsewhere

variable {env : Environment} {w : World} {conn : Conn}

/-- The maps have the same for the connection. -/
def SameEntries (conn : Conn) (w s : World) : Prop :=
  s.connStatusMap.lookup conn = w.connStatusMap.lookup conn ∧ s.connUserMap conn = w.connUserMap conn

theorem sameEntries_exec {a : Activity} {d : Conn} (ha : a.conn = some d) (hd : d ≠ conn) {c : Cmd}
    (hc : c.OfConn a) (s : World) : SameEntries conn s (exec env c s).2 := by
  have hother : ∀ {e : Conn}, a.conn = some e ∨ a = .heartbeat → conn ≠ e := by
    rintro e (he | rfl) rfl
    · exact hd (Option.some.inj (ha.symm.trans he))
    · cases ha
  cases c <;> first | exact ⟨rfl, rfl⟩ | skip
  case connUser e => exact ⟨rfl, Function.update_of_ne (hother hc) _ _⟩
  case setConnUser e v =>
    obtain ⟨msgid, js, time, rfl⟩ := hc
    exact ⟨rfl, Function.update_of_ne (hother (.inl rfl)) _ _⟩
  case eraseConnUser e => exact ⟨rfl, Function.update_of_ne (hother hc) _ _⟩
  case setConnStatus e b => exact ⟨AList.lookup_insert_ne (hother (.inl hc)), rfl⟩
  case eraseConnStatus e => exact ⟨AList.lookup_erase_ne (hother hc), rfl⟩
  case sweepConnStatus =>
    rw [show a = .heartbeat from hc] at ha
    cases ha

/-- **What happens on another connection changes nothing that the maps have for this one.** -/
theorem elsewhere_serve {a : Activity} {d : Conn} (ha : a.conn = some d) (hd : d ≠ conn) :
    SameEntries conn w (serve env a w) :=
  (a.ofConn_body.run (exec env) (I := SameEntries conn w) (fun c s hc hs => by
    obtain ⟨hstatus, huser⟩ := @sameEntries_exec env conn a d ha hd c hc s
    exact ⟨trivial, hstatus.trans hs.1, huser.trans hs.2⟩) ⟨rfl, rfl⟩).1

/-- What the maps have for a connection, and the row of its user, between two checks. -/
theorem elsewhere_of_run {u : ℤ} {l : List (Option Activity)} {w' : World}
    (h : (serial env).Run (fun _ a => Elsewhere conn a) w l w') (hrow : (w.db.user.lookup u).isSome) :
    SameEntries conn w w' ∧ (w'.db.user.lookup u).isSome := by
  have hstep : ∀ s a t, Elsewhere conn a → (serial env).step s a = some t →
      (SameEntries conn w s ∧ (s.db.user.lookup u).isSome) →
      (SameEntries conn w t ∧ (t.db.user.lookup u).isSome) := by
    rintro s _ t ⟨b, d, rfl, hb, hd⟩ hst ⟨hs, hrow⟩
    obtain rfl := Option.some.inj hst
    obtain ⟨hstatus, huser⟩ := @elsewhere_serve env s conn b d hb hd
    exact ⟨⟨hstatus.trans hs.1, huser.trans hs.2⟩, registered_run b.body hrow⟩
  exact h.invariant hstep ⟨⟨rfl, rfl⟩, hrow⟩

end Elsewhere

/-! ## Two checks -/

/-- From the one state to the other the connection is removed from both maps, and its user is logged out. -/
structure Reaped (conn : Conn) (u : ℤ) (s s' : NullableWorld) : Prop extends LoggedOut conn u s'.toWorld where
  notNull : s'.stateNull u = false
  connStatus_before : s.connStatusMap.lookup conn ≠ none
  connUser_before : s.connUserMap conn = some u

section Reap

variable {env : Environment} {other : Other} {w w' : World} {conn : Conn} {u : ℤ}

theorem worded_heartbeat (w : World) : Worded env w (some .heartbeat) := by
  have hdrop : ∀ d, (dropConn d).Safe (fun c => c.Worded) (fun _ _ => True) fun _ => True := by
    intro d
    refine safe_dropConn_of fun c hc => ?_
    cases hc <;> trivial
  have hsafe : checkIfConnAlive.Safe (fun c => c.Worded) (fun _ _ => True) fun _ => True :=
    ⟨trivial, fun conns _ => Program.safe_forM (fun d _ => hdrop d) trivial⟩
  rintro _ ⟨⟩
  exact Program.Safe.trace (exec env) hsafe w

theorem reaps_of_serial (hstatus : w.connStatusMap.lookup conn ≠ none) (huser : w.connUserMap conn = some u)
    (hrow : (w.db.user.lookup u).isSome) {l : List (Option Activity)}
    (h : (serial env).Run (fun _ a => Elsewhere conn a) (serve env .heartbeat w) l w') :
    (LoggedOut conn u (serve env .heartbeat w) ∨ w'.connStatusMap.lookup conn ≠ none ∧
      w'.connUserMap conn = some u ∧ LoggedOut conn u (serve env .heartbeat w')) ∧
    (serve env .heartbeat w').connStatusMap.lookup conn = none ∧
    (serve env .heartbeat w').connUserMap conn = none := by
  have hin : HasUser conn u w := ⟨huser, hrow⟩
  obtain ⟨⟨hsame, hsameUser⟩, hrow'⟩ := elsewhere_of_run h (registered_run checkIfConnAlive hrow)
  obtain ⟨b, hb⟩ := Option.ne_none_iff_exists'.1 hstatus
  cases b with
  | false =>
    -- the first check drops it, and the second does not know it
    have hout : LoggedOut conn u (serve env .heartbeat w) := loggedOut_heartbeat hb hin
    have hnone : w'.connStatusMap.lookup conn = none := hsame.trans hout.connStatus
    have hsilent : conn ∉ w'.silent := by
      rw [mem_silent, hnone]
      simp
    obtain ⟨hkept, hkeptUser⟩ := @forM_dropConn_of_notMem env w'.swept conn _ hsilent
    refine ⟨.inl hout, ?_, ?_⟩
    · rw [serve_heartbeat, hkept, World.swept, Table.lookup_mapRows, hnone]
      rfl
    · rw [serve_heartbeat, hkeptUser]
      exact hsameUser.trans hout.connUser
  | true =>
    obtain ⟨hfalse, hkept⟩ := @heartbeat_of_flagged env w conn hb
    have hstatus' : w'.connStatusMap.lookup conn = some false := hsame.trans hfalse
    have huser' : w'.connUserMap conn = some u := hsameUser.trans (hkept.trans huser)
    have hout : LoggedOut conn u (serve env .heartbeat w') := loggedOut_heartbeat hstatus' ⟨huser', hrow'⟩
    exact ⟨.inr ⟨by simp [hstatus'], huser', hout⟩, hout.connStatus, hout.connUser⟩

/-- **Whoever is silent from one check to the next is dropped by one of the two**, whatever happens on the other
connections in between, in every run whose texts stay inside their literals. Whoever has his flag at a check stays in
the maps. -/
theorem heartbeat_reaps {w₀ : World} {l₀ : List (Option Activity)} {s s' : NullableWorld}
    (h₀ : (serialSql env other).Run (fun s a => Worded env s.toWorld a) (bootSql env other w₀.nonNull) l₀ s)
    (hstatus : s.connStatusMap.lookup conn ≠ none) (huser : s.connUserMap conn = some u)
    (hrow : (s.db.user.lookup u).isSome) {l : List (Option Activity)}
    (h : (serialSql env other).Run (fun s a => Worded env s.toWorld a ∧ Elsewhere conn a)
      (serveSql env other .heartbeat s) l s') :
    (Reaped conn u s (serveSql env other .heartbeat s) ∨ Reaped conn u s' (serveSql env other .heartbeat s')) ∧
    (serveSql env other .heartbeat s').connStatusMap.lookup conn = none ∧
    (serveSql env other .heartbeat s').connUserMap conn = none ∧
    ∀ (v : World) d, v.connStatusMap.lookup d = some true →
      (serveSql env other .heartbeat v.nonNull).connStatusMap.lookup d = some false ∧
      (serveSql env other .heartbeat v.nonNull).connUserMap d = v.connUserMap d := by
  obtain ⟨w, rfl, -⟩ := serial_of_only_worded h₀
  rw [serveSql_nonNull (worded_heartbeat w)] at h
  obtain ⟨w', rfl, hrun⟩ := @serial_of_worded env other (fun _ a => Elsewhere conn a) _ _ _ h
  obtain ⟨hreaped, hgone⟩ := reaps_of_serial hstatus huser hrow hrun
  simp only [serveSql_nonNull (worded_heartbeat _)]
  refine ⟨?_, hgone.1, hgone.2, fun v d hflag => heartbeat_of_flagged hflag⟩
  rcases hreaped with hout | ⟨hstatus', huser', hout⟩
  · exact .inl ⟨hout, rfl, hstatus, huser⟩
  · exact .inr ⟨hout, rfl, hstatus', huser'⟩

end Reap

/-- Bob is silent while ann creates a group. -/
theorem heartbeat_reaps_bob :
    ∃ s s', (serialSql .still .overrun).Run (fun s a => Worded .still s.toWorld a)
        (bootSql .still .overrun (World.init annAndBob).nonNull)
        [some (logsIn 1 "ann" "a"), some (logsIn 2 "bob" "b")] s ∧
      (serialSql .still .overrun).Run (fun s a => Worded .still s.toWorld a ∧ Elsewhere 2 a)
        (serveSql .still .overrun .heartbeat s) [some (.connStatus 1 true), some (creates 1 "cats")] s' ∧
      (Reaped 2 4 s (serveSql .still .overrun .heartbeat s) ∨ Reaped 2 4 s' (serveSql .still .overrun .heartbeat s')) ∧
      (serveSql .still .overrun .heartbeat s').connStatusMap.lookup 2 = none ∧
      (serveSql .still .overrun .heartbeat s').connUserMap 2 = none ∧
      ∀ (v : World) d, v.connStatusMap.lookup d = some true →
        (serveSql .still .overrun .heartbeat v.nonNull).connStatusMap.lookup d = some false ∧
        (serveSql .still .overrun .heartbeat v.nonNull).connUserMap d = v.connUserMap d := by
  obtain ⟨w, hrun₀, hstatus, huser, hrow, w', hrun⟩ : ∃ w,
      (serial .still).Run (fun w a => Worded .still w a ∧ True) (boot .still (World.init annAndBob))
        [some (logsIn 1 "ann" "a"), some (logsIn 2 "bob" "b")] w ∧
      w.connStatusMap.lookup 2 ≠ none ∧ w.connUserMap 2 = some 4 ∧ (w.db.user.lookup 4).isSome ∧
      ∃ w', (serial .still).Run (fun w a => Worded .still w a ∧ Elsewhere 2 a) (serve .still .heartbeat w)
        [some (.connStatus 1 true), some (creates 1 "cats")] w' :=
    ⟨_, .cons ⟨by decide, trivial⟩ rfl (.cons ⟨by decide, trivial⟩ rfl (.nil _)), by decide, rfl, rfl,
      _, .cons ⟨by decide, _, 1, rfl, rfl, by decide⟩ rfl
        (.cons ⟨by decide, _, 1, rfl, rfl, by decide⟩ rfl (.nil _))⟩
  have hsql₀ : (serialSql .still .overrun).Run _ _ _ _ := serialSql_of_boot hrun₀
  have hsql : (serialSql .still .overrun).Run _ _ _ _ := serialSql_of_serial hrun
  rw [← serveSql_nonNull (worded_heartbeat w)] at hsql
  have hbefore := hsql₀.mono fun _ _ hok => hok.1
  exact ⟨_, _, hbefore, hsql, heartbeat_reaps hbefore hstatus huser hrow hsql⟩

/-- What MySQL does on REG_MSG with the name `bob` and the password
`p','offline')on/**/duplicate/**/key/**/update/**/state=nullif('offline`: the state of bob, user 4, is `NULL`. -/
def nullsBob : Other := fun c s =>
  match c with
  | .insertUser _ _ _ => (.ok (some 4), { s with stateNull := Function.update s.stateNull 4 true })
  | _ => Other.overrun _ s

/-- Bob is silent while somebody else sends it: he is dropped, and his row does not say `offline`. -/
theorem null_state_stays :
    ∃ s s', (serialSql .still nullsBob).exec (bootSql .still nullsBob (World.init annAndBob).nonNull)
        [some (logsIn 2 "bob" "b")] = some s ∧
      s.connStatusMap.lookup 2 ≠ none ∧ s.connUserMap 2 = some 4 ∧ (s.db.user.lookup 4).isSome ∧
      (serialSql .still nullsBob).Run (fun _ a => Elsewhere 2 a) (serveSql .still nullsBob .heartbeat s)
        [some (registers 1 "bob" "p','offline')on/**/duplicate/**/key/**/update/**/state=nullif('offline")] s' ∧
      (serveSql .still nullsBob .heartbeat s').connUserMap 2 = none ∧
      (serveSql .still nullsBob .heartbeat s').stateNull 4 = true ∧
      ¬ (Reaped 2 4 s (serveSql .still nullsBob .heartbeat s) ∨
        Reaped 2 4 s' (serveSql .still nullsBob .heartbeat s')) := by
  refine ⟨_, _, rfl, by decide, rfl, rfl, .cons ⟨_, 1, rfl, rfl, by decide⟩ rfl (.nil _), rfl, rfl, ?_⟩
  rintro (h | h)
  · cases h.connUser
  · cases h.notNull

end Chatroom.Service
