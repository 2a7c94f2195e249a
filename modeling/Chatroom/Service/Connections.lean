import Chatroom.Service.Attribution

/-!
# Who writes a connection into the maps

`m_userConnMap`, `m_connUserMap` and `m_connStatusMap` seen from one connection: what a command changes of it, and
which activities call such commands. Only the handlers of the connection's own messages and its own event loop enter
it; the heartbeat erases it, and inserts a 0 before.
-/

namespace Chatroom.Service

open Lib

/-! ## One command -/

section Exec

variable {env : Environment} {c : Cmd} {w : World} {conn : Conn}

theorem userConn_exec {u : ℤ} (h : (exec env c w).2.userConnMap u = some conn) :
    c = .setUserConn u conn ∨ (w.userConnMap u = some conn ∧ c ≠ .eraseUserConn u) := by
  cases c <;> first | exact .inr ⟨h, by simp⟩ | skip
  case setUserConn v d =>
    by_cases hv : u = v
    · subst hv
      exact .inl (by simp_all [exec])
    · exact .inr ⟨by simpa [exec, hv] using h, by simp⟩
  case eraseUserConn v =>
    by_cases hv : u = v
    · subst hv
      simp [exec] at h
    · exact .inr ⟨by simpa [exec, hv] using h, fun heq => hv (Cmd.eraseUserConn.inj heq).symm⟩

/-- The user of the connection was just entered, or there was none and the 0 is inserted, or he is the old one. -/
theorem connUser_exec {u : ℤ} (h : (exec env c w).2.connUserMap conn = some u) :
    c = .setConnUser conn u ∨ (c = .connUser conn ∧ w.connUserMap conn = none) ∨
      (w.connUserMap conn = some u ∧ c ≠ .eraseConnUser conn) := by
  cases c <;> first | exact .inr (.inr ⟨h, by simp⟩) | skip
  case connUser d =>
    by_cases hd : conn = d
    · subst hd
      cases hw : w.connUserMap conn with
      | none => exact .inr (.inl ⟨rfl, rfl⟩)
      | some v => exact .inr (.inr ⟨by simpa [exec, hw] using h, by simp⟩)
    · exact .inr (.inr ⟨by simpa [exec, hd] using h, by simp⟩)
  case setConnUser d v =>
    by_cases hd : conn = d
    · subst hd
      exact .inl (by simp_all [exec])
    · exact .inr (.inr ⟨by simpa [exec, hd] using h, by simp⟩)
  case eraseConnUser d =>
    by_cases hd : conn = d
    · subst hd
      simp [exec] at h
    · exact .inr (.inr ⟨by simpa [exec, hd] using h, fun heq => hd (Cmd.eraseConnUser.inj heq).symm⟩)

/-- The user of the connection stays until his entry is erased or another is entered. -/
theorem connUser_exec_of_some {u : ℤ} (h : w.connUserMap conn = some u) :
    (exec env c w).2.connUserMap conn = some u ∨ c = .eraseConnUser conn ∨ ∃ v, v ≠ u ∧ c = .setConnUser conn v := by
  cases c <;> first | exact .inl h | skip
  case connUser d =>
    by_cases hd : conn = d
    · subst hd
      exact .inl (by simp [exec, h])
    · exact .inl (by simpa [exec, hd] using h)
  case setConnUser d v =>
    by_cases hd : conn = d
    · subst hd
      by_cases hv : v = u
      · subst hv
        exact .inl (by simp [exec])
      · exact .inr (.inr ⟨v, hv, rfl⟩)
    · exact .inl (by simpa [exec, hd] using h)
  case eraseConnUser d =>
    by_cases hd : conn = d
    · subst hd
      exact .inr (.inl rfl)
    · exact .inl (by simpa [exec, hd] using h)

/-- A status that was not just entered was there before, and is `false` after the sweep. -/
theorem connStatus_exec {b : Bool} (h : (exec env c w).2.connStatusMap.lookup conn = some b) :
    c = .setConnStatus conn b ∨ (c = .sweepConnStatus ∧ b = false ∧ w.connStatusMap.lookup conn ≠ none) ∨
      (w.connStatusMap.lookup conn = some b ∧ c ≠ .sweepConnStatus ∧ c ≠ .eraseConnStatus conn) := by
  cases c <;> first | exact .inr (.inr ⟨h, by simp, by simp⟩) | skip
  case setConnStatus d b' =>
    rw [exec, Table.lookup_insert'] at h
    split at h
    case isTrue hd =>
      obtain rfl := Option.some.inj h
      exact .inl (by rw [hd])
    case isFalse => exact .inr (.inr ⟨h, by simp, by simp⟩)
  case eraseConnStatus d =>
    by_cases hd : conn = d
    · subst hd
      simp [exec] at h
    · refine .inr (.inr ⟨?_, by simp, fun heq => hd (Cmd.eraseConnStatus.inj heq).symm⟩)
      rw [exec, AList.lookup_erase_ne hd] at h
      exact h
  case sweepConnStatus =>
    rw [exec, Table.lookup_mapRows] at h
    obtain ⟨b', hb', rfl⟩ := Option.map_eq_some_iff.1 h
    exact .inr (.inl ⟨rfl, rfl, by simp [hb']⟩)

/-- A status stays until it is erased. -/
theorem connStatus_exec_of_ne_none (h : w.connStatusMap.lookup conn ≠ none) :
    (exec env c w).2.connStatusMap.lookup conn ≠ none ∨ c = .eraseConnStatus conn := by
  cases c <;> first | exact .inl h | skip
  case setConnStatus d b =>
    rw [exec, Table.lookup_insert']
    split
    · exact .inl (by simp)
    · exact .inl h
  case eraseConnStatus d =>
    by_cases hd : conn = d
    · subst hd
      exact .inr rfl
    · rw [exec, AList.lookup_erase_ne hd]
      exact .inl h
  case sweepConnStatus =>
    rw [exec, Table.lookup_mapRows]
    exact .inl fun hnone => h (Option.map_eq_none_iff.1 hnone)

end Exec

/-! ## The activities -/

/-- The connection whose message, status or end an activity is about. -/
def Activity.conn : Activity → Option Conn
  | .request conn _ _ _ => some conn
  | .connStatus conn _ => some conn
  | .removeConnStatus conn => some conn
  | .down conn => some conn
  | .heartbeat => none

/-- A user is entered for a connection by the handlers of its messages only, a status in its own name, and both are
erased in its own name or by the heartbeat, which alone sweeps. -/
def Cmd.OfConn (a : Activity) : Cmd → Prop
  | .setUserConn _ d | .setConnUser d _ => ∃ msgid js time, a = .request d msgid js time
  | .setConnStatus d _ => a.conn = some d
  | .connUser d | .eraseConnUser d | .eraseConnStatus d => a.conn = some d ∨ a = .heartbeat
  | .sweepConnStatus => a = .heartbeat
  | _ => True

/-- What a program goes on to do: when it has entered a user, to enter the status, and when it has been told who was
silent, to erase their status. -/
def Cmd.Entails : (c : Cmd) → Ans c → Cmd → Prop
  | .setConnUser conn _, _, d => d = .setConnStatus conn true
  | .sweepConnStatus, conns, d => ∃ conn ∈ conns, d = .eraseConnStatus conn
  | _, _, _ => False

theorem not_entails {c : Cmd} (huser : ∀ conn u, c ≠ .setConnUser conn u) (hsweep : c ≠ .sweepConnStatus) (a : Ans c)
    (d : Cmd) : ¬ c.Entails a d := by
  cases c <;> first | exact id | skip
  case setConnUser conn u => exact absurd rfl (huser conn u)
  case sweepConnStatus => exact absurd rfl hsweep

section Login

variable (conn : Conn) (js : Json) (time : String)

theorem ofConn_login : (login conn js time).Safe (Cmd.OfConn (.request conn EnMsgType.loginMsg.code js time))
    (fun _ _ => True) fun _ => True := by
  refine (ofLogin_login conn js time).mono (fun c hc => ?_) (fun _ _ h => h) fun _ h => h
  cases hc with
  | setUserConn | setConnUser => exact ⟨_, _, _, rfl⟩
  | setConnStatus => rfl
  | queryUserByName | updateState | queryFriends | findUserConn | send => trivial

theorem follows_login : (login conn js time).Follows Cmd.Entails := by
  have hother : ∀ c : Cmd, (∀ d u, c ≠ .setConnUser d u) → c ≠ .sweepConnStatus → ∀ a d, ¬ c.Entails a d :=
    fun _ => not_entails
  have hsend : ∀ fields, (send conn fields).Safe (fun c => ∀ a d, ¬ c.Entails a d) (fun _ _ => True) fun _ => True :=
    fun fields => ⟨hother _ nofun nofun, fun _ _ => trivial⟩
  refine Program.follows_bind (safe_read.2 fun name _ => Program.follows_bind (safe_read.2 fun pwd _ => ?_))
  refine Program.follows_bind ⟨hother _ nofun nofun, fun user _ => ?_⟩
  rw [Program.safe_ret]
  by_cases haccept : user.name = name ∧ user.password = pwd
  · rw [if_pos haccept]
    by_cases honline : user.state = "online"
    · rw [if_pos honline]
      exact Program.follows_of_safe (hsend _)
    · rw [if_neg honline]
      refine Program.follows_bind ⟨hother _ nofun nofun, fun _ _ _ => ⟨?_, Program.follows_of_safe ?_⟩⟩
      · rintro _ rfl
        exact .inl rfl
      · refine ⟨hother _ nofun nofun, fun _ _ => ⟨hother _ nofun nofun, fun _ _ => ?_⟩⟩
        refine ⟨hother _ nofun nofun, fun _ _ => ?_⟩
        refine ⟨hother _ nofun nofun, fun userVec _ => Program.safe_forM (fun _ _ => ?_) trivial⟩
        exact safe_sendToUser_of (hother _ nofun nofun) (fun _ => hother _ nofun nofun) trivial
  · rw [if_neg haccept]
    exact Program.follows_of_safe (hsend _)

end Login

/-- What a confined handler may call concerns its own connection. -/
theorem Cmd.Allowed.ofConn {conn : Conn} {areas : List Area} {c : Cmd} (h : c.Allowed conn Set.univ areas)
    (hstatus : Area.status ∉ areas) (msgid : ℤ) (js : Json) (time : String) :
    c.OfConn (.request conn msgid js time) := by
  cases c <;> first | trivial | skip
  case connUser d => exact .inl (congrArg some (h.own d rfl).symm)
  case setConnUser d u => exact absurd rfl (h.session u d).2.1
  case eraseConnUser d => exact absurd rfl (h.session 0 d).2.2
  case setUserConn u d => exact ⟨msgid, js, time, by rw [(h.session u d).1 rfl]⟩
  case setConnStatus d b => exact absurd (h.area .status rfl) hstatus
  case eraseConnStatus d => exact absurd (h.area .status rfl) hstatus
  case sweepConnStatus => exact absurd (h.area .status rfl) hstatus

theorem ofConn_dropConn (conn : Conn) :
    (dropConn conn).Safe (Cmd.OfConn .heartbeat) (fun _ _ => True) fun _ => True := by
  refine safe_dropConn_of fun c hc => ?_
  cases hc <;> first | trivial | exact .inr rfl

/-- `dropConn` enters nobody, checks nobody and closes its own connection. -/
theorem safe_dropConn (d : Conn) :
    (dropConn d).Safe (fun c => (∀ conn u, c ≠ .setConnUser conn u) ∧ c ≠ .sweepConnStatus ∧
      ∀ e, c = .forceClose e → e = d) (fun _ _ => True) fun _ => True := by
  refine safe_dropConn_of fun c hc => ⟨?_, ?_, ?_⟩
  · rintro conn u rfl
    cases hc
  · rintro rfl
    cases hc
  · rintro e rfl
    cases hc
    rfl

theorem ofConn_clientClose (conn : Conn) {post : Unit → Prop} (hpost : post ()) :
    (clientClose conn).Safe (Cmd.OfConn (.down conn)) (fun _ _ => True) post := by
  refine ⟨trivial, fun it _ => ?_⟩
  cases it with
  | none => exact ⟨.inl rfl, fun _ _ => hpost⟩
  | some userId =>
    refine ⟨.inl rfl, fun _ _ => ⟨.inl rfl, fun _ _ => ⟨trivial, fun _ _ => ⟨.inl rfl, fun _ _ => ?_⟩⟩⟩⟩
    show Program.Safe _ _ (if userId ≠ -1 then setOffline userId else pure ()) _
    rw [Program.safe_ite]
    exact ⟨fun _ => ⟨trivial, fun _ _ => ⟨trivial, fun _ _ => hpost⟩⟩, fun _ => hpost⟩

/-- **Whose entries an activity touches.** -/
theorem Activity.ofConn_body (a : Activity) : a.body.Safe (Cmd.OfConn a) (fun _ _ => True) fun _ => True := by
  cases a with
  | request conn msgid js time =>
    by_cases hlogin : msgid = EnMsgType.loginMsg.code
    · subst hlogin
      exact ofConn_login conn js time
    · have hstatus := status_not_mem_areasOf hlogin
      exact (confined_getHandler hlogin).safe (fun c hc => hc.ofConn hstatus msgid js time) js time
  | connStatus conn status => exact ⟨rfl, fun _ _ => trivial⟩
  | removeConnStatus conn => exact ⟨.inl rfl, fun _ _ => trivial⟩
  | down conn =>
    exact Program.safe_bind.2 (ofConn_clientClose conn ⟨trivial, fun _ _ => trivial⟩)
  | heartbeat => exact ⟨rfl, fun conns _ => Program.safe_forM (fun conn _ => ofConn_dropConn conn) trivial⟩

/-! ## What the activities are bound to do -/

theorem total_sendToUser (userid : ℤ) (fields : List (String × Json)) : (sendToUser userid fields).Total := by
  intro it
  cases it with
  | none => trivial
  | some d => exact fun _ => trivial

theorem total_dropConn (conn : Conn) : (dropConn conn).Total :=
  fun id => (total_sendToUser id _).bind fun _ _ _ _ _ _ _ => trivial

/-- Whoever was silent since the last check is dropped. -/
theorem willCall_dropConn {c : Cmd} {conn : Conn} {conns : List Conn} (hconn : conn ∈ conns)
    (hc : c = .eraseConnUser conn ∨ c = .eraseConnStatus conn) : (forM conns dropConn : Task Unit).WillCall c := by
  refine Program.willCall_forM total_dropConn hconn (.inr fun id => ?_)
  refine (total_sendToUser id _).willCall_bind fun _ => ?_
  rcases hc with rfl | rfl
  · exact .inr fun _ => .inr fun _ => .inl rfl
  · exact .inr fun _ => .inr fun _ => .inr fun _ => .inl rfl

/-- A handler goes on to enter the status of whom it entered, and a check to drop who was silent. -/
theorem Activity.follows_body (a : Activity) : a.body.Follows Cmd.Entails := by
  by_cases hrequest : ∃ conn msgid js time, a = .request conn msgid js time
  · obtain ⟨conn, msgid, js, time, rfl⟩ := hrequest
    by_cases hlogin : msgid = EnMsgType.loginMsg.code
    · subst hlogin
      exact follows_login conn js time
    · refine Program.follows_of_safe ((confined_getHandler hlogin).safe (fun c hc => ?_) js time)
      refine not_entails (fun conn u => (hc.session u conn).2.1) ?_
      rintro rfl
      exact absurd (hc.area .status rfl) (status_not_mem_areasOf hlogin)
  · have huser : ∀ c : Cmd, c.OfConn a → ∀ conn u, c ≠ .setConnUser conn u := by
      rintro c hc conn u rfl
      exact hrequest ⟨conn, hc⟩
    by_cases hcheck : a = .heartbeat
    · subst hcheck
      refine fun conns => ⟨?_, Program.follows_of_safe ?_⟩
      · rintro _ ⟨conn, hconn, rfl⟩
        exact willCall_dropConn hconn (.inr rfl)
      · refine Program.safe_forM (fun conn _ => ?_) trivial
        exact (safe_dropConn conn).mono (fun c hc => not_entails hc.1 hc.2.1) (fun _ _ _ => trivial) fun _ h => h
    · refine Program.follows_of_safe (a.ofConn_body.mono (fun c hc => ?_) (fun _ _ _ => trivial) fun _ h => h)
      refine not_entails (huser c hc) ?_
      rintro rfl
      exact hcheck hc

end Chatroom.Service
