import Mathlib.Data.Set.Basic
import Chatroom.Service.Handlers

/-!
# What the handlers touch, and in whose name

Every command belongs to an area of the state that it can change, and some commands write a row or cache a
message that names its author. `Confined areas h` says of a handler that its commands stay in `areas` and
act in the name of whoever `m_connUserMap` has for the connection: one lemma for each handler.
-/

namespace Chatroom.Service

open Lib

inductive Area where
  | session | status | users | friends | groups | files | cache
  deriving DecidableEq

/-- What a command can change, apart from the 0 that `m_connUserMap[conn]` inserts. -/
@[simp] def Cmd.area : Cmd → Option Area
  | .setConnUser _ _ | .eraseConnUser _ | .setUserConn _ _ | .eraseUserConn _ => some .session
  | .setConnStatus _ _ | .eraseConnStatus _ | .sweepConnStatus => some .status
  | .insertUser _ _ _ | .updateState _ _ | .resetState => some .users
  | .insertFriend _ _ _ | .modifyFriend _ _ _ | .deleteEach _ _ => some .friends
  | .groupUserList _ | .setGroupUserList _ _ | .pushGroupUser _ _ | .removeGroupUser _ _
  | .removeFoundGroupUser _ _ | .eraseGroupUserList _ | .createGroup _ | .addGroup _ _ _
  | .modifyGroupRole _ _ _ | .deleteGroupMember _ _ | .deleteAllGroup _ | .deleteGroupUsers _ => some .groups
  | .insertFile _ _ _ => some .files
  | .rpush _ _ => some .cache
  | _ => none

/-- The users whom a command names as the authors of what it writes: an inserted row has one, a friendship
that is changed or removed has two ends. -/
@[simp] def Cmd.authors : Cmd → Option (List ℤ)
  | .insertFriend userid _ _ => some [userid]
  | .modifyFriend userid friendid _ => some [userid, friendid]
  | .deleteEach userid friendid => some [userid, friendid]
  | .addGroup userid _ _ => some [userid]
  | .rpush .privateChat record => some [record.id₁]
  | .rpush .groupChat record => some [record.id₂]
  | .setUserConn userid _ => some [userid]
  | .eraseUserConn userid => some [userid]
  | _ => none

/-- The command is in one of the areas, asks for the user of `conn` only, changes no session but that of
`conn`, and writes in the name of a user of `U`. -/
structure Cmd.Allowed (conn : Conn) (U : Set ℤ) (areas : List Area) (c : Cmd) : Prop where
  area : ∀ a, c.area = some a → a ∈ areas
  authors : ∀ us, c.authors = some us → ∃ u ∈ us, u ∈ U
  own : ∀ d, c = .connUser d → d = conn
  session : ∀ u d, (c = .setUserConn u d → d = conn) ∧ c ≠ .setConnUser d u ∧ c ≠ .eraseConnUser d

/-- `m_connUserMap` has one of `U` for `conn`. -/
@[simp] def Answers (conn : Conn) (U : Set ℤ) : (c : Cmd) → Ans c → Prop
  | .connUser d, userid => d = conn → userid ∈ U
  | _, _ => True

theorem answers_univ (conn : Conn) (c : Cmd) (a : Ans c) : Answers conn Set.univ c a := by
  cases c <;> first | trivial | exact fun _ => Set.mem_univ _

/-- The handler stays in the areas, and acts for the user of its connection. -/
def Confined (areas : List Area) (h : Handler) : Prop :=
  ∀ conn js time U, (h conn js time).Safe (Cmd.Allowed conn U areas) (Answers conn U) fun _ => True

/-- A confined handler calls what it may call, whatever it is answered. -/
theorem Confined.safe {areas : List Area} {h : Handler} (hh : Confined areas h) {P : Cmd → Prop} {conn : Conn}
    (hP : ∀ c : Cmd, c.Allowed conn Set.univ areas → P c) (js : Json) (time : String) :
    (h conn js time).Safe P (fun _ _ => True) fun _ => True :=
  (hh conn js time Set.univ).mono hP (fun c a _ => answers_univ conn c a) fun _ _ => trivial

/-! ## The functions that handlers are made of -/

section

variable {conn : Conn} {U : Set ℤ} {areas : List Area}

@[simp] theorem allowed_iff {c : Cmd} : c.Allowed conn U areas ↔
    (∀ a, c.area = some a → a ∈ areas) ∧ (∀ us, c.authors = some us → ∃ u ∈ us, u ∈ U) ∧
      (∀ d, c = .connUser d → d = conn) ∧
      ∀ u d, (c = .setUserConn u d → d = conn) ∧ c ≠ .setConnUser d u ∧ c ≠ .eraseConnUser d :=
  ⟨fun h => ⟨h.1, h.2, h.3, h.4⟩, fun h => ⟨h.1, h.2.1, h.2.2.1, h.2.2.2⟩⟩

@[simp] theorem safe_read {P : Cmd → Prop} {Q : (c : Cmd) → Ans c → Prop} {α : Type} {x : Except Exn α}
    {post : α → Prop} : (read x).Safe P Q post ↔ ∀ a, x = .ok a → post a := by
  rw [read, Program.safe_ofExcept]
  cases x <;> simp [Except.mapError]

@[simp] theorem safe_connUser {post : ℤ → Prop} :
    (connUser conn).Safe (Cmd.Allowed conn U areas) (Answers conn U) post ↔ ∀ u ∈ U, post u := by
  simp [connUser]

@[simp] theorem safe_send {d : Conn} {fields : List (String × Json)} {post : Unit → Prop} :
    (send d fields).Safe (Cmd.Allowed conn U areas) (Answers conn U) post ↔ post () := by
  have hcmd : (Cmd.send d (.obj fields)).Allowed conn U areas := by simp
  exact ⟨fun h => h.2 () trivial, fun h => ⟨hcmd, fun _ _ => h⟩⟩

@[simp] theorem safe_sendMsg {d : Conn} {m : EnMsgType} {post : Unit → Prop} :
    (sendMsg d m).Safe (Cmd.Allowed conn U areas) (Answers conn U) post ↔ post () := safe_send

@[simp] theorem safe_withConn {userid : ℤ} {found : Conn → Task Unit} {post : Unit → Prop} :
    (withConn userid found).Safe (Cmd.Allowed conn U areas) (Answers conn U) post ↔
      (∀ d, (found d).Safe (Cmd.Allowed conn U areas) (Answers conn U) post) ∧ post () := by
  have hcmd : (Cmd.findUserConn userid).Allowed conn U areas := by simp
  constructor
  · intro h
    exact ⟨fun d => h.2 (some d) trivial, h.2 none trivial⟩
  · rintro ⟨hsome, hnone⟩
    refine ⟨hcmd, fun it _ => ?_⟩
    cases it with
    | none => exact hnone
    | some d => exact hsome d

/-- Whatever allows to look the user up and to send. -/
theorem safe_sendToUser_of {P : Cmd → Prop} {Q : (c : Cmd) → Ans c → Prop} {userid : ℤ}
    {fields : List (String × Json)} {post : Unit → Prop} (hfind : P (.findUserConn userid))
    (hsend : ∀ d, P (.send d (.obj fields))) (hpost : post ()) : (sendToUser userid fields).Safe P Q post := by
  refine ⟨hfind, fun it _ => ?_⟩
  cases it with
  | none => exact hpost
  | some d => exact ⟨hsend d, fun _ _ => hpost⟩

@[simp] theorem safe_sendToUser {userid : ℤ} {fields : List (String × Json)} {post : Unit → Prop} :
    (sendToUser userid fields).Safe (Cmd.Allowed conn U areas) (Answers conn U) post ↔ post () := by
  simp [sendToUser]

@[simp] theorem safe_hasRole {roles : List Role} {userid groupid : ℤ} {post : Bool → Prop} :
    (hasRole roles userid groupid).Safe (Cmd.Allowed conn U areas) (Answers conn U) post ↔
      ∀ role : Option Role, post (roles.any fun r => role = some r) := by
  simp [hasRole]

/-- A loop that selects users or sends to them. -/
theorem safe_forM {α : Type} {l : List α} {body : α → Task Unit}
    (h : ∀ a ∈ l, (body a).Safe (Cmd.Allowed conn U areas) (Answers conn U) fun _ => True) :
    (forM l body).Safe (Cmd.Allowed conn U areas) (Answers conn U) fun _ => True :=
  Program.safe_forM h trivial

theorem safe_selectUsers {vec : List ℤ} {post : List (List User) → Prop} (h : ∀ users, post users) :
    (vec.mapM fun id => perform (.selectUser id)).Safe (Cmd.Allowed conn U areas) (Answers conn U) post :=
  Program.safe_mapM (fun id _ => by simp) h

end

/-! ## The handlers -/

theorem confined_reg : Confined [.users] reg := by
  intro conn js time U
  simp only [reg, Program.safe_bind, safe_read]
  intro name _ pwd _
  refine ⟨by simp, fun id _ => ?_⟩
  cases id <;> simp

theorem confined_handleDisplayAllUserList : Confined [] handleDisplayAllUserList := by
  intro conn js time U
  simp [handleDisplayAllUserList]

theorem confined_handleAddFriend : Confined [.friends] handleAddFriend := by
  intro conn js time U
  simp only [handleAddFriend, Program.safe_bind, safe_read, safe_connUser]
  intro addName _ _ _
  refine ⟨by simp, fun addUser _ fromId hfrom => ?_⟩
  simp +contextual [hfrom]

theorem confined_handleDeleteFriend : Confined [.friends] handleDeleteFriend := by
  intro conn js time U
  simp +contextual [handleDeleteFriend]

theorem confined_handleBlockFriend : Confined [.friends] handleBlockFriend := by
  intro conn js time U
  simp +contextual [handleBlockFriend]

theorem confined_handleUnBlockFriend : Confined [.friends] handleUnBlockFriend := by
  intro conn js time U
  simp +contextual [handleUnBlockFriend]

theorem confined_handleCheckBlock : Confined [] handleCheckBlock := by
  intro conn js time U
  simp [handleCheckBlock]

theorem confined_handleBlockFriendList : Confined [] handleBlockFriendList := by
  intro conn js time U
  simp only [handleBlockFriendList, blockQuery, Program.safe_bind, safe_connUser]
  intro userId _
  refine ⟨by simp, fun vec _ => safe_selectUsers fun users => ?_⟩
  simp

theorem confined_handlePrivateChat : Confined [.cache] handlePrivateChat := by
  intro conn js time U
  simp +contextual [handlePrivateChat]

theorem confined_handleDisplayFriendList : Confined [] handleDisplayFriendList := by
  intro conn js time U
  simp [handleDisplayFriendList]

theorem confined_handleFriendRequestList : Confined [] handleFriendRequestList := by
  intro conn js time U
  simp only [handleFriendRequestList, requestQuery, Program.safe_bind, safe_connUser]
  intro id _
  refine ⟨by simp, fun vec _ => safe_selectUsers fun users => ?_⟩
  simp

theorem confined_handleCreateGroup : Confined [.groups] handleCreateGroup := by
  intro conn js time U
  simp only [handleCreateGroup, Program.safe_bind, safe_read, safe_connUser]
  intro groupName _ userid huserid
  refine ⟨by simp, fun group _ => ?_⟩
  cases group <;> simp [huserid]

theorem confined_handleDisplayAllGroupList : Confined [] handleDisplayAllGroupList := by
  intro conn js time U
  simp [handleDisplayAllGroupList]

theorem confined_requestAddGroup : Confined [.groups] requestAddGroup := by
  intro conn js time U
  have hnotify : ∀ groupid userid, (responseToMasterOrManager groupid userid).Safe
      (Cmd.Allowed conn U [.groups]) (Answers conn U) fun _ => True := by
    intro groupid userid
    rw [responseToMasterOrManager, Program.safe_bind]
    exact ⟨by simp, fun userVec _ => safe_forM fun user _ => by simp⟩
  simp +contextual [requestAddGroup, ifMasterOrManagerORnormal, hnotify]

theorem confined_handleGroupRequestList : Confined [] handleGroupRequestList := by
  intro conn js time U
  simp [handleGroupRequestList, ifMasterOrManager]

theorem confined_handleAddSomeoneToGroup : Confined [.groups] handleAddSomeoneToGroup := by
  intro conn js time U
  simp [handleAddSomeoneToGroup, ifMasterOrManager]

theorem confined_handleQuitGroup : Confined [.groups] handleQuitGroup := by
  intro conn js time U
  simp [handleQuitGroup, ifManagerOrNormal]

theorem confined_handleShowOwnGroupList : Confined [] handleShowOwnGroupList := by
  intro conn js time U
  simp [handleShowOwnGroupList]

theorem confined_handleShowGroupMemberList : Confined [] handleShowGroupMemberList := by
  intro conn js time U
  simp [handleShowGroupMemberList, ifMasterOrManagerORnormal]

theorem confined_handleDisplaySetManagerMemberList : Confined [] handleDisplaySetManagerMemberList := by
  intro conn js time U
  simp [handleDisplaySetManagerMemberList, ifMaster]

theorem confined_handleSetManager : Confined [.groups] handleSetManager := by
  intro conn js time U
  simp [handleSetManager]

theorem confined_handleCancelManager : Confined [.groups] handleCancelManager := by
  intro conn js time U
  simp [handleCancelManager, ifManager]

theorem confined_handleKickSomeoneInGroup : Confined [.groups] handleKickSomeoneInGroup := by
  intro conn js time U
  simp [handleKickSomeoneInGroup, kick]

theorem confined_handleCheckIfGroupMember : Confined [] handleCheckIfGroupMember := by
  intro conn js time U
  simp [handleCheckIfGroupMember]

theorem confined_handleGroupChat : Confined [.groups, .cache] handleGroupChat := by
  intro conn js time U
  simp only [handleGroupChat, Program.safe_bind, safe_read, safe_connUser]
  intro groupid _ msg _ fromName _
  refine ⟨by simp, fun userVec _ sender hsender => ⟨by simp, fun timestamp _ => ⟨by simp [hsender], ?_⟩⟩⟩
  exact fun _ _ => safe_forM fun userid _ => by simp

theorem confined_handleMasterDeleteGroup : Confined [.groups] handleMasterDeleteGroup := by
  intro conn js time U
  simp [handleMasterDeleteGroup, ifMaster]

theorem confined_handleSendFileDataBase : Confined [.files] handleSendFileDataBase := by
  intro conn js time U
  simp [handleSendFileDataBase]

theorem confined_handleDisplayFileList : Confined [] handleDisplayFileList := by
  intro conn js time U
  simp [handleDisplayFileList]

theorem confined_handleReceiveFile : Confined [.session] handleReceiveFile := by
  intro conn js time U
  simp only [handleReceiveFile, Program.safe_bind, safe_read]
  intro filename _
  refine ⟨by simp, fun opened _ => ?_⟩
  rw [Program.safe_ret, Program.safe_ite]
  refine ⟨fun _ => by simp, fun _ => ?_⟩
  rw [Program.safe_bind, Program.safe_perform]
  refine ⟨by simp, fun size _ => ?_⟩
  cases size with
  | none => simp
  | some fileSize => simp +contextual

theorem confined_handleDisplayPrivateHistory : Confined [] handleDisplayPrivateHistory := by
  intro conn js time U
  simp [handleDisplayPrivateHistory]

theorem confined_handleDisplayGroupHistory : Confined [] handleDisplayGroupHistory := by
  intro conn js time U
  simp [handleDisplayGroupHistory]

/-- The areas of the handler for a message id; none for an id without handler. -/
def areas : EnMsgType → List Area
  | .regMsg => [.users]
  | .loginMsg => [.session, .status, .users]
  | .addFriend | .deleteFriend | .blockFriend | .unblockFriend => [.friends]
  | .privateChat => [.cache]
  | .createGroup | .requestGroup | .addGroup | .quitGroup | .setManager | .cancelManager | .kickSomeone
  | .masterDeleteGroup => [.groups]
  | .groupChat => [.groups, .cache]
  | .sendFileDatabase => [.files]
  | .receiveFile => [.session]
  | _ => []

/-- **Every handler but `login` is confined to its areas and to the user of its connection.** -/
theorem confined_of_mem {m : EnMsgType} {h : Handler} (hmem : (m, h) ∈ handlersMap) (hlogin : m ≠ .loginMsg) :
    Confined (areas m) h := by
  simp only [handlersMap, List.mem_cons, List.not_mem_nil, or_false, Prod.mk.injEq] at hmem
  rcases hmem with ⟨rfl, rfl⟩ | ⟨rfl, rfl⟩ | ⟨rfl, rfl⟩ | ⟨rfl, rfl⟩ | ⟨rfl, rfl⟩ | ⟨rfl, rfl⟩ | ⟨rfl, rfl⟩ |
    ⟨rfl, rfl⟩ | ⟨rfl, rfl⟩ | ⟨rfl, rfl⟩ | ⟨rfl, rfl⟩ | ⟨rfl, rfl⟩ | ⟨rfl, rfl⟩ | ⟨rfl, rfl⟩ | ⟨rfl, rfl⟩ |
    ⟨rfl, rfl⟩ | ⟨rfl, rfl⟩ | ⟨rfl, rfl⟩ | ⟨rfl, rfl⟩ | ⟨rfl, rfl⟩ | ⟨rfl, rfl⟩ | ⟨rfl, rfl⟩ | ⟨rfl, rfl⟩ |
    ⟨rfl, rfl⟩ | ⟨rfl, rfl⟩ | ⟨rfl, rfl⟩ | ⟨rfl, rfl⟩ | ⟨rfl, rfl⟩ | ⟨rfl, rfl⟩ | ⟨rfl, rfl⟩ | ⟨rfl, rfl⟩ |
    ⟨rfl, rfl⟩
  · exact confined_reg
  · exact absurd rfl hlogin
  · exact confined_handleDisplayAllUserList
  · exact confined_handleAddFriend
  · exact confined_handleDeleteFriend
  · exact confined_handlePrivateChat
  · exact confined_handleDisplayFriendList
  · exact confined_handleFriendRequestList
  · exact confined_handleBlockFriend
  · exact confined_handleUnBlockFriend
  · exact confined_handleBlockFriendList
  · exact confined_handleCheckBlock
  · exact confined_handleCreateGroup
  · exact confined_handleDisplayAllGroupList
  · exact confined_requestAddGroup
  · exact confined_handleGroupRequestList
  · exact confined_handleAddSomeoneToGroup
  · exact confined_handleQuitGroup
  · exact confined_handleShowOwnGroupList
  · exact confined_handleShowGroupMemberList
  · exact confined_handleDisplaySetManagerMemberList
  · exact confined_handleSetManager
  · exact confined_handleCancelManager
  · exact confined_handleKickSomeoneInGroup
  · exact confined_handleCheckIfGroupMember
  · exact confined_handleGroupChat
  · exact confined_handleMasterDeleteGroup
  · exact confined_handleSendFileDataBase
  · exact confined_handleDisplayFileList
  · exact confined_handleReceiveFile
  · exact confined_handleDisplayPrivateHistory
  · exact confined_handleDisplayGroupHistory

def areasOf (msgid : ℤ) : List Area :=
  match handlersMap.find? fun h => h.1.code = msgid with
  | some h => areas h.1
  | none => []

theorem exists_of_mem_areasOf {a : Area} {msgid : ℤ} (h : a ∈ areasOf msgid) :
    ∃ m : EnMsgType, m.code = msgid ∧ a ∈ areas m := by
  unfold areasOf at h
  cases hfind : handlersMap.find? fun h => h.1.code = msgid with
  | none => simp [hfind] at h
  | some p =>
    rw [hfind] at h
    exact ⟨p.1, by simpa using List.find?_some hfind, h⟩

theorem users_not_mem_areasOf {msgid : ℤ} (hreg : msgid ≠ EnMsgType.regMsg.code)
    (hlogin : msgid ≠ EnMsgType.loginMsg.code) : Area.users ∉ areasOf msgid := by
  intro hmem
  obtain ⟨m, rfl, hm⟩ := exists_of_mem_areasOf hmem
  have hcases : m = .regMsg ∨ m = .loginMsg := by
    revert hm
    cases m <;> simp [areas]
  rcases hcases with rfl | rfl
  · exact hreg rfl
  · exact hlogin rfl

theorem session_not_mem_areasOf {msgid : ℤ} (hlogin : msgid ≠ EnMsgType.loginMsg.code)
    (hfile : msgid ≠ EnMsgType.receiveFile.code) : Area.session ∉ areasOf msgid := by
  intro hmem
  obtain ⟨m, rfl, hm⟩ := exists_of_mem_areasOf hmem
  have hcases : m = .loginMsg ∨ m = .receiveFile := by
    revert hm
    cases m <;> simp [areas]
  rcases hcases with rfl | rfl
  · exact hlogin rfl
  · exact hfile rfl

theorem status_not_mem_areasOf {msgid : ℤ} (hlogin : msgid ≠ EnMsgType.loginMsg.code) :
    Area.status ∉ areasOf msgid := by
  intro hmem
  obtain ⟨m, rfl, hm⟩ := exists_of_mem_areasOf hmem
  have hcases : m = .loginMsg := by
    revert hm
    cases m <;> simp [areas]
  exact hlogin (by rw [hcases])

theorem getHandler_login : getHandler EnMsgType.loginMsg.code = login := rfl

theorem confined_getHandler {msgid : ℤ} (hlogin : msgid ≠ EnMsgType.loginMsg.code) :
    Confined (areasOf msgid) (getHandler msgid) := by
  unfold areasOf getHandler
  cases hfind : handlersMap.find? fun h => h.1.code = msgid with
  | none => exact fun conn js time U => trivial
  | some h =>
    have hcode : h.1.code = msgid := by simpa using List.find?_some hfind
    have hne : h.1 ≠ .loginMsg := by
      intro heq
      rw [heq] at hcode
      exact hlogin hcode.symm
    exact confined_of_mem (List.mem_of_find?_eq_some hfind) hne

/-- The command stays in the areas, and does not look at `m_connStatusMap`. -/
structure Cmd.Within (areas : List Area) (c : Cmd) : Prop where
  area : ∀ a, c.area = some a → a ∈ areas
  noSweep : c ≠ .sweepConnStatus

/-- What `login` calls. -/
inductive Cmd.OfLogin (conn : Conn) : Cmd → Prop
  | queryUserByName (name : String) : OfLogin conn (.queryUserByName name)
  | setUserConn (userid : ℤ) : OfLogin conn (.setUserConn userid conn)
  | setConnUser (userid : ℤ) : OfLogin conn (.setConnUser conn userid)
  | setConnStatus : OfLogin conn (.setConnStatus conn true)
  | updateState (userid : ℤ) : OfLogin conn (.updateState userid .online)
  | queryFriends (userid : ℤ) : OfLogin conn (.queryFriends userid)
  | findUserConn (userid : ℤ) : OfLogin conn (.findUserConn userid)
  | send (d : Conn) (js : Json) : OfLogin conn (.send d js)

theorem ofLogin_login (conn : Conn) (js : Json) (time : String) :
    (login conn js time).Safe (Cmd.OfLogin conn) (fun _ _ => True) fun _ => True := by
  simp only [login, Program.safe_bind, safe_read, Program.safe_ite, Program.safe_perform]
  intro name _ pwd _
  have hsend : ∀ fields, (send conn fields).Safe (Cmd.OfLogin conn) (fun _ _ => True) fun _ => True :=
    fun fields => ⟨.send conn _, fun _ _ => trivial⟩
  refine ⟨.queryUserByName name, fun user _ => ⟨fun _ => ⟨fun _ => hsend _, fun _ => ?_⟩, fun _ => hsend _⟩⟩
  refine ⟨.setUserConn _, fun _ _ => ⟨.setConnUser _, fun _ _ => ⟨.setConnStatus, fun _ _ => ?_⟩⟩⟩
  refine ⟨.updateState _, fun _ _ => ⟨.send conn _, fun _ _ => ⟨.queryFriends _, fun userVec _ => ?_⟩⟩⟩
  exact Program.safe_forM (fun _ _ => safe_sendToUser_of (.findUserConn _) (fun d => .send d _) trivial) trivial

theorem within_login (conn : Conn) (js : Json) (time : String) :
    (login conn js time).Safe (Cmd.Within (areas .loginMsg)) (fun _ _ => True) fun _ => True := by
  refine (ofLogin_login conn js time).mono (fun c hc => ?_) (fun _ _ h => h) fun _ h => h
  cases hc <;> exact ⟨by simp [areas], by simp⟩

/-- **Every handler stays in its areas**, `login` included. -/
theorem within_getHandler (msgid : ℤ) (conn : Conn) (js : Json) (time : String) :
    (getHandler msgid conn js time).Safe (Cmd.Within (areasOf msgid)) (fun _ _ => True) fun _ => True := by
  by_cases hlogin : msgid = EnMsgType.loginMsg.code
  · rw [hlogin, getHandler_login]
    exact within_login conn js time
  · refine (confined_getHandler hlogin).safe (fun c hc => ⟨hc.area, ?_⟩) js time
    rintro rfl
    exact status_not_mem_areasOf hlogin (hc.area .status rfl)

/-! ## The heartbeat -/

/-- What `dropConn` calls. -/
inductive Cmd.OfDrop (conn : Conn) : Cmd → Prop
  | connUser : OfDrop conn (.connUser conn)
  | findUserConn (userid : ℤ) : OfDrop conn (.findUserConn userid)
  | send (d : Conn) (js : Json) : OfDrop conn (.send d js)
  | forceClose : OfDrop conn (.forceClose conn)
  | eraseUserConn (userid : ℤ) : OfDrop conn (.eraseUserConn userid)
  | eraseConnUser : OfDrop conn (.eraseConnUser conn)
  | eraseConnStatus : OfDrop conn (.eraseConnStatus conn)
  | queryUser (userid : ℤ) : OfDrop conn (.queryUser userid)
  | updateState (userid : ℤ) : OfDrop conn (.updateState userid .offline)

theorem ofDrop_dropConn (conn : Conn) :
    (dropConn conn).Safe (Cmd.OfDrop conn) (fun _ _ => True) fun _ => True := by
  simp only [dropConn, connUser, setOffline, Program.safe_bind, Program.safe_perform]
  refine ⟨.connUser, fun id _ => safe_sendToUser_of (.findUserConn id) (fun d => .send d _) ?_⟩
  refine ⟨.forceClose, fun _ _ => ⟨.eraseUserConn id, fun _ _ => ⟨.eraseConnUser, fun _ _ => ?_⟩⟩⟩
  exact ⟨.eraseConnStatus, fun _ _ => ⟨.queryUser id, fun user _ => ⟨.updateState user.id, fun _ _ => trivial⟩⟩⟩

/-- Whatever allows that. -/
theorem safe_dropConn_of {P : Cmd → Prop} {conn : Conn} (hP : ∀ c, Cmd.OfDrop conn c → P c) :
    (dropConn conn).Safe P (fun _ _ => True) fun _ => True :=
  (ofDrop_dropConn conn).mono hP (fun _ _ _ => trivial) fun _ _ => trivial

end Chatroom.Service
