import Chatroom.Service.Commands

/-!
# The functions of `Service`

The handlers of `service.cc` in the order of the file, the table `m_handlersMap`, and the functions called
on connections, by the heartbeat and at the start. `m_connUserMap[conn]` is a command wherever the source
evaluates it, also in the arguments of a log line. Objects list their fields in key order.
-/

namespace Chatroom.Service

open Lib History

/-- A read of the message, which throws when the field has another type. -/
def read {α : Type} (x : Except Exn α) : Task α := .ofExcept (x.mapError .exn)

abbrev perform (c : Cmd) : Task (Ans c) := Program.perform c

def connUser (conn : Conn) : Task ℤ := perform (.connUser conn)

/-- `conn->send(response.dump().append("\r\n"))` -/
def send (conn : Conn) (fields : List (String × Json)) : Task Unit := perform (.send conn (.obj fields))

/-- A response with nothing but its id. -/
def sendMsg (conn : Conn) (m : EnMsgType) : Task Unit := send conn [("msgid", .msg m)]

/-- `m_userConnMap.find(userid)`, and what is done with the connection found. -/
def withConn (userid : ℤ) (found : Conn → Task Unit) : Task Unit := do
  let it : Option Conn ← perform (.findUserConn userid)
  match it with
  | some conn => found conn
  | none => return

def sendToUser (userid : ℤ) (fields : List (String × Json)) : Task Unit :=
  withConn userid fun conn => send conn fields

/-- The user whom `m_connUserMap[conn]` gives. -/
def World.userOf (w : World) (conn : Conn) : ℤ := (w.connUserMap conn).getD 0

/-- The state after `m_connUserMap[conn]`. -/
def World.ask (w : World) (conn : Conn) : World :=
  { w with connUserMap := Function.update w.connUserMap conn (some (w.userOf conn)) }

@[simp] theorem World.userOf_ask (w : World) (conn : Conn) : (w.ask conn).userOf conn = w.userOf conn := by
  simp [userOf, ask]

section Run

variable (env : Environment) (w : World)

theorem run_ask (conn : Conn) : (connUser conn).run (exec env) w = (.ok (w.userOf conn), w.ask conn) := rfl

@[simp] theorem run_read_ok {α : Type} (a : α) : (read (.ok a)).run (exec env) w = (.ok a, w) := rfl

@[simp] theorem run_read_error {α : Type} (e : Exn) :
    (read (.error e) : Task α).run (exec env) w = (.error (.exn e), w) := rfl

@[simp] theorem run_connUser (conn : Conn) : (connUser conn).run (exec env) w =
    (.ok (exec env (.connUser conn) w).1, (exec env (.connUser conn) w).2) := rfl

@[simp] theorem run_send (conn : Conn) (fields : List (String × Json)) :
    (send conn fields).run (exec env) w = (.ok (), { w with sent := w.sent ++ [(conn, .obj fields)] }) := rfl

@[simp] theorem run_sendMsg (conn : Conn) (m : EnMsgType) : (sendMsg conn m).run (exec env) w =
    (.ok (), { w with sent := w.sent ++ [(conn, .obj [("msgid", .msg m)])] }) := rfl

@[simp] theorem run_sendToUser (userid : ℤ) (fields : List (String × Json)) :
    (sendToUser userid fields).run (exec env) w =
      (.ok (), { w with sent := w.sent ++ ((w.userConnMap userid).map fun conn => (conn, .obj fields)).toList }) := by
  show Program.run _ (match w.userConnMap userid with
    | some conn => send conn fields
    | none => return) w = _
  cases w.userConnMap userid with
  | none => simp
  | some conn => rfl

end Run

/-- `dump()` of an object that becomes an element of a list. -/
def dumped (fields : List (String × Json)) : Json := .str (String.ofList (Json.obj fields).text)

/-! ## `GroupModel` and `FriendModel`: functions of one `SELECT` each, or of two -/

def hasRole (roles : List Role) (userid groupid : ℤ) : Task Bool := do
  let role : Option Role ← perform (.queryGroupRole userid groupid)
  return roles.any fun r => role = some r

def ifMaster := hasRole [.master]
def ifManager := hasRole [.manager]
def ifMasterOrManager := hasRole [.master, .manager]
def ifManagerOrNormal := hasRole [.manager, .normal]
def ifMasterOrManagerORnormal := hasRole [.master, .manager, .normal]

def requestQuery (friendid : ℤ) : Task (List User) := do
  let vec : List ℤ ← perform (.friendRequesters friendid)
  let users : List (List User) ← vec.mapM fun id => perform (.selectUser id)
  return users.flatten

def blockQuery (userid : ℤ) : Task (List User) := do
  let vec : List ℤ ← perform (.blockedFriends userid)
  let users : List (List User) ← vec.mapM fun id => perform (.selectUser id)
  return users.flatten

/-! ## Users and friends -/

abbrev Handler := Conn → Json → String → Task Unit

def reg : Handler := fun conn js _ => do
  let name ← read (js.stringField "name")
  let pwd ← read (js.stringField "password")
  let state : Option ℤ ← perform (.insertUser name pwd .offline)
  match state with
  | some id => send conn [("id", .num id), ("msgid", .msg .regSuccess)]
  | none => sendMsg conn .regFail

def login : Handler := fun conn js _ => do
  let name ← read (js.stringField "name")
  let pwd ← read (js.stringField "password")
  let user : User ← perform (.queryUserByName name)
  if user.name = name ∧ user.password = pwd then
    if user.state = "online" then
      sendMsg conn .loginRepeat
    else
      let _ ← perform (.setUserConn user.id conn)
      let _ ← perform (.setConnUser conn user.id)
      let _ ← perform (.setConnStatus conn true)
      let _ ← perform (.updateState user.id .online)
      send conn [("id", .num user.id), ("msg", .str "登录成功"), ("msgid", .msg .loginSuccess),
        ("name", .str user.name)]
      let userVec : List User ← perform (.queryFriends user.id)
      forM userVec fun userTmp => sendToUser userTmp.id
        [("id", .num user.id), ("msgid", .msg .friendOnline), ("name", .str user.name)]
  else
    send conn [("msg", .str "登录失败, 用户不存在"), ("msgid", .msg .loginFail)]

def handleDisplayAllUserList : Handler := fun conn _ _ => do
  let _ ← connUser conn
  let userVec : List User ← perform .queryUsers
  let vec := userVec.map fun user =>
    dumped [("id", .num user.id), ("name", .str user.name), ("state", .str user.state)]
  send conn [("msgid", .msg .displayAlluserList), ("users", .arr vec)]

def handleAddFriend : Handler := fun conn js _ => do
  let addName ← read (js.stringField "add_name")
  let _ ← connUser conn
  let addUser : User ← perform (.queryUserByName addName)
  let fromId ← connUser conn
  let toId := addUser.id
  let state1 : Option FriendState ← perform (.friendState fromId toId)
  let state2 : Option FriendState ← perform (.friendState toId fromId)
  if (state1 = none ∧ state2 = none) ∨ (state1 = some .request ∧ state2 = none) then
    let _ ← perform (.insertFriend fromId toId .request)
    sendMsg conn .addFriendRequest
    sendToUser toId [("msgid", .msg .toAddFriendRequest)]
  if state1 = none ∧ state2 = some .request then
    let _ ← perform (.insertFriend fromId toId .friend)
    let _ ← perform (.modifyFriend toId fromId .friend)
    let friend : User ← perform (.queryUser toId)
    send conn [("friend_id", .num toId), ("friend_name", .str addName), ("friend_state", .str friend.state),
      ("msgid", .msg .addFriendSuccess)]
    if friend.state = "online" then
      withConn toId fun toConn => do
        let fromUser : User ← perform (.queryUser fromId)
        send toConn [("friend_name", .str fromUser.name), ("msgid", .msg .theOtherAgreeFriendRequest)]

def handleDeleteFriend : Handler := fun conn js _ => do
  let deleteId ← read (js.intField "del_id")
  let _ ← connUser conn
  let deleteUser : User ← perform (.queryUser deleteId)
  let fromId ← connUser conn
  let toId := deleteUser.id
  let state1 : Option FriendState ← perform (.friendState fromId toId)
  let state2 : Option FriendState ← perform (.friendState toId fromId)
  if (state1 = some .friend ∨ state1 = some .block) ∧ (state2 = some .friend ∨ state2 = some .block) then
    perform (.deleteEach fromId toId)
  else
    sendMsg conn .deleteFriendFail

def handleBlockFriend : Handler := fun conn js _ => do
  let blockId ← read (js.intField "block_id")
  let userId ← connUser conn
  let state1 : Option FriendState ← perform (.friendState userId blockId)
  if state1 = some .friend then
    let _ ← perform (.modifyFriend userId blockId .block)
    sendMsg conn .blockFriendSuccess
  else
    sendMsg conn .blockFriendFail

def handleUnBlockFriend : Handler := fun conn js _ => do
  let unblockId ← read (js.intField "unblock_id")
  let userId ← connUser conn
  let state1 : Option FriendState ← perform (.friendState userId unblockId)
  if state1 = some .block then
    let _ ← perform (.modifyFriend userId unblockId .friend)
    sendMsg conn .unblockFriendSuccess
  else
    sendMsg conn .unblockFriendFail

/-- A state as `getState` returns it. -/
def stateText (state : Option FriendState) : Json := .str ((state.map FriendState.text).getD "")

def handleCheckBlock : Handler := fun conn js _ => do
  let checkId ← read (js.intField "check_id")
  let userId ← connUser conn
  let state1 : Option FriendState ← perform (.friendState userId checkId)
  let state2 : Option FriendState ← perform (.friendState checkId userId)
  let response := [("msgid", .msg .checkBlock), ("state1", stateText state1), ("state2", stateText state2)]
  send conn response
  sendToUser checkId response

def handleBlockFriendList : Handler := fun conn _ _ => do
  let userId ← connUser conn
  let userVec ← blockQuery userId
  let vec := userVec.map fun user => dumped [("id", .num user.id), ("name", .str user.name)]
  send conn [("blocks", .arr vec), ("msgid", .msg .blockFriendList)]

def handlePrivateChat : Handler := fun conn js time => do
  let msg ← read (js.stringField "msg")
  let fromName ← read (js.stringField "from_name")
  let toId ← read (js.intField "id")
  let userId ← connUser conn
  let timestamp : Timestamp ← perform .getCurrentTimestamp
  let _ ← perform (.rpush .privateChat ⟨userId, toId, msg, timestamp⟩)
  sendToUser toId [("from_name", .str fromName), ("msg", .str msg), ("msgid", .msg .privateChat),
    ("time", .str time)]

def handleDisplayFriendList : Handler := fun conn _ _ => do
  let id ← connUser conn
  let userVec : List User ← perform (.queryFriends id)
  let vec := userVec.map fun user =>
    dumped [("id", .num user.id), ("name", .str user.name), ("state", .str user.state)]
  send conn [("friends", .arr vec), ("msgid", .msg .displayFriendList)]

def handleFriendRequestList : Handler := fun conn _ _ => do
  let id ← connUser conn
  let userVec ← requestQuery id
  let vec := userVec.map fun user => dumped [("id", .num user.id), ("name", .str user.name)]
  send conn [("msgid", .msg .friendRequestList), ("requests", .arr vec)]

/-! ## Groups -/

def handleCreateGroup : Handler := fun conn js _ => do
  let groupName ← read (js.stringField "groupname")
  let userid ← connUser conn
  let group : Option ℤ ← perform (.createGroup groupName)
  match group with
  | some groupid =>
    let _ : Bool ← perform (.addGroup userid groupid .master)
    let _ ← perform (.pushGroupUser groupid userid)
    sendMsg conn .createGroupSuccess
  | none => sendMsg conn .createGroupFail

def handleDisplayAllGroupList : Handler := fun conn _ _ => do
  let groupVec : List Group ← perform .queryAllGroup
  let vec := groupVec.map fun group => dumped [("id", .num group.id), ("name", .str group.name)]
  send conn [("groups", .arr vec), ("msgid", .msg .displayAllgroupList)]

/-- `response_to_master_or_manager` -/
def responseToMasterOrManager (groupid userid : ℤ) : Task Unit := do
  let userVec : List User ← perform (.groupUsers groupid false)
  forM userVec fun user =>
    if user.state = "master" ∨ user.state = "manager" then
      sendToUser user.id [("groupid", .num groupid), ("msgid", .msg .groupRequest), ("userid", .num userid)]
    else return

def requestAddGroup : Handler := fun conn js _ => do
  let groupid ← read (js.intField "add_group_id")
  let userid ← connUser conn
  let success : Bool ← perform (.addGroup userid groupid .request)
  if success then
    sendMsg conn .requestGroupSuccess
    responseToMasterOrManager groupid userid
  else
    let member ← ifMasterOrManagerORnormal userid groupid
    if member then
      sendMsg conn .alreadyInGroup
    else
      sendMsg conn .requestGroupFail

def handleGroupRequestList : Handler := fun conn js _ => do
  let groupid ← read (js.intField "groupid")
  let userid ← connUser conn
  let allowed ← ifMasterOrManager userid groupid
  if allowed = false then
    sendMsg conn .displayGroupRequestFail
  else
    let userVec : List User ← perform (.groupUsers groupid true)
    let vec := userVec.map fun user => dumped [("id", .num user.id), ("name", .str user.name)]
    send conn [("msgid", .msg .displayGroupRequest), ("requests", .arr vec)]

def handleAddSomeoneToGroup : Handler := fun conn js _ => do
  let groupid ← read (js.intField "groupid")
  let userid ← read (js.intField "userid")
  let _ ← connUser conn
  let requester ← connUser conn
  let allowed ← ifMasterOrManager requester groupid
  if allowed = false then
    sendMsg conn .addGroupFail
  else
    let _ ← perform (.modifyGroupRole userid groupid .normal)
    let _ ← perform (.pushGroupUser groupid userid)
    sendMsg conn .addGroupSuccess
    let acceptId ← connUser conn
    sendToUser userid [("accept_id", .num acceptId), ("groupid", .num groupid),
      ("msgid", .msg .groupRequestAccepted)]

def handleQuitGroup : Handler := fun conn js _ => do
  let groupid ← read (js.intField "groupid")
  let userid ← connUser conn
  let requester ← connUser conn
  let allowed ← ifManagerOrNormal requester groupid
  if allowed = false then
    sendMsg conn .quitGroupFail
  else
    let _ ← perform (.deleteGroupMember userid groupid)
    let found : Bool ← perform (.removeFoundGroupUser groupid userid)
    if found then
      sendMsg conn .quitGroupSuccess
    else
      -- `m_groupUserListMap.find(groupid)` is `end()` and is dereferenced
      .throw .undefined

def handleShowOwnGroupList : Handler := fun conn _ _ => do
  let userid ← connUser conn
  let groupVec : List Group ← perform (.queryOwnGroup userid)
  let vec := (groupVec.filter fun group => ¬ (group.grouprole = "request" ∨ group.grouprole = "")).map
    fun group => dumped [("id", .num group.id), ("name", .str group.name)]
  send conn [("groups", .arr vec), ("msgid", .msg .displayOwnGroupList)]

/-- The members of a group for a list. -/
def memberList (userVec : List User) : Json :=
  .arr (userVec.map fun user =>
    dumped [("id", .num user.id), ("name", .str user.name), ("role", .str user.state)])

def handleShowGroupMemberList : Handler := fun conn js _ => do
  let groupid ← read (js.intField "groupid")
  let userid ← connUser conn
  let allowed ← ifMasterOrManagerORnormal userid groupid
  if allowed = false then
    sendMsg conn .displayGroupMemberFail
  else
    let userVec : List User ← perform (.groupUsers groupid false)
    send conn [("members", memberList userVec), ("msgid", .msg .displayGroupMemberList)]

def handleDisplaySetManagerMemberList : Handler := fun conn js _ => do
  let groupid ← read (js.intField "groupid")
  let userid ← connUser conn
  let allowed ← ifMaster userid groupid
  if allowed = false then
    sendMsg conn .displaySetManagerMemberFail
  else
    let userVec : List User ← perform (.groupUsers groupid false)
    send conn [("members", memberList userVec), ("msgid", .msg .displaySetManagerMemberList)]

/-- The requester is only logged; the guard looks at the target. -/
def handleSetManager : Handler := fun conn js _ => do
  let groupid ← read (js.intField "groupid")
  let userid ← read (js.intField "userid")
  let _ ← connUser conn
  let state : Option Role ← perform (.queryGroupRole userid groupid)
  if state ≠ some .normal then
    sendMsg conn .setManagerFail
  else
    let _ ← perform (.modifyGroupRole userid groupid .manager)
    sendMsg conn .setManagerSuccess
    sendToUser userid [("groupid", .num groupid), ("msgid", .msg .setManagerNotice)]

def handleCancelManager : Handler := fun conn js _ => do
  let groupid ← read (js.intField "groupid")
  let userid ← read (js.intField "userid")
  let _ ← connUser conn
  let manager ← ifManager userid groupid
  if manager = false then
    sendMsg conn .cancelManagerFail
  else
    let _ ← perform (.modifyGroupRole userid groupid .normal)
    sendMsg conn .cancelManagerSuccess

/-- What `handleKickSomeoneInGroup` does in both branches that kick. -/
def kick (conn : Conn) (groupid userid : ℤ) : Task Unit := do
  let _ ← perform (.deleteGroupMember userid groupid)
  let _ ← perform (.removeGroupUser groupid userid)
  sendMsg conn .kickSomeoneSuccess
  sendToUser userid [("groupid", .num groupid), ("msgid", .msg .kickSomeoneNotice)]

def handleKickSomeoneInGroup : Handler := fun conn js _ => do
  let groupid ← read (js.intField "groupid")
  let userid ← read (js.intField "userid")
  let _ ← connUser conn
  let requester ← connUser conn
  let kickState : Option Role ← perform (.queryGroupRole requester groupid)
  let beKickState : Option Role ← perform (.queryGroupRole userid groupid)
  if beKickState = none ∨ beKickState = some .request then
    sendMsg conn .kickSomeoneNotInGroup
  else if kickState = some .master then
    kick conn groupid userid
  else if kickState = some .manager then
    if beKickState = some .manager ∨ beKickState = some .master then
      sendMsg conn .kickSomeoneFail
    else
      kick conn groupid userid
  else
    sendMsg conn .kickSomeoneFail

def handleCheckIfGroupMember : Handler := fun conn js _ => do
  let groupid ← read (js.intField "groupid")
  let userid ← connUser conn
  let state : Option Role ← perform (.queryGroupRole userid groupid)
  send conn [("msgid", .msg .checkIfGroupMember),
    ("state", .bool (¬ (state = none ∨ state = some .request)))]

def handleGroupChat : Handler := fun conn js time => do
  let groupid ← read (js.intField "groupid")
  let msg ← read (js.stringField "msg")
  let fromName ← read (js.stringField "from_name")
  let userVec : List ℤ ← perform (.groupUserList groupid)
  let response := [("from_name", .str fromName), ("groupid", .num groupid), ("msg", .str msg),
    ("msgid", .msg .groupChat), ("time", .str time)]
  let sender ← connUser conn
  let timestamp : Timestamp ← perform .getCurrentTimestamp
  let _ ← perform (.rpush .groupChat ⟨groupid, sender, msg, timestamp⟩)
  forM userVec fun userid => do
    let self ← connUser conn
    if userid = self then return
    else sendToUser userid response

def handleMasterDeleteGroup : Handler := fun conn js _ => do
  let groupid ← read (js.intField "groupid")
  let userid ← connUser conn
  let allowed ← ifMaster userid groupid
  if allowed = false then
    sendMsg conn .masterDeleteGroupFail
  else
    let _ ← perform (.deleteAllGroup groupid)
    let _ ← perform (.deleteGroupUsers groupid)
    let _ ← perform (.eraseGroupUserList groupid)
    sendMsg conn .masterDeleteGroupSuccess

/-! ## Files and history -/

def handleSendFileDataBase : Handler := fun conn js _ => do
  let userid ← read (js.intField "sender")
  let recvId ← read (js.intField "receiver")
  let filename ← read (js.stringField "filename")
  let _ ← perform (.insertFile userid recvId filename)
  sendMsg conn .sendFileDatabaseSuccess

def handleDisplayFileList : Handler := fun conn _ _ => do
  let userid ← connUser conn
  let fileVec : List FileRecord ← perform (.queryFiles userid)
  let vec := fileVec.map fun file => dumped [("filename", .str file.fileName),
    ("receiver", .num file.receiverId), ("sender", .num file.senderId), ("time", .str file.createTime)]
  send conn [("files", .arr vec), ("msgid", .msg .viewFile)]

/-- `handleReceiveFile` without the bytes: `Net.Server` has those. -/
def handleReceiveFile : Handler := fun conn js _ => do
  let filename ← read (js.stringField "filename")
  let opened : Bool ← perform (.openFile ("./received_files/" ++ filename))
  if opened = false then
    sendMsg conn .receiveFileFail
  else
    let size : Option ℕ ← perform .fstat
    match size with
    | none => perform .closeFile
    | some fileSize =>
      let userid ← connUser conn
      let _ ← perform (.eraseUserConn userid)
      send conn [("filename", .str filename), ("filesize", .num fileSize), ("msgid", .msg .sendFileServer)]
      let flags : Bool ← perform (.fcntl conn)
      if flags = false then return
      else
        let blocking : Bool ← perform (.fcntl conn)
        if blocking = false then return
        else
          let sent : Bool ← perform (.sendfileLoop conn fileSize)
          let _ ← perform .closeFile
          if sent = false then return
          else
            let restored : Bool ← perform (.fcntl conn)
            if restored = false then return
            else
              let userid ← connUser conn
              let _ ← perform (.setUserConn userid conn)
              sendMsg conn .sendFileEnd
              sendMsg conn .receiveFileFinish

def handleDisplayPrivateHistory : Handler := fun conn js _ => do
  let userid ← connUser conn
  let friendid ← read (js.intField "id")
  let historyVec : List ChatHistory ← perform (.queryPrivateHistory userid friendid 50)
  let vec := historyVec.map fun history => dumped [("from", .num history.id₁), ("msg", .str history.message),
    ("time", .str history.sendTime), ("to", .num history.id₂)]
  send conn [("history", .arr vec.reverse), ("msgid", .msg .displayPrivateHistory)]

def handleDisplayGroupHistory : Handler := fun conn js _ => do
  let groupid ← read (js.intField "groupid")
  let historyVec : List ChatHistory ← perform (.queryGroupHistory groupid 50)
  let vec := historyVec.map fun history => dumped [("from", .num history.id₂), ("groupid", .num history.id₁),
    ("msg", .str history.message), ("time", .str history.sendTime)]
  send conn [("history", .arr vec.reverse), ("msgid", .msg .displayGroupHistory)]

/-! ## `m_handlersMap` -/

def handlersMap : List (EnMsgType × Handler) := [
  (.regMsg, reg),
  (.loginMsg, login),
  (.displayAlluserList, handleDisplayAllUserList),
  (.addFriend, handleAddFriend),
  (.deleteFriend, handleDeleteFriend),
  (.privateChat, handlePrivateChat),
  (.displayFriendList, handleDisplayFriendList),
  (.friendRequestList, handleFriendRequestList),
  (.blockFriend, handleBlockFriend),
  (.unblockFriend, handleUnBlockFriend),
  (.blockFriendList, handleBlockFriendList),
  (.checkBlock, handleCheckBlock),
  (.createGroup, handleCreateGroup),
  (.displayAllgroupList, handleDisplayAllGroupList),
  (.requestGroup, requestAddGroup),
  (.groupRequestList, handleGroupRequestList),
  (.addGroup, handleAddSomeoneToGroup),
  (.quitGroup, handleQuitGroup),
  (.displayOwnGroupList, handleShowOwnGroupList),
  (.displayGroupMemberList, handleShowGroupMemberList),
  (.displayGroupSetManagerMemberList, handleDisplaySetManagerMemberList),
  (.setManager, handleSetManager),
  (.cancelManager, handleCancelManager),
  (.kickSomeone, handleKickSomeoneInGroup),
  (.checkGroupMember, handleCheckIfGroupMember),
  (.groupChat, handleGroupChat),
  (.masterDeleteGroup, handleMasterDeleteGroup),
  (.sendFileDatabase, handleSendFileDataBase),
  (.viewFile, handleDisplayFileList),
  (.receiveFile, handleReceiveFile),
  (.privateChatHistory, handleDisplayPrivateHistory),
  (.groupChatHistory, handleDisplayGroupHistory)]

/-- For an unknown id, `getHandler` returns a function that only logs. -/
def getHandler (msgid : ℤ) : Handler :=
  match handlersMap.find? fun h => h.1.code = msgid with
  | some h => h.2
  | none => fun _ _ _ => return

/-! ## Connections, heartbeat and start -/

def setConnStatus (conn : Conn) (status : Bool) : Task Unit := perform (.setConnStatus conn status)

def removeConnStatus (conn : Conn) : Task Unit := perform (.eraseConnStatus conn)

def addConnStatus (conn : Conn) : Task Unit := perform (.setConnStatus conn true)

/-- `User user = m_userModel.query(id); user.setState("offline"); m_userModel.updateState(user)` -/
def setOffline (id : ℤ) : Task Unit := do
  let user : User ← perform (.queryUser id)
  perform (.updateState user.id .offline)

/-- The body of the second loop of `checkIfConnAlive`. -/
def dropConn (conn : Conn) : Task Unit := do
  let id ← connUser conn
  sendToUser id [("msgid", .msg .clientLongtimeExit)]
  let _ ← perform (.forceClose conn)
  let _ ← perform (.eraseUserConn id)
  let _ ← perform (.eraseConnUser conn)
  let _ ← perform (.eraseConnStatus conn)
  setOffline id

def checkIfConnAlive : Task Unit := do
  let connectionsToDelete : List Conn ← perform .sweepConnStatus
  forM connectionsToDelete dropConn

def clientClose (conn : Conn) : Task Unit := do
  let it : Option ℤ ← perform (.findConnUser conn)
  match it with
  | some userId =>
    let _ ← perform (.eraseConnStatus conn)
    let _ ← perform (.eraseConnUser conn)
    let _ ← perform (.eraseUserConn userId)
    let _ ← perform (.eraseConnStatus conn)
    if userId ≠ -1 then setOffline userId
  | none => perform (.eraseConnStatus conn)

def groupUserListMapInit : Task Unit := do
  let groupVec : List Group ← perform .queryAllGroup
  forM groupVec fun group => do
    let userVec : List User ← perform (.groupUsers group.id false)
    perform (.setGroupUserList group.id (userVec.map User.id))

def userstateInit : Task Unit := do
  let userVec : List User ← perform .queryUsers
  forM userVec fun user =>
    if user.state = "online" then perform (.updateState user.id .offline) else return

/-- `reset`, before it flushes the cache. -/
def reset : Task Unit := perform .resetState

end Chatroom.Service
