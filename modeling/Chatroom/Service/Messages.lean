import Chatroom.Service.Server

/-!
# What is said to the clients

The ids of the messages that every function of `Service` can send (`Speaks`), one lemma for each handler, and
with them those of every activity of the server (`speaks_body`).
-/

namespace Chatroom.Service

open Lib

/-- The field `msgid` has one of the ids. -/
def IsMsg (ms : List EnMsgType) (js : Json) : Prop := ∃ m ∈ ms, js = .msg m

@[simp] theorem isMsg_msg {ms : List EnMsgType} {m : EnMsgType} : IsMsg ms (.msg m) ↔ m ∈ ms := by
  constructor
  · rintro ⟨m', hm', h⟩
    rwa [EnMsgType.code_injective (Json.num.inj h)]
  · exact fun h => ⟨m, h, rfl⟩

/-- What is sent has one of the ids. -/
@[simp] def Cmd.Says (ms : List EnMsgType) : Cmd → Prop
  | .send _ (.obj fields) => ∃ v, fields.lookup "msgid" = some v ∧ IsMsg ms v
  | .send _ _ => False
  | _ => True

/-- Whatever it is answered, the program sends messages with these ids only. -/
def Speaks (ms : List EnMsgType) (p : Task Unit) : Prop := p.Safe (Cmd.Says ms) (fun _ _ => True) fun _ => True

/-! ## The functions that handlers are made of -/

section

variable {ms : List EnMsgType} {conn : Conn} {fields : List (String × Json)}

@[simp] theorem says_send {post : Unit → Prop} :
    (send conn fields).Safe (Cmd.Says ms) (fun _ _ => True) post ↔
      (∃ v, fields.lookup "msgid" = some v ∧ IsMsg ms v) ∧ post () := by
  exact ⟨fun h => ⟨h.1, h.2 () trivial⟩, fun h => ⟨h.1, fun _ _ => h.2⟩⟩

@[simp] theorem says_sendMsg {m : EnMsgType} {post : Unit → Prop} :
    (sendMsg conn m).Safe (Cmd.Says ms) (fun _ _ => True) post ↔ m ∈ ms ∧ post () := by
  simp [sendMsg]

@[simp] theorem says_connUser {post : ℤ → Prop} :
    (connUser conn).Safe (Cmd.Says ms) (fun _ _ => True) post ↔ ∀ u, post u := by
  simp [connUser]

@[simp] theorem says_withConn {userid : ℤ} {found : Conn → Task Unit} {post : Unit → Prop} :
    (withConn userid found).Safe (Cmd.Says ms) (fun _ _ => True) post ↔
      (∀ d, (found d).Safe (Cmd.Says ms) (fun _ _ => True) post) ∧ post () := by
  constructor
  · intro h
    exact ⟨fun d => h.2 (some d) trivial, h.2 none trivial⟩
  · rintro ⟨hsome, hnone⟩
    refine ⟨trivial, fun it _ => ?_⟩
    cases it with
    | none => exact hnone
    | some d => exact hsome d

@[simp] theorem says_sendToUser {userid : ℤ} {post : Unit → Prop} :
    (sendToUser userid fields).Safe (Cmd.Says ms) (fun _ _ => True) post ↔
      (∃ v, fields.lookup "msgid" = some v ∧ IsMsg ms v) ∧ post () := by
  simp [sendToUser]

@[simp] theorem says_hasRole {roles : List Role} {userid groupid : ℤ} {post : Bool → Prop} :
    (hasRole roles userid groupid).Safe (Cmd.Says ms) (fun _ _ => True) post ↔
      ∀ role : Option Role, post (roles.any fun r => role = some r) := by
  simp [hasRole]

theorem says_selectUsers {vec : List ℤ} {post : List (List User) → Prop} (h : ∀ users, post users) :
    (vec.mapM fun id => perform (.selectUser id)).Safe (Cmd.Says ms) (fun _ _ => True) post :=
  Program.safe_mapM (fun id _ => by simp) h

end

/-! ## The handlers -/

section Handlers

variable (conn : Conn) (js : Json) (time : String)

theorem speaks_reg : Speaks [.regSuccess, .regFail] (reg conn js time) := by
  simp only [Speaks, reg, Program.safe_bind, safe_read]
  intro name _ pwd _
  refine ⟨trivial, fun id _ => ?_⟩
  cases id <;> simp [List.lookup_cons]

theorem speaks_login : Speaks [.loginRepeat, .loginSuccess, .friendOnline, .loginFail] (login conn js time) := by
  simp only [Speaks, login, Program.safe_bind, safe_read]
  intro name _ pwd _
  refine ⟨trivial, fun user _ => ?_⟩
  rw [Program.safe_ret, Program.safe_ite, Program.safe_ite]
  refine ⟨fun _ => ⟨fun _ => by simp, fun _ => ?_⟩, fun _ => by simp [List.lookup_cons]⟩
  simp only [Program.safe_bind, Program.safe_perform, Cmd.Says, says_send, true_and, forall_const]
  refine ⟨by simp [List.lookup_cons], fun userVec => Program.safe_forM (fun userTmp _ => ?_) trivial⟩
  simp [List.lookup_cons]

theorem speaks_handleDisplayAllUserList : Speaks [.displayAlluserList] (handleDisplayAllUserList conn js time) := by
  simp [Speaks, handleDisplayAllUserList]

theorem speaks_handleAddFriend :
    Speaks [.addFriendRequest, .toAddFriendRequest, .addFriendSuccess, .theOtherAgreeFriendRequest]
      (handleAddFriend conn js time) := by
  simp [Speaks, handleAddFriend, List.lookup_cons]

theorem speaks_handleDeleteFriend : Speaks [.deleteFriendFail] (handleDeleteFriend conn js time) := by
  simp [Speaks, handleDeleteFriend]

theorem speaks_handlePrivateChat : Speaks [.privateChat] (handlePrivateChat conn js time) := by
  simp [Speaks, handlePrivateChat, List.lookup_cons]

theorem speaks_handleDisplayFriendList : Speaks [.displayFriendList] (handleDisplayFriendList conn js time) := by
  simp [Speaks, handleDisplayFriendList, List.lookup_cons]

theorem speaks_handleFriendRequestList : Speaks [.friendRequestList] (handleFriendRequestList conn js time) := by
  simp only [Speaks, handleFriendRequestList, requestQuery, Program.safe_bind, says_connUser]
  exact fun id => ⟨trivial, fun vec _ => says_selectUsers fun users => by simp⟩

theorem speaks_handleBlockFriend :
    Speaks [.blockFriendSuccess, .blockFriendFail] (handleBlockFriend conn js time) := by
  simp [Speaks, handleBlockFriend]

theorem speaks_handleUnBlockFriend :
    Speaks [.unblockFriendSuccess, .unblockFriendFail] (handleUnBlockFriend conn js time) := by
  simp [Speaks, handleUnBlockFriend]

theorem speaks_handleBlockFriendList : Speaks [.blockFriendList] (handleBlockFriendList conn js time) := by
  simp only [Speaks, handleBlockFriendList, blockQuery, Program.safe_bind, says_connUser]
  exact fun userId => ⟨trivial, fun vec _ => says_selectUsers fun users => by simp [List.lookup_cons]⟩

theorem speaks_handleCheckBlock : Speaks [.checkBlock] (handleCheckBlock conn js time) := by
  simp [Speaks, handleCheckBlock]

theorem speaks_handleCreateGroup :
    Speaks [.createGroupSuccess, .createGroupFail] (handleCreateGroup conn js time) := by
  simp only [Speaks, handleCreateGroup, Program.safe_bind, safe_read, says_connUser]
  intro groupName _ userid
  refine ⟨trivial, fun group _ => ?_⟩
  cases group <;> simp

theorem speaks_handleDisplayAllGroupList :
    Speaks [.displayAllgroupList] (handleDisplayAllGroupList conn js time) := by
  simp [Speaks, handleDisplayAllGroupList, List.lookup_cons]

theorem speaks_requestAddGroup :
    Speaks [.requestGroupSuccess, .alreadyInGroup, .requestGroupFail, .groupRequest]
      (requestAddGroup conn js time) := by
  have hnotify : ∀ ms groupid userid, .groupRequest ∈ ms → Speaks ms (responseToMasterOrManager groupid userid) := by
    intro ms groupid userid hms
    rw [Speaks, responseToMasterOrManager, Program.safe_bind]
    exact ⟨trivial, fun userVec _ => Program.safe_forM (fun user _ => by simp [List.lookup_cons, hms]) trivial⟩
  simp only [Speaks] at hnotify
  simp [Speaks, requestAddGroup, ifMasterOrManagerORnormal, hnotify]

theorem speaks_handleGroupRequestList :
    Speaks [.displayGroupRequestFail, .displayGroupRequest] (handleGroupRequestList conn js time) := by
  simp [Speaks, handleGroupRequestList, ifMasterOrManager]

theorem speaks_handleAddSomeoneToGroup :
    Speaks [.addGroupFail, .addGroupSuccess, .groupRequestAccepted] (handleAddSomeoneToGroup conn js time) := by
  simp [Speaks, handleAddSomeoneToGroup, ifMasterOrManager, List.lookup_cons]

theorem speaks_handleQuitGroup : Speaks [.quitGroupFail, .quitGroupSuccess] (handleQuitGroup conn js time) := by
  simp [Speaks, handleQuitGroup, ifManagerOrNormal]

theorem speaks_handleShowOwnGroupList : Speaks [.displayOwnGroupList] (handleShowOwnGroupList conn js time) := by
  simp [Speaks, handleShowOwnGroupList, List.lookup_cons]

theorem speaks_handleShowGroupMemberList :
    Speaks [.displayGroupMemberFail, .displayGroupMemberList] (handleShowGroupMemberList conn js time) := by
  simp [Speaks, handleShowGroupMemberList, ifMasterOrManagerORnormal, List.lookup_cons]

theorem speaks_handleDisplaySetManagerMemberList :
    Speaks [.displaySetManagerMemberFail, .displaySetManagerMemberList]
      (handleDisplaySetManagerMemberList conn js time) := by
  simp [Speaks, handleDisplaySetManagerMemberList, ifMaster, List.lookup_cons]

theorem speaks_handleSetManager :
    Speaks [.setManagerFail, .setManagerSuccess, .setManagerNotice] (handleSetManager conn js time) := by
  simp [Speaks, handleSetManager, List.lookup_cons]

theorem speaks_handleCancelManager :
    Speaks [.cancelManagerFail, .cancelManagerSuccess] (handleCancelManager conn js time) := by
  simp [Speaks, handleCancelManager, ifManager]

theorem speaks_handleKickSomeoneInGroup :
    Speaks [.kickSomeoneNotInGroup, .kickSomeoneFail, .kickSomeoneSuccess, .kickSomeoneNotice]
      (handleKickSomeoneInGroup conn js time) := by
  simp [Speaks, handleKickSomeoneInGroup, kick, List.lookup_cons]

theorem speaks_handleCheckIfGroupMember : Speaks [.checkIfGroupMember] (handleCheckIfGroupMember conn js time) := by
  simp [Speaks, handleCheckIfGroupMember]

theorem speaks_handleGroupChat : Speaks [.groupChat] (handleGroupChat conn js time) := by
  simp only [Speaks, handleGroupChat, Program.safe_bind, safe_read, says_connUser]
  intro groupid _ msg _ fromName _
  refine ⟨trivial, fun userVec _ sender => ⟨trivial, fun timestamp _ => ⟨trivial, fun _ _ => ?_⟩⟩⟩
  exact Program.safe_forM (fun userid _ => by simp [List.lookup_cons]) trivial

theorem speaks_handleMasterDeleteGroup :
    Speaks [.masterDeleteGroupFail, .masterDeleteGroupSuccess] (handleMasterDeleteGroup conn js time) := by
  simp [Speaks, handleMasterDeleteGroup, ifMaster]

theorem speaks_handleSendFileDataBase : Speaks [.sendFileDatabaseSuccess] (handleSendFileDataBase conn js time) := by
  simp [Speaks, handleSendFileDataBase]

theorem speaks_handleDisplayFileList : Speaks [.viewFile] (handleDisplayFileList conn js time) := by
  simp [Speaks, handleDisplayFileList, List.lookup_cons]

theorem speaks_handleReceiveFile :
    Speaks [.receiveFileFail, .sendFileServer, .sendFileEnd, .receiveFileFinish] (handleReceiveFile conn js time) := by
  simp only [Speaks, handleReceiveFile, Program.safe_bind, safe_read]
  intro filename _
  refine ⟨trivial, fun opened _ => ?_⟩
  rw [Program.safe_ret, Program.safe_ite]
  refine ⟨fun _ => by simp, fun _ => ?_⟩
  rw [Program.safe_bind, Program.safe_perform]
  refine ⟨trivial, fun size _ => ?_⟩
  cases size with
  | none => simp
  | some fileSize => simp [List.lookup_cons]

theorem speaks_handleDisplayPrivateHistory :
    Speaks [.displayPrivateHistory] (handleDisplayPrivateHistory conn js time) := by
  simp [Speaks, handleDisplayPrivateHistory, List.lookup_cons]

theorem speaks_handleDisplayGroupHistory :
    Speaks [.displayGroupHistory] (handleDisplayGroupHistory conn js time) := by
  simp [Speaks, handleDisplayGroupHistory, List.lookup_cons]

/-- The ids of the messages with which a request is answered, and of those about it to others. -/
def messages : EnMsgType → List EnMsgType
  | .regMsg => [.regSuccess, .regFail]
  | .loginMsg => [.loginRepeat, .loginSuccess, .friendOnline, .loginFail]
  | .displayAlluserList => [.displayAlluserList]
  | .addFriend => [.addFriendRequest, .toAddFriendRequest, .addFriendSuccess, .theOtherAgreeFriendRequest]
  | .deleteFriend => [.deleteFriendFail]
  | .privateChat => [.privateChat]
  | .displayFriendList => [.displayFriendList]
  | .friendRequestList => [.friendRequestList]
  | .blockFriend => [.blockFriendSuccess, .blockFriendFail]
  | .unblockFriend => [.unblockFriendSuccess, .unblockFriendFail]
  | .blockFriendList => [.blockFriendList]
  | .checkBlock => [.checkBlock]
  | .createGroup => [.createGroupSuccess, .createGroupFail]
  | .displayAllgroupList => [.displayAllgroupList]
  | .requestGroup => [.requestGroupSuccess, .alreadyInGroup, .requestGroupFail, .groupRequest]
  | .groupRequestList => [.displayGroupRequestFail, .displayGroupRequest]
  | .addGroup => [.addGroupFail, .addGroupSuccess, .groupRequestAccepted]
  | .quitGroup => [.quitGroupFail, .quitGroupSuccess]
  | .displayOwnGroupList => [.displayOwnGroupList]
  | .displayGroupMemberList => [.displayGroupMemberFail, .displayGroupMemberList]
  | .displayGroupSetManagerMemberList => [.displaySetManagerMemberFail, .displaySetManagerMemberList]
  | .setManager => [.setManagerFail, .setManagerSuccess, .setManagerNotice]
  | .cancelManager => [.cancelManagerFail, .cancelManagerSuccess]
  | .kickSomeone => [.kickSomeoneNotInGroup, .kickSomeoneFail, .kickSomeoneSuccess, .kickSomeoneNotice]
  | .checkGroupMember => [.checkIfGroupMember]
  | .groupChat => [.groupChat]
  | .masterDeleteGroup => [.masterDeleteGroupFail, .masterDeleteGroupSuccess]
  | .sendFileDatabase => [.sendFileDatabaseSuccess]
  | .viewFile => [.viewFile]
  | .receiveFile => [.receiveFileFail, .sendFileServer, .sendFileEnd, .receiveFileFinish]
  | .privateChatHistory => [.displayPrivateHistory]
  | .groupChatHistory => [.displayGroupHistory]
  | _ => []

/-- **What every handler can send.** -/
theorem speaks_of_mem {m : EnMsgType} {h : Handler} (hmem : (m, h) ∈ handlersMap) :
    Speaks (messages m) (h conn js time) := by
  simp only [handlersMap, List.mem_cons, List.not_mem_nil, or_false, Prod.mk.injEq] at hmem
  rcases hmem with ⟨rfl, rfl⟩ | ⟨rfl, rfl⟩ | ⟨rfl, rfl⟩ | ⟨rfl, rfl⟩ | ⟨rfl, rfl⟩ | ⟨rfl, rfl⟩ | ⟨rfl, rfl⟩ | ⟨rfl, rfl⟩ |
    ⟨rfl, rfl⟩ | ⟨rfl, rfl⟩ | ⟨rfl, rfl⟩ | ⟨rfl, rfl⟩ | ⟨rfl, rfl⟩ | ⟨rfl, rfl⟩ | ⟨rfl, rfl⟩ | ⟨rfl, rfl⟩ |
    ⟨rfl, rfl⟩ | ⟨rfl, rfl⟩ | ⟨rfl, rfl⟩ | ⟨rfl, rfl⟩ | ⟨rfl, rfl⟩ | ⟨rfl, rfl⟩ | ⟨rfl, rfl⟩ | ⟨rfl, rfl⟩ |
    ⟨rfl, rfl⟩ | ⟨rfl, rfl⟩ | ⟨rfl, rfl⟩ | ⟨rfl, rfl⟩ | ⟨rfl, rfl⟩ | ⟨rfl, rfl⟩ | ⟨rfl, rfl⟩ | ⟨rfl, rfl⟩
  · exact speaks_reg conn js time
  · exact speaks_login conn js time
  · exact speaks_handleDisplayAllUserList conn js time
  · exact speaks_handleAddFriend conn js time
  · exact speaks_handleDeleteFriend conn js time
  · exact speaks_handlePrivateChat conn js time
  · exact speaks_handleDisplayFriendList conn js time
  · exact speaks_handleFriendRequestList conn js time
  · exact speaks_handleBlockFriend conn js time
  · exact speaks_handleUnBlockFriend conn js time
  · exact speaks_handleBlockFriendList conn js time
  · exact speaks_handleCheckBlock conn js time
  · exact speaks_handleCreateGroup conn js time
  · exact speaks_handleDisplayAllGroupList conn js time
  · exact speaks_requestAddGroup conn js time
  · exact speaks_handleGroupRequestList conn js time
  · exact speaks_handleAddSomeoneToGroup conn js time
  · exact speaks_handleQuitGroup conn js time
  · exact speaks_handleShowOwnGroupList conn js time
  · exact speaks_handleShowGroupMemberList conn js time
  · exact speaks_handleDisplaySetManagerMemberList conn js time
  · exact speaks_handleSetManager conn js time
  · exact speaks_handleCancelManager conn js time
  · exact speaks_handleKickSomeoneInGroup conn js time
  · exact speaks_handleCheckIfGroupMember conn js time
  · exact speaks_handleGroupChat conn js time
  · exact speaks_handleMasterDeleteGroup conn js time
  · exact speaks_handleSendFileDataBase conn js time
  · exact speaks_handleDisplayFileList conn js time
  · exact speaks_handleReceiveFile conn js time
  · exact speaks_handleDisplayPrivateHistory conn js time
  · exact speaks_handleDisplayGroupHistory conn js time

end Handlers

/-! ## The activities of the server -/

def messagesOf (msgid : ℤ) : List EnMsgType :=
  match handlersMap.find? fun h => h.1.code = msgid with
  | some h => messages h.1
  | none => []

theorem exists_of_mem_messagesOf {m : EnMsgType} {msgid : ℤ} (h : m ∈ messagesOf msgid) :
    ∃ request : EnMsgType, request.code = msgid ∧ m ∈ messages request := by
  unfold messagesOf at h
  cases hfind : handlersMap.find? fun h => h.1.code = msgid with
  | none => simp [hfind] at h
  | some p =>
    rw [hfind] at h
    exact ⟨p.1, by simpa using List.find?_some hfind, h⟩

theorem speaks_getHandler (msgid : ℤ) (conn : Conn) (js : Json) (time : String) :
    Speaks (messagesOf msgid) (getHandler msgid conn js time) := by
  unfold messagesOf getHandler
  cases hfind : handlersMap.find? fun h => h.1.code = msgid with
  | none => trivial
  | some h => exact speaks_of_mem conn js time (List.mem_of_find?_eq_some hfind)

/-- The ids of the messages that an activity can send. -/
def Activity.messages : Activity → List EnMsgType
  | .request _ msgid _ _ => messagesOf msgid
  | .heartbeat => [.clientLongtimeExit]
  | _ => []

/-- **What every activity can send.** -/
theorem Activity.speaks_body (a : Activity) : Speaks a.messages a.body := by
  cases a with
  | request conn msgid js time => exact speaks_getHandler msgid conn js time
  | connStatus conn status => simp [Speaks, body, setConnStatus]
  | removeConnStatus conn => simp [Speaks, body, Service.removeConnStatus]
  | down conn =>
    simp only [Speaks, body, clientClose, Program.safe_bind, Program.safe_perform]
    refine ⟨trivial, fun it _ => ?_⟩
    cases it with
    | none => simp
    | some userId => simp [setOffline]
  | heartbeat =>
    simp only [Speaks, body, checkIfConnAlive, Program.safe_bind, Program.safe_perform]
    refine ⟨trivial, fun conns _ => Program.safe_forM (fun conn _ => ?_) trivial⟩
    simp [dropConn, setOffline, messages]

/-- Only a login is answered with LOGIN_SUCCESS. -/
theorem eq_login_of_mem_messagesOf {msgid : ℤ} (h : .loginSuccess ∈ messagesOf msgid) :
    msgid = EnMsgType.loginMsg.code := by
  obtain ⟨request, rfl, hmem⟩ := exists_of_mem_messagesOf h
  have hrequest : request = .loginMsg := by
    revert hmem
    cases request <;> simp [messages]
  rw [hrequest]

end Chatroom.Service
