import Chatroom.Codec.Format
import Chatroom.Lib.Watch
import Chatroom.Service.Messages

/-!
# What the server makes of a request with its format

A handler that is given a request with the format of its id reads all the fields it asks for: it throws no exception
of the JSON library, whatever the tables, the maps and the system answer (`served_getHandler`).
-/

namespace Chatroom.Service

open Lib Json

/-- Nothing is asked of the commands; of the exceptions, those of the JSON library are ruled out. -/
def noJson : Watch Ans Fault Unit := ⟨fun _ _ => True, fun _ _ => (), fun _ _ => True, fun e _ => e = .undefined⟩

/-- Whatever it is answered, the program throws no exception of the JSON library. -/
def Served (p : Task Unit) : Prop := p.Watched noJson () fun _ _ => True

section

variable {α : Type} {post : α → Unit → Prop} {conn : Conn} {fields : List (String × Json)}

@[simp] theorem noJson_allowed (c : Cmd) (s : Unit) : noJson.allowed c s := trivial

@[simp] theorem noJson_answers (c : Cmd) (a : Ans c) : noJson.answers c a := trivial

@[simp] theorem noJson_next (c : Cmd) (s : Unit) : noJson.next c s = () := rfl

@[simp] theorem noJson_undefined (s : Unit) : noJson.thrown .undefined s := rfl

@[simp] theorem served_read_ok {a : α} : (read (.ok a)).Watched noJson () post ↔ post a () := .rfl

@[simp] theorem served_connUser {post : ℤ → Unit → Prop} :
    (connUser conn).Watched noJson () post ↔ ∀ u, post u () := by
  simp [connUser]

@[simp] theorem served_send {post : Unit → Unit → Prop} :
    (send conn fields).Watched noJson () post ↔ post () () :=
  ⟨fun h => h.2 () trivial, fun h => ⟨trivial, fun _ _ => h⟩⟩

@[simp] theorem served_sendMsg {m : EnMsgType} {post : Unit → Unit → Prop} :
    (sendMsg conn m).Watched noJson () post ↔ post () () := served_send

@[simp] theorem served_withConn {userid : ℤ} {found : Conn → Task Unit} {post : Unit → Unit → Prop} :
    (withConn userid found).Watched noJson () post ↔ (∀ d, (found d).Watched noJson () post) ∧ post () () := by
  constructor
  · exact fun h => ⟨fun d => h.2 (some d) trivial, h.2 none trivial⟩
  · rintro ⟨hsome, hnone⟩
    refine ⟨trivial, fun it _ => ?_⟩
    cases it with
    | none => exact hnone
    | some d => exact hsome d

@[simp] theorem served_sendToUser {userid : ℤ} {post : Unit → Unit → Prop} :
    (sendToUser userid fields).Watched noJson () post ↔ post () () := by
  simp [sendToUser]

@[simp] theorem served_hasRole {roles : List Role} {userid groupid : ℤ} {post : Bool → Unit → Prop} :
    (hasRole roles userid groupid).Watched noJson () post ↔
      ∀ role : Option Role, post (roles.any fun r => role = some r) () := by
  simp [hasRole]

theorem served_forM {l : List α} {body : α → Task PUnit} (h : ∀ a ∈ l, (body a).Watched noJson () fun _ _ => True)
    {post : PUnit → Unit → Prop} (hpost : post ⟨⟩ ()) : (forM l body).Watched noJson () post := by
  induction l with
  | nil => exact hpost
  | cons a l ih =>
    obtain ⟨ha, hl⟩ := List.forall_mem_cons.1 h
    rw [List.forM_cons, Program.watched_bind]
    exact ha.mono fun _ _ _ => ih hl

theorem served_selectUsers {vec : List ℤ} {post : List (List User) → Unit → Prop} (h : ∀ users, post users ()) :
    (vec.mapM fun id => perform (.selectUser id)).Watched noJson () post := by
  induction vec generalizing post with
  | nil => exact h []
  | cons id vec ih =>
    rw [List.mapM_cons, Program.watched_bind]
    refine ⟨trivial, fun users _ => ?_⟩
    rw [Program.watched_ret, Program.watched_bind]
    exact ih fun rest => h (users :: rest)

end

section Handlers

variable {js : Json} (conn : Conn) (time : String)

theorem served_of_mem {m : EnMsgType} {h : Handler} (hmem : (m, h) ∈ handlersMap)
    (hjs : Conforms (requestFormat m) js) : Served (h conn js time) := by
  have hint : ∀ key, (requestFormat m).lookup key = some (.scalar .int) → ∃ n, js.intField key = .ok n := by
    intro key hkey
    obtain ⟨n, -, -, hn⟩ := hjs.int key hkey
    exact ⟨n, hn⟩
  simp only [handlersMap, List.mem_cons, List.not_mem_nil, or_false, Prod.mk.injEq] at hmem
  rcases hmem with ⟨rfl, rfl⟩ | ⟨rfl, rfl⟩ | ⟨rfl, rfl⟩ | ⟨rfl, rfl⟩ | ⟨rfl, rfl⟩ | ⟨rfl, rfl⟩ | ⟨rfl, rfl⟩ | ⟨rfl, rfl⟩ |
    ⟨rfl, rfl⟩ | ⟨rfl, rfl⟩ | ⟨rfl, rfl⟩ | ⟨rfl, rfl⟩ | ⟨rfl, rfl⟩ | ⟨rfl, rfl⟩ | ⟨rfl, rfl⟩ | ⟨rfl, rfl⟩ |
    ⟨rfl, rfl⟩ | ⟨rfl, rfl⟩ | ⟨rfl, rfl⟩ | ⟨rfl, rfl⟩ | ⟨rfl, rfl⟩ | ⟨rfl, rfl⟩ | ⟨rfl, rfl⟩ | ⟨rfl, rfl⟩ |
    ⟨rfl, rfl⟩ | ⟨rfl, rfl⟩ | ⟨rfl, rfl⟩ | ⟨rfl, rfl⟩ | ⟨rfl, rfl⟩ | ⟨rfl, rfl⟩ | ⟨rfl, rfl⟩ | ⟨rfl, rfl⟩
  · obtain ⟨name, hname⟩ := hjs.string "name" rfl
    obtain ⟨pwd, hpwd⟩ := hjs.string "password" rfl
    simp only [Served, reg, hname, hpwd, Program.watched_bind, served_read_ok]
    refine ⟨trivial, fun id _ => ?_⟩
    cases id <;> simp
  · obtain ⟨name, hname⟩ := hjs.string "name" rfl
    obtain ⟨pwd, hpwd⟩ := hjs.string "password" rfl
    simp [Served, login, hname, hpwd, served_forM]
  · simp [Served, handleDisplayAllUserList]
  · obtain ⟨name, hname⟩ := hjs.string "add_name" rfl
    simp [Served, handleAddFriend, hname]
  · obtain ⟨id, hid⟩ := hint "del_id" rfl
    simp [Served, handleDeleteFriend, hid]
  · obtain ⟨msg, hmsg⟩ := hjs.string "msg" rfl
    obtain ⟨fromName, hfrom⟩ := hjs.string "from_name" rfl
    obtain ⟨id, hid⟩ := hint "id" rfl
    simp [Served, handlePrivateChat, hmsg, hfrom, hid]
  · simp [Served, handleDisplayFriendList]
  · simp only [Served, handleFriendRequestList, requestQuery, Program.watched_bind, served_connUser]
    exact fun id => ⟨trivial, fun vec _ => served_selectUsers fun users => by simp⟩
  · obtain ⟨id, hid⟩ := hint "block_id" rfl
    simp [Served, handleBlockFriend, hid]
  · obtain ⟨id, hid⟩ := hint "unblock_id" rfl
    simp [Served, handleUnBlockFriend, hid]
  · simp only [Served, handleBlockFriendList, blockQuery, Program.watched_bind, served_connUser]
    exact fun id => ⟨trivial, fun vec _ => served_selectUsers fun users => by simp⟩
  · obtain ⟨id, hid⟩ := hint "check_id" rfl
    simp [Served, handleCheckBlock, hid]
  · obtain ⟨name, hname⟩ := hjs.string "groupname" rfl
    simp only [Served, handleCreateGroup, hname, Program.watched_bind, served_read_ok, served_connUser]
    refine fun userid => ⟨trivial, fun group _ => ?_⟩
    cases group <;> simp
  · simp [Served, handleDisplayAllGroupList]
  · obtain ⟨groupid, hgroupid⟩ := hint "add_group_id" rfl
    have hnotify : ∀ groupid userid, (responseToMasterOrManager groupid userid).Watched noJson () fun _ _ => True :=
      fun groupid userid => ⟨trivial, fun userVec _ => served_forM (fun user _ => by simp) trivial⟩
    simp [Served, requestAddGroup, ifMasterOrManagerORnormal, hgroupid, hnotify]
  · obtain ⟨groupid, hgroupid⟩ := hint "groupid" rfl
    simp [Served, handleGroupRequestList, ifMasterOrManager, hgroupid]
  · obtain ⟨groupid, hgroupid⟩ := hint "groupid" rfl
    obtain ⟨userid, huserid⟩ := hint "userid" rfl
    simp [Served, handleAddSomeoneToGroup, ifMasterOrManager, hgroupid, huserid]
  · obtain ⟨groupid, hgroupid⟩ := hint "groupid" rfl
    simp [Served, handleQuitGroup, ifManagerOrNormal, hgroupid]
  · simp [Served, handleShowOwnGroupList]
  · obtain ⟨groupid, hgroupid⟩ := hint "groupid" rfl
    simp [Served, handleShowGroupMemberList, ifMasterOrManagerORnormal, hgroupid]
  · obtain ⟨groupid, hgroupid⟩ := hint "groupid" rfl
    simp [Served, handleDisplaySetManagerMemberList, ifMaster, hgroupid]
  · obtain ⟨groupid, hgroupid⟩ := hint "groupid" rfl
    obtain ⟨userid, huserid⟩ := hint "userid" rfl
    simp [Served, handleSetManager, hgroupid, huserid]
  · obtain ⟨groupid, hgroupid⟩ := hint "groupid" rfl
    obtain ⟨userid, huserid⟩ := hint "userid" rfl
    simp [Served, handleCancelManager, ifManager, hgroupid, huserid]
  · obtain ⟨groupid, hgroupid⟩ := hint "groupid" rfl
    obtain ⟨userid, huserid⟩ := hint "userid" rfl
    simp [Served, handleKickSomeoneInGroup, kick, hgroupid, huserid]
  · obtain ⟨groupid, hgroupid⟩ := hint "groupid" rfl
    simp [Served, handleCheckIfGroupMember, hgroupid]
  · obtain ⟨groupid, hgroupid⟩ := hint "groupid" rfl
    obtain ⟨msg, hmsg⟩ := hjs.string "msg" rfl
    obtain ⟨fromName, hfrom⟩ := hjs.string "from_name" rfl
    simp [Served, handleGroupChat, hgroupid, hmsg, hfrom, served_forM]
  · obtain ⟨groupid, hgroupid⟩ := hint "groupid" rfl
    simp [Served, handleMasterDeleteGroup, ifMaster, hgroupid]
  · obtain ⟨sender, hsender⟩ := hint "sender" rfl
    obtain ⟨receiver, hreceiver⟩ := hint "receiver" rfl
    obtain ⟨filename, hfilename⟩ := hjs.string "filename" rfl
    simp [Served, handleSendFileDataBase, hsender, hreceiver, hfilename]
  · simp [Served, handleDisplayFileList]
  · obtain ⟨filename, hfilename⟩ := hjs.string "filename" rfl
    simp only [Served, handleReceiveFile, hfilename, Program.watched_bind, served_read_ok, Program.watched_perform,
      Program.watched_ite, noJson_allowed, noJson_answers, noJson_next, served_sendMsg, true_and, true_implies,
      implies_true]
    refine fun opened _ size => ?_
    cases size <;> simp
  · obtain ⟨id, hid⟩ := hint "id" rfl
    simp [Served, handleDisplayPrivateHistory, hid]
  · obtain ⟨groupid, hgroupid⟩ := hint "groupid" rfl
    simp [Served, handleDisplayGroupHistory, hgroupid]

/-- **A request with its format is read without an exception of the JSON library**, whichever handler it is for. -/
theorem served_getHandler {m : EnMsgType} (hjs : Conforms (requestFormat m) js) :
    Served (getHandler m.code conn js time) := by
  unfold getHandler
  cases hfind : handlersMap.find? fun h => h.1.code = m.code with
  | none => trivial
  | some h =>
    have hcode : h.1.code = m.code := by simpa using List.find?_some hfind
    obtain rfl : h.1 = m := EnMsgType.code_injective hcode
    exact served_of_mem conn time (List.mem_of_find?_eq_some hfind) hjs

end Handlers

end Chatroom.Service
