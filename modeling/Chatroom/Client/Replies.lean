import Mathlib.Data.List.Forall2
import Chatroom.Client.Menu
import Chatroom.Codec.Format
import Chatroom.Codec.JsonCodec

/-!
# The thread of the event loop: `handleServerMessage`

What the client makes of a message of the server, whatever the message is, and that it makes something of every
message that has its format: `onMessage` of the codec and `handleServerMessage` throw nothing, and a list is shown as
the server wrote it (`received_of_conforms`).
-/

namespace Chatroom

/-- The enumerator with this value. -/
def EnMsgType.ofCode (code : ℤ) : Option EnMsgType :=
  let m := EnMsgType.ofNat code.toNat
  if m.code = code then some m else none

@[simp] theorem EnMsgType.ofCode_code (m : EnMsgType) : EnMsgType.ofCode m.code = some m := by
  have hnat : m.code.toNat = m.ctorIdx := rfl
  have hm : EnMsgType.ofNat m.code.toNat = m := by rw [hnat, EnMsgType.ofNat_ctorIdx]
  simp only [ofCode, hm, if_true]

theorem EnMsgType.code_of_ofCode {code : ℤ} {m : EnMsgType} (h : EnMsgType.ofCode code = some m) : m.code = code := by
  simp only [ofCode] at h
  split_ifs at h with hcode
  obtain rfl := Option.some.inj h
  exact hcode

namespace Client.Replies

open Json

/-- What `handleServerMessage` does to the globals and shows of lists and chats, one access at a time. -/
inductive Effect where
  | post (sem : Sem)
  | store (flag : Atomic) (value : Bool)
  /-- `if_friend = value || if_block` -/
  | storeIfFriend (value : Bool)
  /-- `CurrentUser.setId` -/
  | setId (id : ℤ)
  /-- `CurrentUser.setName` -/
  | setName (name : String)
  /-- `checkIfBlock(client, private_chat_id)` -/
  | checkIfBlock
  /-- `if(CurrentGroupChatId == js["groupid"]) if_group_member = false` -/
  | kicked (groupid : Json)
  /-- the rows of a list -/
  | display (rows : List (List Json))
  /-- `handlePrivateChat` -/
  | privateChat (time fromName msg : String)
  /-- `handleGroupChat` -/
  | groupChat (time fromName : String) (groupid : ℤ) (msg : String)
  /-- `client->disconnect()` and `ExitChatRoom()` -/
  | exitChatRoom

/-! ## The switch -/

/-- `get<bool>()` -/
def getBool : Json → Except Exn Bool
  | .bool b => .ok b
  | _ => .error .typeError

/-- `std::vector<std::string> vec = js[key]` -/
def stringsField (js : Json) (key : String) : Except Exn (List String) := do
  let value ← js.field key
  match value with
  | .arr items => items.mapM getString
  | _ => .error .typeError

/-- The loop of a display function: each string is parsed, and the values at `keys` are shown. -/
def showRows (lib : JsonLib) (keys vec : List String) : Except Exn (List (List Json)) :=
  vec.mapM fun str => do
    let js ← lib.parse (utf8 str.toList)
    keys.mapM js.field

/-- A display function: `vec = js[key]`, and the loop. -/
def displayList (lib : JsonLib) (key : String) (keys : List String) (js : Json) : Except Exn (List (List Json)) := do
  let vec ← stringsField js key
  showRows lib keys vec

section

variable (lib : JsonLib)

def displayAllUserList := displayList lib "users" ["id", "name", "state"]
def displayFriendList := displayList lib "friends" ["id", "name", "state"]
/-- `displayRequestList`; for an empty list it writes that there is none. -/
def displayRequestList := displayList lib "requests" ["id", "name"]
def displayBlockList := displayList lib "blocks" ["id", "name"]
def displayAllGroupList := displayList lib "groups" ["id", "name"]
def displayOwnGroupList := displayList lib "groups" ["id", "name"]
def displayGroupMemberList := displayList lib "members" ["id", "name", "role"]
def displayFileList := displayList lib "files" ["filename", "sender", "receiver", "time"]
def displayPrivateChatHistory := displayList lib "history" ["time", "from", "to", "msg"]
def displayGroupChatHistory := displayList lib "history" ["time", "from", "groupid", "msg"]

/-- `displayGroupRequestList`, which returns 0 for an empty list and 1 for others. -/
def displayGroupRequestList (js : Json) : Except Exn (List (List Json) × Bool) := do
  let rows ← displayList lib "requests" ["id", "name"] js
  return (rows, rows ≠ [])

/-- `UserInit` -/
def UserInit (js : Json) : Except Exn (List Effect) := do
  let id ← js.intField "id"
  let name ← js.stringField "name"
  return [.setId id, .setName name]

def handlePrivateChat (js : Json) : Except Exn (List Effect) := do
  let fromName ← js.stringField "from_name"
  let msg ← js.stringField "msg"
  let time ← js.stringField "time"
  return [.privateChat time fromName msg]

def handleGroupChat (js : Json) : Except Exn (List Effect) := do
  let fromName ← js.stringField "from_name"
  let msg ← js.stringField "msg"
  let time ← js.stringField "time"
  let groupid ← js.intField "groupid"
  return [.groupChat time fromName groupid msg]

/-- The cases of the `switch`. Those that only write a line, and perhaps a field, are one. -/
def handle (js : Json) : EnMsgType → Except Exn (List Effect)
  | .regSuccess => return [.post .reg]
  | .regFail => return [.post .reg]
  | .loginSuccess => do
    let user ← UserInit js
    return .store .loginFlag true :: user ++ [.post .login]
  | .loginRepeat => return [.store .loginFlag false, .post .login]
  | .loginFail => return [.store .loginFlag false, .post .login]
  | .displayAlluserList => do return [.display (← displayAllUserList lib js), .post .showAllUserList]
  | .blockFriendSuccess => return [.checkIfBlock]
  | .unblockFriendSuccess => return [.checkIfBlock]
  | .privateChat => handlePrivateChat js
  | .groupChat => handleGroupChat js
  | .friendRequestList => do return [.display (← displayRequestList lib js), .post .showRequestList]
  | .displayFriendList => do return [.display (← displayFriendList lib js), .post .showFriendList]
  | .blockFriendList => do return [.display (← displayBlockList lib js), .post .showBlockList]
  | .checkBlock => return [.store .ifBlock (someState js "block"), .storeIfFriend (someState js "friend"),
      .post .checkIfBlock]
  | .displayAllgroupList => do return [.display (← displayAllGroupList lib js), .post .showAllGroupList]
  | .displayGroupRequest => do
    let (rows, any) ← displayGroupRequestList lib js
    return [.display rows, .store .ifMasterOrManager any, .post .addSomeoneToGroup]
  | .displayGroupRequestFail => return [.store .ifMasterOrManager false, .post .addSomeoneToGroup]
  | .displayOwnGroupList => do return [.display (← displayOwnGroupList lib js), .post .showOwnGroupList]
  | .displayGroupMemberList => do return [.display (← displayGroupMemberList lib js)]
  | .displaySetManagerMemberFail => return [.store .ifMaster false, .post .setManager]
  | .displaySetManagerMemberList => do
    return [.display (← displayGroupMemberList lib js), .store .ifMaster true, .post .setManager]
  | .checkIfGroupMember => do
    let value ← js.field "state"
    let state ← getBool value
    return [.store .ifGroupMember state, .post .checkGroupMember]
  | .viewFile => do return [.display (← displayFileList lib js), .post .showFileList]
  | .receiveFileFinish => return [.post .receiveFile]
  | .receiveFileFail => return [.post .receiveFile]
  | .displayPrivateHistory => do return [.display (← displayPrivateChatHistory lib js)]
  | .displayGroupHistory => do return [.display (← displayGroupChatHistory lib js)]
  | .clientLongtimeExit => return [.exitChatRoom]
  | .kickSomeoneNotice => do
    let groupid ← js.field "groupid"
    return [.kicked groupid]
  | _ => return []

/-- `handleServerMessage` -/
def handleServerMessage (js : Json) : Except Exn (List Effect) := do
  let msgid ← js.intField "msgid"
  match EnMsgType.ofCode msgid with
  | some m => handle lib js m
  | none => return []

/-- What `JsonCodec::onMessage` does with a line after `json::parse`, without the bytes of files: the lines around a
file are its own. -/
def onJsonMessage (js : Json) : Except Exn (List Effect) := do
  let msgid ← js.intField "msgid"
  if msgid = EnMsgType.sendFileServer.code then
    let _ ← js.stringField "filename"
    let _ ← js.sizeField "filesize"
    return []
  else if msgid = EnMsgType.sendFileEnd.code then
    return []
  else
    handleServerMessage lib js

end

/-! ## Rows are shown as they were written -/

/-- What a list shows of its rows. -/
def shown (keys : List String) (items : List (List (String × Json))) : List (List Json) :=
  items.map fun fields => keys.map fun key => (fields.lookup key).getD .null

theorem mapM_map_ok {α β γ : Type} {f : β → Except Exn γ} {g : α → β} {h : α → γ} {l : List α}
    (hf : ∀ a ∈ l, f (g a) = .ok (h a)) : (l.map g).mapM f = .ok (l.map h) := by
  induction l with
  | nil => rfl
  | cons a l ih =>
    obtain ⟨ha, hl⟩ := List.forall_mem_cons.1 hf
    rw [List.map_cons, List.mapM_cons, ha, ih hl]
    rfl

variable (strtod : Strtod)

/-- A list of rows that the library reads back is shown as it is. -/
theorem displayList_rows {js : Json} {key : String} (keys : List String) {items : List (List (String × Json))}
    (hvalid : ∀ fields ∈ items, Valid False (.obj fields)) (h : js.field key = .ok (.arr (items.map rowText))) :
    displayList (nlohmann strtod) key keys js = .ok (shown keys items) := by
  have hstrings : stringsField js key = .ok (items.map fun fields => String.ofList (Json.obj fields).text) := by
    rw [stringsField, h]
    exact mapM_map_ok fun fields _ => rfl
  have hrow : ∀ fields ∈ items, (do
      let js ← (nlohmann strtod).parse (utf8 (String.ofList (Json.obj fields).text).toList)
      keys.mapM js.field) = .ok (keys.map fun key => (fields.lookup key).getD .null) := by
    intro fields hmem
    have hparse : (nlohmann strtod).parse (utf8 (String.ofList (Json.obj fields).text).toList) = .ok (.obj fields) := by
      rw [String.toList_ofList]
      exact parse_dump strtod (hvalid fields hmem)
    have hfields := mapM_map_ok (g := id) (f := (Json.obj fields).field)
      (h := fun key => (fields.lookup key).getD .null) (l := keys) fun key _ => rfl
    rw [List.map_id] at hfields
    rw [hparse]
    exact hfields
  rw [displayList, hstrings]
  exact mapM_map_ok hrow

theorem valid_row {row : List (String × Scalar)} (hsorted : (row.map Prod.fst).Pairwise keyLt)
    {fields : List (String × Json)} (h : HaveTypes Scalar.Holds row fields) : Valid False (.obj fields) :=
  h.valid hsorted fun _ _ _ => Scalar.Holds.valid

theorem displayList_of_conforms {format : Format} {js : Json} (h : Conforms format js) (key : String)
    {row : List (String × Scalar)} (ht : format.lookup key = some (.rows row))
    (hsorted : (row.map Prod.fst).Pairwise keyLt) (keys : List String) :
    ∃ rows, displayList (nlohmann strtod) key keys js = .ok rows := by
  obtain ⟨value, hvalue, items, hitems, rfl⟩ := h.field key ht
  exact ⟨_, displayList_rows strtod keys (fun fields hmem => valid_row hsorted (hitems fields hmem)) hvalue⟩

/-! ## What has its format is handled -/

theorem bind_eq_ok {α β : Type} {x : Except Exn α} {f : α → Except Exn β} {b : β} :
    x >>= f = .ok b ↔ ∃ a, x = .ok a ∧ f a = .ok b := by
  cases x with
  | error e => exact ⟨fun h => absurd h (by simp [bind, Except.bind]), by simp⟩
  | ok a => exact ⟨fun h => ⟨a, rfl, h⟩, fun ⟨_, ha, h⟩ => Except.ok.inj ha ▸ h⟩

/-- A message with its format is handled without an exception. -/
theorem handle_of_conforms {m : EnMsgType} {js : Json} (h : Conforms (replyFormat m) js) :
    ∃ effects, handle (nlohmann strtod) js m = .ok effects := by
  have hlist : ∀ key {row} {keys : List String} {next : List (List Json) → List Effect},
      (replyFormat m).lookup key = some (.rows row) → (row.map Prod.fst).Pairwise keyLt →
      ∃ effects, (displayList (nlohmann strtod) key keys js >>= fun rows => .ok (next rows)) = .ok effects := by
    intro key row keys next ht hsorted
    obtain ⟨rows, hrows⟩ := displayList_of_conforms strtod h key ht hsorted keys
    exact ⟨_, bind_eq_ok.2 ⟨rows, hrows, rfl⟩⟩
  cases m
  case loginSuccess =>
    obtain ⟨id, -, -, hid⟩ := h.int "id" rfl
    obtain ⟨name, hname⟩ := h.string "name" rfl
    exact ⟨_, bind_eq_ok.2 ⟨_, bind_eq_ok.2 ⟨id, hid, bind_eq_ok.2 ⟨name, hname, rfl⟩⟩, rfl⟩⟩
  case displayAlluserList => exact hlist "users" rfl (by decide)
  case friendRequestList => exact hlist "requests" rfl (by decide)
  case displayFriendList => exact hlist "friends" rfl (by decide)
  case blockFriendList => exact hlist "blocks" rfl (by decide)
  case displayAllgroupList | displayOwnGroupList => exact hlist "groups" rfl (by decide)
  case displayGroupMemberList | displaySetManagerMemberList => exact hlist "members" rfl (by decide)
  case viewFile => exact hlist "files" rfl (by decide)
  case displayPrivateHistory | displayGroupHistory => exact hlist "history" rfl (by decide)
  case displayGroupRequest =>
    obtain ⟨rows, hrows⟩ := displayList_of_conforms strtod h "requests" rfl (by decide) ["id", "name"]
    exact ⟨_, bind_eq_ok.2 ⟨_, bind_eq_ok.2 ⟨rows, hrows, rfl⟩, rfl⟩⟩
  case privateChat =>
    obtain ⟨fromName, hfrom⟩ := h.string "from_name" rfl
    obtain ⟨msg, hmsg⟩ := h.string "msg" rfl
    obtain ⟨time, htime⟩ := h.string "time" rfl
    exact ⟨_, bind_eq_ok.2 ⟨_, hfrom, bind_eq_ok.2 ⟨_, hmsg, bind_eq_ok.2 ⟨_, htime, rfl⟩⟩⟩⟩
  case groupChat =>
    obtain ⟨fromName, hfrom⟩ := h.string "from_name" rfl
    obtain ⟨msg, hmsg⟩ := h.string "msg" rfl
    obtain ⟨time, htime⟩ := h.string "time" rfl
    obtain ⟨groupid, -, -, hgroup⟩ := h.int "groupid" rfl
    exact ⟨_, bind_eq_ok.2 ⟨_, hfrom, bind_eq_ok.2 ⟨_, hmsg, bind_eq_ok.2 ⟨_, htime,
      bind_eq_ok.2 ⟨_, hgroup, rfl⟩⟩⟩⟩⟩
  case checkIfGroupMember =>
    obtain ⟨value, hvalue, b, rfl⟩ := h.field "state" rfl
    exact ⟨_, bind_eq_ok.2 ⟨_, hvalue, rfl⟩⟩
  case kickSomeoneNotice =>
    obtain ⟨value, hvalue, -⟩ := h.field "groupid" rfl
    exact ⟨_, bind_eq_ok.2 ⟨_, hvalue, rfl⟩⟩
  all_goals exact ⟨_, rfl⟩

theorem handleServerMessage_of_conforms {m : EnMsgType} {js : Json} (h : Conforms (replyFormat m) js) :
    handleServerMessage (nlohmann strtod) js = handle (nlohmann strtod) js m := by
  rw [handleServerMessage, h.msgid (lookup_msgid_replyFormat m)]
  show (match EnMsgType.ofCode m.code with
    | some m => handle (nlohmann strtod) js m
    | none => .ok []) = _
  rw [EnMsgType.ofCode_code]

/-- **A message with its format is read without an exception.** -/
theorem onJsonMessage_of_conforms {m : EnMsgType} {js : Json} (h : Conforms (replyFormat m) js) :
    ∃ effects, onJsonMessage (nlohmann strtod) js = .ok effects := by
  have hmsgid := h.msgid (lookup_msgid_replyFormat m)
  by_cases hserver : m = .sendFileServer
  · subst hserver
    obtain ⟨filename, hfilename⟩ := h.string "filename" rfl
    obtain ⟨fileSize, hsize⟩ := h.size "filesize" rfl
    refine ⟨[], bind_eq_ok.2 ⟨_, hmsgid, ?_⟩⟩
    rw [if_pos rfl]
    exact bind_eq_ok.2 ⟨_, hfilename, bind_eq_ok.2 ⟨_, hsize, rfl⟩⟩
  · obtain ⟨effects, heffects⟩ := handle_of_conforms strtod h
    refine ⟨if m = .sendFileEnd then [] else effects, bind_eq_ok.2 ⟨_, hmsgid, ?_⟩⟩
    rw [if_neg (EnMsgType.code_inj.not.2 hserver)]
    by_cases hend : m = .sendFileEnd
    · rw [if_pos (EnMsgType.code_inj.2 hend), if_pos hend]
      rfl
    · rw [if_neg (EnMsgType.code_inj.not.2 hend), if_neg hend, handleServerMessage_of_conforms strtod h]
      exact heffects

/-! ## Semaphores -/

/-- The semaphore that a message posts. -/
def posted : EnMsgType → Option Sem
  | .regSuccess | .regFail => some .reg
  | .loginSuccess | .loginRepeat | .loginFail => some .login
  | .displayAlluserList => some .showAllUserList
  | .friendRequestList => some .showRequestList
  | .displayFriendList => some .showFriendList
  | .blockFriendList => some .showBlockList
  | .checkBlock => some .checkIfBlock
  | .displayAllgroupList => some .showAllGroupList
  | .displayGroupRequest | .displayGroupRequestFail => some .addSomeoneToGroup
  | .displayOwnGroupList => some .showOwnGroupList
  | .displaySetManagerMemberFail | .displaySetManagerMemberList => some .setManager
  | .checkIfGroupMember => some .checkGroupMember
  | .viewFile => some .showFileList
  | .receiveFileFinish | .receiveFileFail => some .receiveFile
  | _ => none

/-- The semaphores that are posted. -/
def posts (effects : List Effect) : List Sem :=
  effects.filterMap fun | .post sem => some sem | _ => none

/-- A message posts one semaphore or none, and which one depends on its id only; the user's id is an `int`. -/
theorem effects_handle {lib : JsonLib} {js : Json} {m : EnMsgType} {effects : List Effect}
    (h : handle lib js m = .ok effects) :
    posts effects = (posted m).toList ∧ ∀ id, .setId id ∈ effects → IsInt id := by
  cases m
  case loginSuccess =>
    obtain ⟨user, huser, h⟩ := bind_eq_ok.1 h
    obtain ⟨id, hid, huser⟩ := bind_eq_ok.1 huser
    obtain ⟨name, -, huser⟩ := bind_eq_ok.1 huser
    obtain rfl := Except.ok.inj huser
    obtain rfl := Except.ok.inj h
    exact ⟨rfl, by simpa using isInt_intField hid⟩
  case displayAlluserList | displayFriendList | friendRequestList | blockFriendList | displayAllgroupList
      | displayOwnGroupList | displayGroupMemberList | displaySetManagerMemberList | viewFile
      | displayPrivateHistory | displayGroupHistory | displayGroupRequest | kickSomeoneNotice =>
    obtain ⟨_, -, h⟩ := bind_eq_ok.1 h
    obtain rfl := Except.ok.inj h
    exact ⟨rfl, by simp⟩
  case privateChat =>
    obtain ⟨_, -, h⟩ := bind_eq_ok.1 h
    obtain ⟨_, -, h⟩ := bind_eq_ok.1 h
    obtain ⟨_, -, h⟩ := bind_eq_ok.1 h
    obtain rfl := Except.ok.inj h
    exact ⟨rfl, by simp⟩
  case groupChat =>
    obtain ⟨_, -, h⟩ := bind_eq_ok.1 h
    obtain ⟨_, -, h⟩ := bind_eq_ok.1 h
    obtain ⟨_, -, h⟩ := bind_eq_ok.1 h
    obtain ⟨_, -, h⟩ := bind_eq_ok.1 h
    obtain rfl := Except.ok.inj h
    exact ⟨rfl, by simp⟩
  case checkIfGroupMember =>
    obtain ⟨_, -, h⟩ := bind_eq_ok.1 h
    obtain ⟨_, -, h⟩ := bind_eq_ok.1 h
    obtain rfl := Except.ok.inj h
    exact ⟨rfl, by simp⟩
  all_goals
    obtain rfl := Except.ok.inj h
    exact ⟨rfl, by simp⟩

/-- What is read of any message posts what its id says. -/
theorem effects_onJsonMessage {lib : JsonLib} {js : Json} {effects : List Effect}
    (h : onJsonMessage lib js = .ok effects) {msgid : ℤ} (hmsgid : js.intField "msgid" = .ok msgid) :
    posts effects = ((EnMsgType.ofCode msgid).bind posted).toList ∧ ∀ id, .setId id ∈ effects → IsInt id := by
  obtain ⟨n, hn, h⟩ := bind_eq_ok.1 h
  obtain rfl := Except.ok.inj (hmsgid.symm.trans hn)
  split_ifs at h with hserver hend
  · obtain ⟨_, -, h⟩ := bind_eq_ok.1 h
    obtain ⟨_, -, h⟩ := bind_eq_ok.1 h
    obtain rfl := Except.ok.inj h
    rw [hserver, EnMsgType.ofCode_code]
    exact ⟨rfl, by simp⟩
  · obtain rfl := Except.ok.inj h
    rw [hend, EnMsgType.ofCode_code]
    exact ⟨rfl, by simp⟩
  · obtain ⟨n, hn, h⟩ := bind_eq_ok.1 h
    obtain rfl := Except.ok.inj (hmsgid.symm.trans hn)
    cases hcode : EnMsgType.ofCode msgid with
    | none =>
      rw [hcode] at h
      obtain rfl := Except.ok.inj h
      exact ⟨rfl, by simp⟩
    | some m =>
      rw [hcode] at h
      exact effects_handle h

theorem exists_msgid_of_onJsonMessage {lib : JsonLib} {js : Json} {effects : List Effect}
    (h : onJsonMessage lib js = .ok effects) : ∃ msgid, js.intField "msgid" = .ok msgid := by
  obtain ⟨n, hn, -⟩ := bind_eq_ok.1 h
  exact ⟨n, hn⟩

end Client.Replies

end Chatroom
