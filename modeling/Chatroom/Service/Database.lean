import Chatroom.Lib.Table
import Chatroom.History.ChatRecord

/-!
# The tables and the statements on them

The tables of `init.sql` and the statements that `UserModel`, `FriendModel`, `GroupModel`, `FileModel` and
`HistoryModel` send, as they are meant: a string put into a statement stands for the value of its literal. Four of
them put in a text of a client as it is, and are read so only where it stays inside its literal (`execSql`). Names are
compared by their weights under the collation of the tables, `collate`. A statement fails only when it violates a key.
`SELECT`s list rows in the order of the table; where the program asks for an order, by that order.
-/

namespace Chatroom.Service

open Lib History

inductive UserState where
  | online | offline
  deriving DecidableEq

inductive FriendState where
  | request | friend | block
  deriving DecidableEq

inductive Role where
  | master | manager | normal | request
  deriving DecidableEq

def UserState.text : UserState → String
  | .online => "online"
  | .offline => "offline"

def FriendState.text : FriendState → String
  | .request => "request"
  | .friend => "friend"
  | .block => "block"

def Role.text : Role → String
  | .master => "master"
  | .manager => "manager"
  | .normal => "normal"
  | .request => "request"

/-! ## The classes that hold rows -/

/-- `User`, with the defaults of its constructor. -/
structure User where
  id : ℤ := -1
  name : String := ""
  password : String := ""
  state : String := "offline"

/-- `Group` -/
structure Group where
  id : ℤ := -1
  name : String := ""
  grouprole : String := ""

/-- `File` -/
structure FileRecord where
  senderId : ℤ
  receiverId : ℤ
  fileName : String
  createTime : String

/-- `PrivateChatHistory` and `GroupChatHistory`: sender and receiver, or group and sender. -/
structure ChatHistory where
  id₁ : ℤ
  id₂ : ℤ
  message : String
  sendTime : String

/-! ## The tables -/

structure UserRow where
  name : String
  password : String
  state : UserState

structure FileRow where
  senderid : ℤ
  receiverid : ℤ
  createdAt : String

structure Db where
  user : AutoTable UserRow
  /-- by `userid` and `friendid` -/
  friend : Table (ℤ × ℤ) FriendState
  allGroup : AutoTable String
  /-- by `groupid` and `userid` -/
  groupUser : Table (ℤ × ℤ) Role
  /-- by `filename` -/
  fileTransfers : Table String FileRow
  privateChatHistory : List ChatHistory
  groupChatHistory : List ChatHistory

def Db.empty : Db := ⟨.empty 3 (by decide), ∅, .empty 3 (by decide), ∅, ∅, [], []⟩

namespace Db

variable (collate : String → String) (db : Db)

/-! ### `UserModel` -/

/-- `UserModel::insert`, of a name and a password that stay inside their literals. -/
def insertUser (name password : String) (state : UserState) : Option ℤ × Db :=
  let refused := db.user.rows.any fun r => collate r.2.name = collate name
  (if refused then none else some db.user.next, { db with user := db.user.insert refused ⟨name, password, state⟩ })

/-- `UserModel::query(int)` -/
def queryUser (id : ℤ) : User :=
  match db.user.lookup id with
  | some r => ⟨id, r.name, r.password, r.state.text⟩
  | none => {}

/-- `UserModel::query(std::string)`, of a name that stays inside its literal. -/
def queryUserByName (name : String) : User :=
  match db.user.rows.find? fun r => collate r.2.name = collate name with
  | some (id, r) => ⟨id, r.name, r.password, r.state.text⟩
  | none => {}

/-- `UserModel::query()` -/
def queryUsers : List User := db.user.rows.map fun (id, r) => { id, name := r.name, state := r.state.text }

def updateState (id : ℤ) (state : UserState) : Db :=
  { db with user := db.user.modify id fun r => { r with state } }

def resetState : Db :=
  { db with user := db.user.mapRows fun _ r => { r with state := .offline } }

/-! ### `FriendModel` -/

def insertFriend (userid friendid : ℤ) (state : FriendState) : Db :=
  { db with friend := db.friend.insertIgnore (userid, friendid) state }

def modifyFriend (userid friendid : ℤ) (state : FriendState) : Db :=
  { db with friend := db.friend.modify (userid, friendid) fun _ => state }

def deleteEach (userid friendid : ℤ) : Db :=
  { db with friend := db.friend.deleteWhere fun k => k = (userid, friendid) ∨ k = (friendid, userid) }

/-- `FriendModel::query` -/
def queryFriends (userid : ℤ) : List User :=
  db.friend.rows.filterMap fun ((a, b), state) =>
    if a = userid ∧ state ≠ .block then
      (db.user.lookup b).map fun r => { id := b, name := r.name, state := r.state.text }
    else none

/-- The first statement of `FriendModel::requestQuery`. -/
def friendRequesters (friendid : ℤ) : List ℤ :=
  db.friend.rows.filterMap fun ((a, b), state) => if b = friendid ∧ state = .request then some a else none

/-- The first statement of `FriendModel::blockQuery`. -/
def blockedFriends (userid : ℤ) : List ℤ :=
  db.friend.rows.filterMap fun ((a, b), state) => if a = userid ∧ state = .block then some b else none

/-- The second statement of both; `row[2]`, which they take for the state, is the password. -/
def selectUser (id : ℤ) : List User :=
  (db.user.lookup id).toList.map fun r => { id, name := r.name, state := r.password }

/-- `FriendModel::getState`, `none` for the empty string. -/
def friendState (userid friendid : ℤ) : Option FriendState := db.friend.lookup (userid, friendid)

/-! ### `GroupModel` -/

/-- `GroupModel::createGroup`, of a name that stays inside its literal. -/
def createGroup (name : String) : Option ℤ × Db :=
  let refused := db.allGroup.rows.any fun r => collate r.2 = collate name
  (if refused then none else some db.allGroup.next, { db with allGroup := db.allGroup.insert refused name })

/-- `GroupModel::addGroup` -/
def addGroup (userid groupid : ℤ) (role : Role) : Bool × Db :=
  ((db.groupUser.lookup (groupid, userid)).isNone,
    { db with groupUser := db.groupUser.insertIgnore (groupid, userid) role })

def modifyGroupRole (userid groupid : ℤ) (role : Role) : Db :=
  { db with groupUser := db.groupUser.modify (groupid, userid) fun _ => role }

def queryAllGroup : List Group := db.allGroup.rows.map fun (id, name) => { id, name }

def queryOwnGroup (userid : ℤ) : List Group :=
  db.groupUser.rows.filterMap fun ((groupid, u), role) =>
    if u = userid then (db.allGroup.lookup groupid).map fun name => ⟨groupid, name, role.text⟩ else none

/-- `queryGroupRequest` and `queryGroupMember`: the users whose role in the group passes, with the role for
their state. -/
def selectGroupUsers (groupid : ℤ) (p : Role → Bool) : List User :=
  db.groupUser.rows.filterMap fun ((g, u), role) =>
    if g = groupid ∧ p role then
      (db.user.lookup u).map fun r => { id := u, name := r.name, state := role.text }
    else none

/-- `GroupModel::queryGroupRole`, `none` for the empty string. -/
def queryGroupRole (userid groupid : ℤ) : Option Role := db.groupUser.lookup (groupid, userid)

def deleteGroupMember (userid groupid : ℤ) : Db :=
  { db with groupUser := db.groupUser.erase (groupid, userid) }

/-- The first statement of `GroupModel::deleteGroup`. -/
def deleteAllGroup (groupid : ℤ) : Db := { db with allGroup := db.allGroup.erase groupid }

/-- The second statement of `GroupModel::deleteGroup`. -/
def deleteGroupUsers (groupid : ℤ) : Db :=
  { db with groupUser := db.groupUser.deleteWhere fun k => k.1 = groupid }

/-! ### `FileModel` and `HistoryModel` -/

/-- `FileModel::insertFile`, of a name that stays inside its literal: a row with the same name is overwritten. -/
def insertFile (senderId receiverId : ℤ) (fileName now : String) : Db :=
  { db with fileTransfers := db.fileTransfers.insert fileName ⟨senderId, receiverId, now⟩ }

def queryFiles (receiverId : ℤ) : List FileRecord :=
  db.fileTransfers.rows.filterMap fun (fileName, r) =>
    if r.receiverid = receiverId then some ⟨r.senderid, r.receiverid, fileName, r.createdAt⟩ else none

/-- `ORDER BY timestamp DESC LIMIT count` -/
def latest (count : ℕ) (l : List ChatHistory) : List ChatHistory :=
  (l.mergeSort fun a b => decide (b.sendTime ≤ a.sendTime)).take count

def queryPrivateHistory (senderId receiverId : ℤ) (count : ℕ) : List ChatHistory :=
  latest count (db.privateChatHistory.filter fun h =>
    (h.id₁ = senderId ∧ h.id₂ = receiverId) ∨ (h.id₁ = receiverId ∧ h.id₂ = senderId))

def queryGroupHistory (groupId : ℤ) (count : ℕ) : List ChatHistory :=
  latest count (db.groupChatHistory.filter fun h => h.id₁ = groupId)

end Db

/-- The tables after ann, user 3, and bob, user 4, have registered. -/
def annAndBob : Db :=
  ((Db.empty.insertUser id "ann" "a" .offline).2.insertUser id "bob" "b" .offline).2

end Chatroom.Service
