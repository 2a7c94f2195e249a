import Mathlib.Logic.Function.Basic
import Chatroom.Lib.Program
import Chatroom.Service.Database

/-!
# What a handler can do, one step at a time

The state the service runs on (`World`) and the commands its functions are made of. A command is one access
to a map of `Service`, one SQL statement, one Redis command, one `send`, one system call: between two
commands another thread can come in. `exec` is what a command does; the clock and the system answer from
`Environment`.
-/

namespace Chatroom.Service

open Lib History

/-- A `TcpConnectionPtr`. -/
abbrev Conn := ℕ

/-- How a system call ends: whether it succeeded, and the size that `fstat` reports. -/
structure OsAnswer where
  ok : Bool
  size : ℕ

structure Environment where
  /-- the weights by which MySQL compares names -/
  collate : String → String
  /-- the readings of the clock -/
  clock : ℕ → Timestamp
  /-- the answers of the system calls -/
  os : ℕ → OsAnswer

/-- Names are compared as they are, the clock stands still, and every system call succeeds. -/
def Environment.still : Environment := ⟨id, fun _ => ⟨"2024-08-12 10:00:00", plain_morning⟩, fun _ => ⟨true, 0⟩⟩

structure World where
  db : Db
  /-- `m_userConnMap` -/
  userConnMap : ℤ → Option Conn
  /-- `m_connUserMap` -/
  connUserMap : Conn → Option ℤ
  /-- `m_groupUserListMap` -/
  groupUserListMap : ℤ → Option (List ℤ)
  /-- `m_connStatusMap` -/
  connStatusMap : Table Conn Bool
  /-- the Redis lists -/
  redis : Chat → List ChatRecord
  /-- the messages handed to `send`, with their connections -/
  sent : List (Conn × Json)
  /-- the connections on which `forceClose` was called -/
  closed : List Conn
  clockReadings : ℕ
  osCalls : ℕ

/-- The maps of a new process. -/
def World.restart (w : World) : World :=
  { w with
    userConnMap := fun _ => none
    connUserMap := fun _ => none
    groupUserListMap := fun _ => none
    connStatusMap := ∅ }

def World.init (db : Db) : World :=
  ⟨db, fun _ => none, fun _ => none, fun _ => none, ∅, fun _ => [], [], [], 0, 0⟩

inductive Cmd where
  /-- `m_connUserMap[conn]`, which inserts 0 for an unknown connection -/
  | connUser (conn : Conn)
  | findConnUser (conn : Conn)
  | setConnUser (conn : Conn) (userid : ℤ)
  | eraseConnUser (conn : Conn)
  | findUserConn (userid : ℤ)
  | setUserConn (userid : ℤ) (conn : Conn)
  | eraseUserConn (userid : ℤ)
  | setConnStatus (conn : Conn) (status : Bool)
  | eraseConnStatus (conn : Conn)
  /-- the first loop of `checkIfConnAlive`: who was silent, and `false` for all others -/
  | sweepConnStatus
  /-- `m_groupUserListMap[groupid]` -/
  | groupUserList (groupid : ℤ)
  | setGroupUserList (groupid : ℤ) (vec : List ℤ)
  | pushGroupUser (groupid userid : ℤ)
  /-- `erase(std::remove(…))` on `m_groupUserListMap[groupid]` -/
  | removeGroupUser (groupid userid : ℤ)
  /-- the same on `m_groupUserListMap.find(groupid)->second`; answers whether there is one -/
  | removeFoundGroupUser (groupid userid : ℤ)
  | eraseGroupUserList (groupid : ℤ)
  | insertUser (name password : String) (state : UserState)
  | queryUser (id : ℤ)
  | queryUserByName (name : String)
  | queryUsers
  | updateState (id : ℤ) (state : UserState)
  | resetState
  | insertFriend (userid friendid : ℤ) (state : FriendState)
  | modifyFriend (userid friendid : ℤ) (state : FriendState)
  | deleteEach (userid friendid : ℤ)
  | queryFriends (userid : ℤ)
  | friendRequesters (friendid : ℤ)
  | blockedFriends (userid : ℤ)
  | selectUser (id : ℤ)
  | friendState (userid friendid : ℤ)
  | createGroup (name : String)
  | addGroup (userid groupid : ℤ) (role : Role)
  | modifyGroupRole (userid groupid : ℤ) (role : Role)
  | queryAllGroup
  | queryOwnGroup (userid : ℤ)
  /-- `queryGroupMember`, or `queryGroupRequest` for the requests -/
  | groupUsers (groupid : ℤ) (requests : Bool)
  | queryGroupRole (userid groupid : ℤ)
  | deleteGroupMember (userid groupid : ℤ)
  | deleteAllGroup (groupid : ℤ)
  | deleteGroupUsers (groupid : ℤ)
  | insertFile (senderId receiverId : ℤ) (fileName : String)
  | queryFiles (receiverId : ℤ)
  | queryPrivateHistory (senderId receiverId : ℤ) (count : ℕ)
  | queryGroupHistory (groupId : ℤ) (count : ℕ)
  | getCurrentTimestamp
  | rpush (chat : Chat) (record : ChatRecord)
  | send (conn : Conn) (js : Json)
  | forceClose (conn : Conn)
  | openFile (path : String)
  | fstat
  | fcntl (conn : Conn)
  /-- the loop over `::sendfile`, to its end or to an error other than `EAGAIN` -/
  | sendfileLoop (conn : Conn) (fileSize : ℕ)
  | closeFile

/-- The answer to a command. -/
@[reducible] def Ans : Cmd → Type
  | .connUser _ => ℤ
  | .findConnUser _ => Option ℤ
  | .findUserConn _ => Option Conn
  | .sweepConnStatus => List Conn
  | .groupUserList _ => List ℤ
  | .removeFoundGroupUser _ _ => Bool
  | .insertUser _ _ _ => Option ℤ
  | .queryUser _ => User
  | .queryUserByName _ => User
  | .queryUsers => List User
  | .queryFriends _ => List User
  | .friendRequesters _ => List ℤ
  | .blockedFriends _ => List ℤ
  | .selectUser _ => List User
  | .friendState _ _ => Option FriendState
  | .createGroup _ => Option ℤ
  | .addGroup _ _ _ => Bool
  | .queryAllGroup => List Group
  | .queryOwnGroup _ => List Group
  | .groupUsers _ _ => List User
  | .queryGroupRole _ _ => Option Role
  | .queryFiles _ => List FileRecord
  | .queryPrivateHistory _ _ _ => List ChatHistory
  | .queryGroupHistory _ _ => List ChatHistory
  | .getCurrentTimestamp => Timestamp
  | .openFile _ => Bool
  | .fstat => Option ℕ
  | .fcntl _ => Bool
  | .sendfileLoop _ _ => Bool
  | _ => Unit

/-- How a handler can end early: an exception, which the task's future keeps, or behaviour the language leaves
undefined. -/
inductive Fault where
  | exn (e : Exn)
  | undefined
  deriving DecidableEq

/-- What a worker of the pool runs. -/
abbrev Task := Program Ans Fault

/-! ## What a command does -/

variable (env : Environment)

/-- Every element equal to `userid` removed. -/
def removeAll (vec : List ℤ) (userid : ℤ) : List ℤ := vec.filter (· ≠ userid)

def exec (c : Cmd) (w : World) : Ans c × World :=
  match c with
  | .connUser conn =>
    let userid := (w.connUserMap conn).getD 0
    (userid, { w with connUserMap := Function.update w.connUserMap conn (some userid) })
  | .findConnUser conn => (w.connUserMap conn, w)
  | .setConnUser conn userid => ((), { w with connUserMap := Function.update w.connUserMap conn (some userid) })
  | .eraseConnUser conn => ((), { w with connUserMap := Function.update w.connUserMap conn none })
  | .findUserConn userid => (w.userConnMap userid, w)
  | .setUserConn userid conn => ((), { w with userConnMap := Function.update w.userConnMap userid (some conn) })
  | .eraseUserConn userid => ((), { w with userConnMap := Function.update w.userConnMap userid none })
  | .setConnStatus conn status => ((), { w with connStatusMap := w.connStatusMap.insert conn status })
  | .eraseConnStatus conn => ((), { w with connStatusMap := w.connStatusMap.erase conn })
  | .sweepConnStatus =>
    (w.connStatusMap.rows.filterMap fun (conn, status) => if status then none else some conn,
      { w with connStatusMap := w.connStatusMap.mapRows fun _ _ => false })
  | .groupUserList groupid =>
    let vec := (w.groupUserListMap groupid).getD []
    (vec, { w with groupUserListMap := Function.update w.groupUserListMap groupid (some vec) })
  | .setGroupUserList groupid vec =>
    ((), { w with groupUserListMap := Function.update w.groupUserListMap groupid (some vec) })
  | .pushGroupUser groupid userid =>
    let vec := (w.groupUserListMap groupid).getD []
    ((), { w with groupUserListMap := Function.update w.groupUserListMap groupid (some (vec ++ [userid])) })
  | .removeGroupUser groupid userid =>
    let vec := (w.groupUserListMap groupid).getD []
    ((), { w with
      groupUserListMap := Function.update w.groupUserListMap groupid (some (removeAll vec userid)) })
  | .removeFoundGroupUser groupid userid =>
    let it := w.groupUserListMap groupid
    (it.isSome, { w with
      groupUserListMap := Function.update w.groupUserListMap groupid (it.map fun vec => removeAll vec userid) })
  | .eraseGroupUserList groupid =>
    ((), { w with groupUserListMap := Function.update w.groupUserListMap groupid none })
  | .insertUser name password state =>
    let inserted := w.db.insertUser env.collate name password state
    (inserted.1, { w with db := inserted.2 })
  | .queryUser id => (w.db.queryUser id, w)
  | .queryUserByName name => (w.db.queryUserByName env.collate name, w)
  | .queryUsers => (w.db.queryUsers, w)
  | .updateState id state => ((), { w with db := w.db.updateState id state })
  | .resetState => ((), { w with db := w.db.resetState })
  | .insertFriend userid friendid state => ((), { w with db := w.db.insertFriend userid friendid state })
  | .modifyFriend userid friendid state => ((), { w with db := w.db.modifyFriend userid friendid state })
  | .deleteEach userid friendid => ((), { w with db := w.db.deleteEach userid friendid })
  | .queryFriends userid => (w.db.queryFriends userid, w)
  | .friendRequesters friendid => (w.db.friendRequesters friendid, w)
  | .blockedFriends userid => (w.db.blockedFriends userid, w)
  | .selectUser id => (w.db.selectUser id, w)
  | .friendState userid friendid => (w.db.friendState userid friendid, w)
  | .createGroup name =>
    let inserted := w.db.createGroup env.collate name
    (inserted.1, { w with db := inserted.2 })
  | .addGroup userid groupid role =>
    let inserted := w.db.addGroup userid groupid role
    (inserted.1, { w with db := inserted.2 })
  | .modifyGroupRole userid groupid role => ((), { w with db := w.db.modifyGroupRole userid groupid role })
  | .queryAllGroup => (w.db.queryAllGroup, w)
  | .queryOwnGroup userid => (w.db.queryOwnGroup userid, w)
  | .groupUsers groupid requests =>
    (w.db.selectGroupUsers groupid fun role => decide (role = .request) == requests, w)
  | .queryGroupRole userid groupid => (w.db.queryGroupRole userid groupid, w)
  | .deleteGroupMember userid groupid => ((), { w with db := w.db.deleteGroupMember userid groupid })
  | .deleteAllGroup groupid => ((), { w with db := w.db.deleteAllGroup groupid })
  | .deleteGroupUsers groupid => ((), { w with db := w.db.deleteGroupUsers groupid })
  | .insertFile senderId receiverId fileName =>
    ((), { w with
      db := w.db.insertFile senderId receiverId fileName (env.clock w.clockReadings).text
      clockReadings := w.clockReadings + 1 })
  | .queryFiles receiverId => (w.db.queryFiles receiverId, w)
  | .queryPrivateHistory senderId receiverId count => (w.db.queryPrivateHistory senderId receiverId count, w)
  | .queryGroupHistory groupId count => (w.db.queryGroupHistory groupId count, w)
  | .getCurrentTimestamp => (env.clock w.clockReadings, { w with clockReadings := w.clockReadings + 1 })
  | .rpush chat record => ((), { w with redis := Function.update w.redis chat (w.redis chat ++ [record]) })
  | .send conn js => ((), { w with sent := w.sent ++ [(conn, js)] })
  | .forceClose conn => ((), { w with closed := w.closed ++ [conn] })
  | .openFile _ => ((env.os w.osCalls).ok, { w with osCalls := w.osCalls + 1 })
  | .fstat =>
    let answer := env.os w.osCalls
    (if answer.ok then some answer.size else none, { w with osCalls := w.osCalls + 1 })
  | .fcntl _ => ((env.os w.osCalls).ok, { w with osCalls := w.osCalls + 1 })
  | .sendfileLoop _ _ => ((env.os w.osCalls).ok, { w with osCalls := w.osCalls + 1 })
  | .closeFile => ((), w)

end Chatroom.Service
