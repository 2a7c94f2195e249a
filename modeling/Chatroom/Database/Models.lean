import Chatroom.Database.Commands
import Chatroom.Service.Database

/-!
# `UserModel`, `FriendModel`, `GroupModel` and `FileModel`

Their functions, with the connections that they take and put back. A pointer that `getConnection` returns is never
null, so `if (mysql)` is not kept.
-/

namespace Chatroom.Database

open Lib Service

/-- The rows of an answer, none if the statement failed. -/
def fetch {columns : List Column} (res : Option (List (Row columns))) : List (Row columns) := res.getD []

/-- One `update` on a connection of its own. -/
def runUpdate (sql : Stmt) : DbTask Bool := withConnection fun mysql => perform (.update mysql sql)

/-- One `query` on a connection of its own. Its rows are read before the connection is put back. -/
def runQuery {α : Type} (columns : List Column) (sql : Stmt) (read : List (Row columns) → Except Exn α) : DbTask α :=
  withConnection fun mysql => do
    let res ← perform (.query mysql columns sql)
    Program.ofExcept (read (fetch res))

/-- The text of the first row, or an empty one. -/
def firstText : List (Row [.nullable]) → Except Exn String
  | (text, _) :: _ => toStdString text
  | [] => .ok ""

/-! ## `UserModel` -/

namespace UserModel

/-- Also the id that is set in `user`. -/
def insert (user : User) : DbTask (Option ℤ) :=
  withConnection fun mysql => do
    let sql := .formatted "insert into user(name, password, state) values('%s', '%s', '%s')"
      [.str user.name, .str user.password, .str user.state]
    let done : Bool ← perform (.update mysql sql)
    if done then
      let id ← perform (.insertId mysql)
      return some id
    else return none

/-- The columns of `user`. -/
abbrev columns : List Column := [.int, .text, .text, .nullable]

/-- The first row, or the defaults of `User`. -/
def first : List (Row columns) → Except Exn User
  | (id, name, password, state, _) :: _ => do
    let state ← toStdString state
    return { id, name, password, state }
  | [] => .ok {}

def query (id : ℤ) : DbTask User :=
  runQuery columns (.formatted "select * from user where id = %d" [.int id]) first

/-- `query(std::string)` -/
def queryByName (name : String) : DbTask User :=
  runQuery columns (.formatted "select * from user where name = '%s'" [.str name]) first

/-- A row of `query()`. -/
def readUser : Row columns → Except Exn User
  | (id, name, _, state, _) => do
    let state ← toStdString state
    return { id, name, state }

/-- `query()` -/
def queryAll : DbTask (List User) :=
  runQuery columns (.formatted "select * from user" []) fun rows => rows.mapM readUser

def updateState (user : User) : DbTask Bool :=
  runUpdate (.formatted "update user set state = '%s' where id = %d" [.str user.state, .int user.id])

def resetState : DbTask Unit := do
  let _ ← runUpdate (.formatted "update user set state = 'offline' where state = 'online'" [])

end UserModel

/-! ## `FriendModel` -/

namespace FriendModel

def insert (userid friendid : ℤ) (state : String) : DbTask Unit := do
  let _ ← runUpdate (.formatted "insert into friend values(%d, %d, '%s')" [.int userid, .int friendid, .str state])

def modify (userid friendid : ℤ) (state : String) : DbTask Unit := do
  let _ ← runUpdate (.formatted "update friend set state='%s' where userid=%d and friendid=%d"
    [.str state, .int userid, .int friendid])

def deleteEach (userid friendid : ℤ) : DbTask Unit := do
  let _ ← runUpdate (.formatted
    "DELETE FROM friend WHERE (userid = %d AND friendid = %d) OR (userid = %d AND friendid = %d)"
    [.int userid, .int friendid, .int friendid, .int userid])

/-- `a.id`, `a.name`, `a.state` and `b.state` -/
abbrev columns : List Column := [.int, .text, .nullable, .nullable]

/-- A row of `query`; those of blocked users are left out before their state is read. -/
def readFriend : Row columns → Except Exn (Option User)
  | (id, name, state, relation, _) => do
    let relation ← toStdString relation
    if relation = "block" then return none
    else
      let state ← toStdString state
      return some { id, name, state }

def query (userid : ℤ) : DbTask (List User) :=
  runQuery columns (.formatted
    "select a.id,a.name,a.state,b.state from user a inner join friend b on b.friendid = a.id where b.userid=%d"
    [.int userid]) fun rows => List.reduceOption <$> rows.mapM readFriend

/-- `row[2]`, which is taken for the state, is the password. -/
def selectUsers (ids : List ℤ) : DbTask (List User) := do
  let found ← ids.mapM fun id => runQuery UserModel.columns (.formatted "SELECT * FROM user WHERE id = %d" [.int id])
    fun rows => .ok (rows.map fun (id, name, password, _) => { id, name, state := password : User })
  return found.flatten

def requestQuery (friendid : ℤ) : DbTask (List User) := do
  let ids ← runQuery [.int, .int, .nullable] (.formatted
    "SELECT * FROM friend WHERE friendid = %d AND state = 'request'" [.int friendid])
    fun rows => .ok (rows.map fun (userid, _) => userid)
  selectUsers ids

def blockQuery (userid : ℤ) : DbTask (List User) := do
  let ids ← runQuery [.int, .int, .nullable] (.formatted
    "SELECT * FROM friend WHERE userid = %d AND state = 'block'" [.int userid])
    fun rows => .ok (rows.map fun (_, friendid, _) => friendid)
  selectUsers ids

/-- `state = row[0]` of a null pointer is undefined rather than an exception; the connection is not put back in any
case. -/
def getState (userid friendid : ℤ) : DbTask String :=
  runQuery [.nullable] (.formatted "select state from friend where userid = %d and friendid = %d"
    [.int userid, .int friendid]) firstText

end FriendModel

/-! ## `GroupModel` -/

namespace GroupModel

/-- Also the id that is set in `group`. Where the `INSERT` fails, the connection is not put back. -/
def createGroup (group : Group) : DbTask (Option ℤ) := do
  let mysql ← perform .getConnection
  let done : Bool ← perform (.update mysql (.formatted "insert into AllGroup(groupname) values('%s')"
    [.str group.name]))
  if done then
    let id ← perform (.insertId mysql)
    perform (.releaseConnection mysql)
    return some id
  else return none

def addGroup (userid groupid : ℤ) (role : String) : DbTask Bool :=
  runUpdate (.formatted "insert into GroupUser values(%d, %d, '%s')" [.int groupid, .int userid, .str role])

def modifyGroupRole (userid groupid : ℤ) (role : String) : DbTask Unit := do
  let _ ← runUpdate (.formatted "update GroupUser set grouprole = '%s' where userid = %d and groupid = %d"
    [.str role, .int userid, .int groupid])

def queryAllGroup : DbTask (List Group) :=
  runQuery [.int, .text] (.formatted "select * from AllGroup" [])
    fun rows => .ok (rows.map fun (id, name, _) => { id, name })

/-- A row of `queryOwnGroup`. -/
def readGroup : Row [.int, .text, .nullable] → Except Exn Group
  | (id, name, grouprole, _) => do
    let grouprole ← toStdString grouprole
    return { id, name, grouprole }

def queryOwnGroup (userid : ℤ) : DbTask (List Group) :=
  runQuery [.int, .text, .nullable] (.formatted
    ("select a.id, a.groupname, b.grouprole from AllGroup a inner join GroupUser b on a.id = b.groupid " ++
      "where b.userid = %d")
    [.int userid]) fun rows => rows.mapM readGroup

/-- Users whose role in the group passes, with the role for their state; a `NULL` does not pass. -/
def selectMembers (format : String) (groupid : ℤ) : DbTask (List User) :=
  runQuery [.int, .text, .text] (.formatted format [.int groupid])
    fun rows => .ok (rows.map fun (id, name, state, _) => { id, name, state })

def queryGroupRequest (groupid : ℤ) : DbTask (List User) :=
  selectMembers ("select a.id, a.name, b.grouprole from user a inner join GroupUser b on a.id = b.userid " ++
    "where b.groupid = %d and b.grouprole = 'request'") groupid

def queryGroupMember (groupid : ℤ) : DbTask (List User) :=
  selectMembers ("select a.id, a.name, b.grouprole from user a inner join GroupUser b on a.id = b.userid " ++
    "where b.groupid = %d and b.grouprole != 'request'") groupid

/-- Whether there is a row; it is not read. -/
def hasRow (format : String) (userid groupid : ℤ) : DbTask Bool :=
  runQuery [.int, .int, .nullable] (.formatted format [.int userid, .int groupid]) fun rows => .ok (!rows.isEmpty)

def ifMaster (userid groupid : ℤ) : DbTask Bool :=
  hasRow "select * from GroupUser where userid = %d and groupid = %d and grouprole = 'master'" userid groupid

def queryGroupRole (userid groupid : ℤ) : DbTask String :=
  runQuery [.nullable] (.formatted "select grouprole from GroupUser where userid = %d and groupid = %d"
    [.int userid, .int groupid]) firstText

def queryGroupName (groupid : ℤ) : DbTask String :=
  runQuery [.text] (.formatted "select groupname from AllGroup where id = %d" [.int groupid]) fun rows =>
    match rows with
    | (groupname, _) :: _ => .ok groupname
    | [] => .ok ""

def ifManager (userid groupid : ℤ) : DbTask Bool :=
  hasRow "select * from GroupUser where userid = %d and groupid = %d and grouprole = 'manager'"
    userid groupid

def ifMasterOrManager (userid groupid : ℤ) : DbTask Bool :=
  hasRow
    "select * from GroupUser where userid = %d and groupid = %d and (grouprole = 'master' or grouprole = 'manager')"
    userid groupid

def ifManagerOrNormal (userid groupid : ℤ) : DbTask Bool :=
  hasRow
    "select * from GroupUser where userid = %d and groupid = %d and (grouprole = 'manager' or grouprole = 'normal')"
    userid groupid

def ifMasterOrManagerORnormal (userid groupid : ℤ) : DbTask Bool :=
  hasRow
    ("select * from GroupUser where userid = %d and groupid = %d and " ++
      "(grouprole = 'master' or grouprole = 'manager' or grouprole = 'normal')") userid groupid

def deleteGroupMember (userid groupid : ℤ) : DbTask Unit := do
  let _ ← runUpdate (.formatted "delete from GroupUser where userid = %d and groupid = %d" [.int userid, .int groupid])

def deleteGroup (groupid : ℤ) : DbTask Unit := do
  let _ ← runUpdate (.formatted "delete from AllGroup where id = %d" [.int groupid])
  let _ ← runUpdate (.formatted "delete from GroupUser where groupid = %d" [.int groupid])

end GroupModel

/-! ## `FileModel` -/

namespace FileModel

/-- The statements that are sent on a connection of its own, if there is one. -/
def insertFile (sender_id receiver_id : ℤ) (file_name : String) (connect : Bool) : List Stmt :=
  if connect then
    [.formatted ("INSERT INTO file_transfers(`filename`, `senderid`, `receiverid`)  VALUES('%s', %d, %d)  " ++
      "ON DUPLICATE KEY UPDATE      senderid = VALUES(senderid),      receiverid = VALUES(receiverid),      " ++
      "created_at = NOW();") [.str file_name, .int sender_id, .int receiver_id]]
  else []

end FileModel

end Chatroom.Database
