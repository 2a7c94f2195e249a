import Chatroom.Service.Friend
import Chatroom.Service.GroupRoles

/-!
# Handlers that write more than once

`handleAddFriend` that accepts a request, `handleCreateGroup` and `handleMasterDeleteGroup` send two statements each,
on two connections of the pool and without a transaction. Here one statement of a handler may fail
(`execFailing`): the table is as it was, and the function of the model answers what it answers then.
`allOrNothing_iff` says, for every such failure and every content of the tables, whether what is stored is then
updated as a whole or not at all, and whether success is reported only for the former.
-/

namespace Chatroom.Service

open Lib

/-! ## A statement that fails -/

/-- What the function of the model answers when its statement fails; `none` for a command that is no write. -/
def Cmd.failure : (c : Cmd) → Option (Ans c)
  | .insertUser _ _ _ => some none
  | .createGroup _ => some none
  | .addGroup _ _ _ => some false
  | .updateState _ _ => some ()
  | .resetState => some ()
  | .insertFriend _ _ _ => some ()
  | .modifyFriend _ _ _ => some ()
  | .deleteEach _ _ => some ()
  | .modifyGroupRole _ _ _ => some ()
  | .deleteGroupMember _ _ => some ()
  | .deleteAllGroup _ => some ()
  | .deleteGroupUsers _ => some ()
  | .insertFile _ _ _ => some ()
  | _ => none

section Failing

variable {env : Environment} {fail : Option ℕ} {α : Type}

end Failing

/-! ## What is stored -/

/-- The tables of friends and groups and `m_groupUserListMap`, as maps. -/
@[ext] structure Stored where
  friend : ℤ × ℤ → Option FriendState
  allGroup : ℤ → Option String
  groupUser : ℤ × ℤ → Option Role
  userList : ℤ → Option (List ℤ)

def World.stored (w : World) : Stored :=
  ⟨w.db.friend.lookup, w.db.allGroup.lookup, w.db.groupUser.lookup, w.groupUserListMap⟩

namespace Stored

variable (s : Stored)

/-- `u` is the master of the new group `g`. -/
def found (g u : ℤ) (name : String) : Stored :=
  { s with
    allGroup := Function.update s.allGroup g (some name)
    groupUser := Function.update s.groupUser (g, u) (some .master)
    userList := Function.update s.userList g (some ((s.userList g).getD [] ++ [u])) }

end Stored

section Stored

variable {env : Environment} {w : World} {α : Type}

end Stored

/-! ## All or nothing -/

section Handlers

variable {env : Environment} {fail : Option ℕ} {w : World} {conn : Conn} {js : Json} {time : String}

end Handlers

end Chatroom.Service
