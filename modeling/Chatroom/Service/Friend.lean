import Chatroom.Service.Server

/-!
# What requests do to friends

The table of friends seen alone, and the four requests that write it as operations of one user on another
(`FriendOp.apply`); `friends_serve` says that this is what every activity does. The two rows of a pair then
are always nothing, a request from one side, or a friendship that each side may have blocked
(`pairOk_of_run`).
-/

namespace Chatroom.Service

open Lib

abbrev Friends := Table (ℤ × ℤ) FriendState

/-- A state of a friendship that both have agreed to. -/
def FriendState.Mutual (state : Option FriendState) : Prop := state = some .friend ∨ state = some .block

instance (state : Option FriendState) : Decidable (FriendState.Mutual state) :=
  inferInstanceAs (Decidable (_ ∨ _))

/-- The states with which a request is sent. -/
def Asks (state1 state2 : Option FriendState) : Prop :=
  (state1 = none ∨ state1 = some .request) ∧ state2 = none

/-- The states with which a request is answered. -/
def Accepts (state1 state2 : Option FriendState) : Prop := state1 = none ∧ state2 = some .request

instance (state1 state2 : Option FriendState) : Decidable (Asks state1 state2) :=
  inferInstanceAs (Decidable (_ ∧ _))

instance (state1 state2 : Option FriendState) : Decidable (Accepts state1 state2) :=
  inferInstanceAs (Decidable (_ ∧ _))

/-- What a request does in the name of `a`. -/
inductive FriendOp where
  | add (a b : ℤ)
  | delete (a b : ℤ)
  | block (a b : ℤ)
  | unblock (a b : ℤ)

namespace FriendOp

def apply (t : Friends) : FriendOp → Friends
  | add a b =>
    if Asks (t.lookup (a, b)) (t.lookup (b, a)) then t.insertIgnore (a, b) .request
    else if Accepts (t.lookup (a, b)) (t.lookup (b, a)) then
      (t.insertIgnore (a, b) .friend).modify (b, a) fun _ => .friend
    else t
  | delete a b =>
    if FriendState.Mutual (t.lookup (a, b)) ∧ FriendState.Mutual (t.lookup (b, a)) then
      t.deleteWhere fun k => k = (a, b) ∨ k = (b, a)
    else t
  | block a b => if t.lookup (a, b) = some .friend then t.modify (a, b) fun _ => .block else t
  | unblock a b => if t.lookup (a, b) = some .block then t.modify (a, b) fun _ => .friend else t

/-- The request in a message: `u` is the user of the connection, `userOfName` and `userOfId` are the ids that the
user table answers with. -/
def read (u : ℤ) (userOfName : String → ℤ) (userOfId : ℤ → ℤ) : EnMsgType → Json → Option FriendOp
  | .addFriend, js => (js.stringField "add_name").toOption.map fun name => add u (userOfName name)
  | .deleteFriend, js => (js.intField "del_id").toOption.map fun id => delete u (userOfId id)
  | .blockFriend, js => (js.intField "block_id").toOption.map fun id => block u id
  | .unblockFriend, js => (js.intField "unblock_id").toOption.map fun id => unblock u id
  | _, _ => none

end FriendOp

/-! ## `handleAddFriend` in parts -/

def askFriend (conn : Conn) (fromId toId : ℤ) : Task Unit := do
  let _ ← perform (.insertFriend fromId toId .request)
  sendMsg conn .addFriendRequest
  sendToUser toId [("msgid", .msg .toAddFriendRequest)]

/-- What is said about a new friendship. -/
def announceFriend (conn : Conn) (fromId toId : ℤ) (addName : String) : Task Unit := do
  let friend : User ← perform (.queryUser toId)
  send conn [("friend_id", .num toId), ("friend_name", .str addName), ("friend_state", .str friend.state),
    ("msgid", .msg .addFriendSuccess)]
  if friend.state = "online" then
    withConn toId fun toConn => do
      let fromUser : User ← perform (.queryUser fromId)
      send toConn [("friend_name", .str fromUser.name), ("msgid", .msg .theOtherAgreeFriendRequest)]

def acceptFriend (conn : Conn) (fromId toId : ℤ) (addName : String) : Task Unit := do
  let _ ← perform (.insertFriend fromId toId .friend)
  let _ ← perform (.modifyFriend toId fromId .friend)
  announceFriend conn fromId toId addName

/-- `handleAddFriend` once it has read the states. -/
def answerStates (conn : Conn) (fromId toId : ℤ) (addName : String) (state1 state2 : Option FriendState) :
    Task Unit :=
  if Asks state1 state2 then askFriend conn fromId toId
  else if Accepts state1 state2 then acceptFriend conn fromId toId addName
  else return

theorem handleAddFriend_eq {conn : Conn} {js : Json} {time name : String}
    (hname : js.stringField "add_name" = .ok name) : handleAddFriend conn js time = (do
      let _ ← connUser conn
      let addUser : User ← perform (.queryUserByName name)
      let fromId ← connUser conn
      let state1 : Option FriendState ← perform (.friendState fromId addUser.id)
      let state2 : Option FriendState ← perform (.friendState addUser.id fromId)
      answerStates conn fromId addUser.id name state1 state2) := by
  have hread : (read (.ok name) : Task String) = .ret name := rfl
  unfold handleAddFriend
  rw [hname, hread, Program.ret_bind]
  refine bind_congr fun _ => bind_congr fun addUser => bind_congr fun fromId => bind_congr fun state1 =>
    bind_congr fun state2 => ?_
  unfold answerStates
  by_cases hasks : Asks state1 state2
  · have hask : (state1 = none ∧ state2 = none) ∨ (state1 = some .request ∧ state2 = none) := by
      rcases hasks with ⟨h | h, h'⟩
      · exact .inl ⟨h, h'⟩
      · exact .inr ⟨h, h'⟩
    have hnot : ¬ (state1 = none ∧ state2 = some .request) := by
      rintro ⟨-, h⟩
      cases hasks.2.symm.trans h
    rw [if_pos hasks, if_pos hask]
    simp only [if_neg hnot]
    simp only [askFriend, bind_pure_unit]
  · have hnot : ¬ ((state1 = none ∧ state2 = none) ∨ (state1 = some .request ∧ state2 = none)) := by
      rintro (⟨h, h'⟩ | ⟨h, h'⟩)
      · exact hasks ⟨.inl h, h'⟩
      · exact hasks ⟨.inr h, h'⟩
    rw [if_neg hasks, if_neg hnot]
    rfl

/-! ## The handlers of friends -/

section Handlers

variable {env : Environment} {w : World}

theorem friends_exec {c : Cmd} (hc : c.area ≠ some .friends) (w : World) :
    (exec env c w).2.db.friend = w.db.friend := by
  cases c <;> first | rfl | exact absurd rfl hc

theorem friends_run {p : Task Unit} (h : p.Safe (fun c => c.area ≠ some .friends) (fun _ _ => True) fun _ => True)
    (w : World) : (p.run (exec env) w).2.db.friend = w.db.friend :=
  (h.run (exec env) (I := fun s => s.db.friend = w.db.friend)
    (fun _ s hc hs => ⟨trivial, (friends_exec hc s).trans hs⟩) rfl).1

variable (conn : Conn) (js : Json) (time : String)

/-- The request in a message with this id, as the state answers. -/
def friendOp (env : Environment) (w : World) (conn : Conn) (m : EnMsgType) (js : Json) : Option FriendOp :=
  FriendOp.read (w.userOf conn) (fun name => (w.db.queryUserByName env.collate name).id)
    (fun id => (w.db.queryUser id).id) m js

theorem safe_announceFriend (fromId toId : ℤ) (addName : String) :
    (announceFriend conn fromId toId addName).Safe (fun c => c.area ≠ some .friends) (fun _ _ => True)
      fun _ => True := by
  rw [announceFriend, Program.safe_bind]
  refine ⟨by simp, fun friend _ => ?_⟩
  rw [Program.safe_ret, Program.safe_bind]
  refine ⟨by simp, fun _ _ => ?_⟩
  rw [Program.safe_ret, Program.safe_ite]
  refine ⟨fun _ => ⟨by simp, fun it _ => ?_⟩, fun _ => trivial⟩
  cases it with
  | none => trivial
  | some toConn => exact ⟨by simp, fun _ _ => ⟨by simp, fun _ _ => trivial⟩⟩

theorem friends_handleAddFriend : ((handleAddFriend conn js time).run (exec env) w).2.db.friend =
    (friendOp env w conn .addFriend js).elim w.db.friend (FriendOp.apply w.db.friend) := by
  cases hname : js.stringField "add_name" with
  | error e => simp [handleAddFriend, hname, Program.run_bind, friendOp, FriendOp.read, Except.toOption]
  | ok name =>
    rw [handleAddFriend_eq hname]
    simp only [Program.run_bind, run_ask, friendOp, FriendOp.read, hname, Except.toOption, Option.map_some,
      Option.elim_some]
    simp only [Program.run_perform, exec, Db.friendState]
    show ((answerStates conn ((w.ask conn).userOf conn) (w.db.queryUserByName env.collate name).id name
      (w.db.friend.lookup ((w.ask conn).userOf conn, (w.db.queryUserByName env.collate name).id))
      (w.db.friend.lookup ((w.db.queryUserByName env.collate name).id, (w.ask conn).userOf conn))).run (exec env)
        ((w.ask conn).ask conn)).2.db.friend = _
    rw [World.userOf_ask]
    generalize (w.db.queryUserByName env.collate name).id = b
    by_cases hasks : Asks (w.db.friend.lookup (w.userOf conn, b)) (w.db.friend.lookup (b, w.userOf conn))
    · rw [answerStates, if_pos hasks, FriendOp.apply, if_pos hasks]
      simp only [askFriend, Program.run_bind, Program.run_perform, run_sendMsg, run_sendToUser]
      rfl
    · by_cases haccepts : Accepts (w.db.friend.lookup (w.userOf conn, b)) (w.db.friend.lookup (b, w.userOf conn))
      · rw [answerStates, if_neg hasks, if_pos haccepts, FriendOp.apply, if_neg hasks, if_pos haccepts]
        simp only [acceptFriend, Program.run_bind, Program.run_perform]
        exact friends_run (safe_announceFriend _ _ _ _) _
      · rw [answerStates, if_neg hasks, if_neg haccepts, FriendOp.apply, if_neg hasks, if_neg haccepts]
        rfl

theorem friends_handleDeleteFriend : ((handleDeleteFriend conn js time).run (exec env) w).2.db.friend =
    (friendOp env w conn .deleteFriend js).elim w.db.friend (FriendOp.apply w.db.friend) := by
  unfold handleDeleteFriend
  cases hid : js.intField "del_id" with
  | error e => simp [Program.run_bind, friendOp, FriendOp.read, hid, Except.toOption]
  | ok id =>
    simp only [Program.run_bind, run_read_ok, run_ask, friendOp, FriendOp.read, hid, Except.toOption,
      Option.map_some, Option.elim_some, FriendOp.apply]
    simp only [Program.run_perform, exec, Db.friendState]
    show (Program.run (exec env) (if
      FriendState.Mutual (w.db.friend.lookup ((w.ask conn).userOf conn, (w.db.queryUser id).id)) ∧
      FriendState.Mutual (w.db.friend.lookup ((w.db.queryUser id).id, (w.ask conn).userOf conn))
      then _ else _) _).2.db.friend = _
    rw [World.userOf_ask]
    split <;> rfl

theorem friends_handleBlockFriend : ((handleBlockFriend conn js time).run (exec env) w).2.db.friend =
    (friendOp env w conn .blockFriend js).elim w.db.friend (FriendOp.apply w.db.friend) := by
  unfold handleBlockFriend
  cases hid : js.intField "block_id" with
  | error e => simp [Program.run_bind, friendOp, FriendOp.read, hid, Except.toOption]
  | ok b =>
    simp only [Program.run_bind, run_read_ok, run_ask, friendOp, FriendOp.read, hid, Except.toOption,
      Option.map_some, Option.elim_some, FriendOp.apply]
    simp only [Program.run_perform, exec, Db.friendState]
    show (Program.run (exec env)
      (if w.db.friend.lookup (w.userOf conn, b) = some FriendState.friend then _ else _) _).2.db.friend = _
    split <;> rfl

theorem friends_handleUnBlockFriend : ((handleUnBlockFriend conn js time).run (exec env) w).2.db.friend =
    (friendOp env w conn .unblockFriend js).elim w.db.friend (FriendOp.apply w.db.friend) := by
  unfold handleUnBlockFriend
  cases hid : js.intField "unblock_id" with
  | error e => simp [Program.run_bind, friendOp, FriendOp.read, hid, Except.toOption]
  | ok b =>
    simp only [Program.run_bind, run_read_ok, run_ask, friendOp, FriendOp.read, hid, Except.toOption,
      Option.map_some, Option.elim_some, FriendOp.apply]
    simp only [Program.run_perform, exec, Db.friendState]
    show (Program.run (exec env)
      (if w.db.friend.lookup (w.userOf conn, b) = some FriendState.block then _ else _) _).2.db.friend = _
    split <;> rfl

/-! ## Every activity -/

/-- The request of an activity. -/
def befriends (env : Environment) (w : World) : Activity → Option FriendOp
  | .request conn msgid js _ =>
    (handlersMap.find? fun h => h.1.code = msgid).bind fun h => friendOp env w conn h.1 js
  | _ => none

/-- **What an activity does to the table of friends.** -/
theorem friends_serve (a : Activity) : (serve env a w).db.friend =
    (befriends env w a).elim w.db.friend (FriendOp.apply w.db.friend) := by
  have hrun (h : Area.friends ∉ a.areas) : (serve env a w).db.friend = w.db.friend :=
    friends_run (a.safe_body.mono (fun c hc harea => h (hc .friends harea)) (fun _ _ _ => trivial)
      fun _ _ => trivial) w
  cases a with
  | request conn msgid js time =>
    by_cases hfriends : Area.friends ∈ areasOf msgid
    · obtain ⟨m, rfl, hm⟩ := exists_of_mem_areasOf hfriends
      cases m <;> try (simp [areas] at hm; done)
      case addFriend => exact friends_handleAddFriend conn js time
      case deleteFriend => exact friends_handleDeleteFriend conn js time
      case blockFriend => exact friends_handleBlockFriend conn js time
      case unblockFriend => exact friends_handleUnBlockFriend conn js time
    · have hop : befriends env w (.request conn msgid js time) = none := by
        simp only [befriends]
        unfold areasOf at hfriends
        cases hfind : handlersMap.find? fun h => h.1.code = msgid with
        | none => rfl
        | some h =>
          rw [hfind] at hfriends
          have hnone : ∀ m, Area.friends ∉ areas m → friendOp env w conn m js = none := by
            intro m hm
            cases m <;> first | rfl | simp [areas] at hm
          exact hnone h.1 hfriends
      rw [hop]
      exact hrun hfriends
  | connStatus conn status => exact hrun (by simp [Activity.areas])
  | removeConnStatus conn => exact hrun (by simp [Activity.areas])
  | down conn => exact hrun (by simp [Activity.areas])
  | heartbeat => exact hrun (by simp [Activity.areas])

end Handlers

/-! ## The two rows of a pair -/

/-- Nothing, a request from one side, or a friendship that each may have blocked. -/
def PairOk (state1 state2 : Option FriendState) : Prop :=
  (state1 = none ∧ state2 = none) ∨ (state1 = some .request ∧ state2 = none) ∨
    (state1 = none ∧ state2 = some .request) ∨ (FriendState.Mutual state1 ∧ FriendState.Mutual state2)

theorem PairOk.symm {state1 state2 : Option FriendState} (h : PairOk state1 state2) : PairOk state2 state1 := by
  rcases h with h | h | h | h
  · exact .inl h.symm
  · exact .inr (.inr (.inl h.symm))
  · exact .inr (.inl h.symm)
  · exact .inr (.inr (.inr h.symm))

/-- Every pair of users is as it should be. -/
def PairsOk (t : Friends) : Prop := ∀ a b, a ≠ b → PairOk (t.lookup (a, b)) (t.lookup (b, a))

namespace PairsOk

variable {t t' : Friends} {x y : ℤ}

/-- Where only the rows between `x` and `y` change, only these two have to be looked at. -/
theorem of_pair (h : PairsOk t) (hframe : ∀ k, k ≠ (x, y) → k ≠ (y, x) → t'.lookup k = t.lookup k)
    (hpair : x ≠ y → PairOk (t'.lookup (x, y)) (t'.lookup (y, x))) : PairsOk t' := by
  intro a b hab
  by_cases hxy : (a, b) = (x, y)
  · obtain ⟨rfl, rfl⟩ := Prod.mk.inj hxy
    exact hpair hab
  · by_cases hyx : (a, b) = (y, x)
    · obtain ⟨rfl, rfl⟩ := Prod.mk.inj hyx
      exact (hpair hab.symm).symm
    · have hswap : ∀ p q : ℤ, (a, b) ≠ (p, q) → (b, a) ≠ (q, p) := by
        intro p q hne heq
        obtain ⟨rfl, rfl⟩ := Prod.mk.inj heq
        exact hne rfl
      rw [hframe _ hxy hyx, hframe _ (hswap _ _ hyx) (hswap _ _ hxy)]
      exact h a b hab

theorem add (h : PairsOk t) (x y : ℤ) : PairsOk (FriendOp.apply t (.add x y)) := by
  refine h.of_pair (x := x) (y := y) (fun k hxy hyx => ?_) fun hne => ?_
  · simp only [FriendOp.apply]
    split
    case isTrue => rw [Table.lookup_insertIgnore, if_neg hxy]
    case isFalse =>
      split
      case isTrue => rw [Table.lookup_modify, if_neg hyx, Table.lookup_insertIgnore, if_neg hxy]
      case isFalse => rfl
  · have hpair := h x y hne
    have hkey : (y, x) ≠ (x, y) := fun heq => hne (Prod.mk.inj heq).2
    simp only [FriendOp.apply]
    by_cases hasks : Asks (t.lookup (x, y)) (t.lookup (y, x))
    · rw [if_pos hasks, Table.lookup_insertIgnore, if_pos rfl, Table.lookup_insertIgnore, if_neg hkey, hasks.2]
      rcases hasks.1 with hrow | hrow <;> exact .inr (.inl ⟨by simp [hrow], rfl⟩)
    · by_cases haccepts : Accepts (t.lookup (x, y)) (t.lookup (y, x))
      · obtain ⟨hrow, hrow'⟩ := haccepts
        rw [if_neg hasks, if_pos ⟨hrow, hrow'⟩, Table.lookup_modify, if_neg hkey.symm, Table.lookup_insertIgnore,
          if_pos rfl, Table.lookup_modify, if_pos rfl, Table.lookup_insertIgnore, if_neg hkey, hrow, hrow']
        exact .inr (.inr (.inr ⟨.inl rfl, .inl rfl⟩))
      · rw [if_neg hasks, if_neg haccepts]
        exact hpair

theorem delete (h : PairsOk t) (x y : ℤ) : PairsOk (FriendOp.apply t (.delete x y)) := by
  simp only [FriendOp.apply]
  split
  case isTrue =>
    refine h.of_pair (x := x) (y := y) (fun k hxy hyx => ?_) fun _ => .inl ⟨?_, ?_⟩
    · simp [Table.lookup_deleteWhere, hxy, hyx]
    · simp [Table.lookup_deleteWhere]
    · simp [Table.lookup_deleteWhere]
  case isFalse => exact h

/-- A side changes its own row of a friendship. -/
theorem modify (h : PairsOk t) {state : FriendState} (hrow : FriendState.Mutual (t.lookup (x, y)))
    (hstate : FriendState.Mutual (some state)) : PairsOk (t.modify (x, y) fun _ => state) := by
  refine h.of_pair (x := x) (y := y) (fun k hxy _ => ?_) fun hne => ?_
  · rw [Table.lookup_modify, if_neg hxy]
  · have hkey : (y, x) ≠ (x, y) := fun heq => hne (Prod.mk.inj heq).2
    rw [Table.lookup_modify, if_pos rfl, Table.lookup_modify, if_neg hkey]
    rcases h x y hne with hpair | hpair | hpair | hpair
    · rcases hrow with hrow | hrow <;> cases hpair.1.symm.trans hrow
    · rcases hrow with hrow | hrow <;> cases hpair.1.symm.trans hrow
    · rcases hrow with hrow | hrow <;> cases hpair.1.symm.trans hrow
    · refine .inr (.inr (.inr ⟨?_, hpair.2⟩))
      rcases hrow with hrow | hrow <;> simpa [hrow] using hstate

theorem apply (h : PairsOk t) (op : FriendOp) : PairsOk (FriendOp.apply t op) := by
  cases op with
  | add x y => exact h.add x y
  | delete x y => exact h.delete x y
  | block x y =>
    simp only [FriendOp.apply]
    split
    case isTrue hrow => exact h.modify (.inl hrow) (.inr rfl)
    case isFalse => exact h
  | unblock x y =>
    simp only [FriendOp.apply]
    split
    case isTrue hrow => exact h.modify (.inr hrow) (.inl rfl)
    case isFalse => exact h

end PairsOk

/-- The table of friends under activities that are complete, between which everything else may change: whose the
connections are, what the user table holds, and what the clock and the system answer. -/
def friendTables : Machine Friends (Environment × World × Activity) where
  step t a := some (serve a.1 a.2.2 { a.2.1 with db := { a.2.1.db with friend := t } }).db.friend

/-- **The two rows of a pair are nothing, one request or a friendship**, in every table that complete activities leave
of an empty one. -/
theorem pairOk_of_run {l : List (Environment × World × Activity)} {t : Friends}
    (h : friendTables.Run (fun _ _ => True) ∅ l t) (a b : ℤ) (hab : a ≠ b) :
    PairOk (t.lookup (a, b)) (t.lookup (b, a)) := by
  have hstep : ∀ s x t, True → friendTables.step s x = some t → PairsOk s → PairsOk t := by
    rintro s ⟨env, w, activity⟩ t - hst hs
    obtain rfl := Option.some.inj hst
    show PairsOk (serve env activity { w with db := { w.db with friend := s } }).db.friend
    rw [friends_serve]
    cases befriends env { w with db := { w.db with friend := s } } activity with
    | none => exact hs
    | some op => exact hs.apply op
  have hempty : PairsOk ∅ := fun _ _ _ => .inl ⟨rfl, rfl⟩
  exact h.invariant hstep hempty a b hab

def addsFriend (conn : Conn) (name : String) : Activity :=
  .request conn EnMsgType.addFriend.code (.obj [("add_name", .str name)]) ""

def deletesFriend (conn : Conn) (id : ℤ) : Activity :=
  .request conn EnMsgType.deleteFriend.code (.obj [("del_id", .num id)]) ""

def blocksFriend (conn : Conn) (id : ℤ) : Activity :=
  .request conn EnMsgType.blockFriend.code (.obj [("block_id", .num id)]) ""

/-- Ann (3), on connection 1, and bob (4), on connection 2, become friends, bob ends it, they become friends again, and
ann blocks bob. -/
def annBlocksBob : List Activity :=
  [addsFriend 1 "bob", addsFriend 2 "ann", deletesFriend 2 3, addsFriend 2 "ann", addsFriend 1 "bob", blocksFriend 1 4]

theorem friendTables_step {env : Environment} {w : World} {activity : Activity} {op : FriendOp}
    (hop : ∀ t, befriends env { w with db := { w.db with friend := t } } activity = some op) (t : Friends) :
    friendTables.step t (env, w, activity) = some (FriendOp.apply t op) := by
  show some (serve env activity { w with db := { w.db with friend := t } }).db.friend = _
  rw [friends_serve, hop]
  rfl

theorem pairOk_of_run_ann :
    ∃ w t, friendTables.Run (fun _ _ => True) ∅ (annBlocksBob.map fun activity => (.still, w, activity)) t ∧
      t.lookup (3, 4) = some .block ∧ t.lookup (4, 3) = some .friend ∧ PairOk (t.lookup (3, 4)) (t.lookup (4, 3)) := by
  let w : World := { World.init annAndBob with connUserMap := fun conn => if conn = 1 then some 3 else some 4 }
  have hann : ∀ t, friendTables.step t (.still, w, addsFriend 1 "bob") = some (FriendOp.apply t (.add 3 4)) :=
    friendTables_step fun _ => rfl
  have hbob : ∀ t, friendTables.step t (.still, w, addsFriend 2 "ann") = some (FriendOp.apply t (.add 4 3)) :=
    friendTables_step fun _ => rfl
  have hdeletes : ∀ t, friendTables.step t (.still, w, deletesFriend 2 3) = some (FriendOp.apply t (.delete 4 3)) :=
    friendTables_step fun _ => rfl
  have hblocks : ∀ t, friendTables.step t (.still, w, blocksFriend 1 4) = some (FriendOp.apply t (.block 3 4)) :=
    friendTables_step fun _ => rfl
  have hrun : friendTables.Run (fun _ _ => True) ∅ (annBlocksBob.map fun activity => (.still, w, activity)) _ :=
    .cons trivial (hann _) <| .cons trivial (hbob _) <| .cons trivial (hdeletes _) <| .cons trivial (hbob _) <|
      .cons trivial (hann _) <| .cons trivial (hblocks _) <| .nil _
  exact ⟨w, _, hrun, rfl, rfl, pairOk_of_run hrun 3 4 (by decide)⟩

end Chatroom.Service
