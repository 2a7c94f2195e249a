import Chatroom.Codec.Format
import Chatroom.Service.Server

/-!
# The server's messages have their formats

Whatever the requests are and however the threads are interleaved, everything that the server sends has the format of
its id. The numbers in it come from the tables, from `m_connUserMap` and from the requests; they are what an `int`
holds as long as the ids of the tables are (`IdsFit`, `Ranged`).
-/

namespace Chatroom.Service

open Lib Json

/-! ## One command -/

/-- What is sent has its format, and what is stored of the numbers that are sent later is an `int`. -/
@[simp] def Cmd.Sound : Cmd → Prop
  | .send _ js => ∃ m, Conforms (replyFormat m) js
  | .setConnUser _ userid => IsInt userid
  | .insertFile senderId receiverId _ => IsInt senderId ∧ IsInt receiverId
  | _ => True

/-- The numbers in the answers are what an `int`, or a `size_t`, holds. -/
@[simp] def Sized : (c : Cmd) → Ans c → Prop
  | .connUser _, userid => IsInt userid
  | .insertUser _ _ _, id => ∀ i ∈ id, IsInt i
  | .queryUser _, user => IsInt user.id
  | .queryUserByName _, user => IsInt user.id
  | .queryUsers, users => ∀ user ∈ users, IsInt user.id
  | .queryFriends _, users => ∀ user ∈ users, IsInt user.id
  | .selectUser _, users => ∀ user ∈ users, IsInt user.id
  | .groupUsers _ _, users => ∀ user ∈ users, IsInt user.id
  | .queryAllGroup, groups => ∀ group ∈ groups, IsInt group.id
  | .queryOwnGroup _, groups => ∀ group ∈ groups, IsInt group.id
  | .queryFiles _, files => ∀ file ∈ files, IsInt file.senderId ∧ IsInt file.receiverId
  | .queryPrivateHistory _ _ _, histories => ∀ history ∈ histories, IsInt history.id₁ ∧ IsInt history.id₂
  | .queryGroupHistory _ _, histories => ∀ history ∈ histories, IsInt history.id₁ ∧ IsInt history.id₂
  | .fstat, size => ∀ n ∈ size, n < 2 ^ 64
  | _, _ => True

/-- The next ids are in the range of the columns, which are `INT`s. -/
structure IdsFit (db : Db) : Prop where
  user : db.user.next < 2 ^ 31
  allGroup : db.allGroup.next < 2 ^ 31

instance (db : Db) : Decidable (IdsFit db) :=
  decidable_of_iff (db.user.next < 2 ^ 31 ∧ db.allGroup.next < 2 ^ 31) ⟨fun ⟨h, h'⟩ => ⟨h, h'⟩, fun ⟨h, h'⟩ => ⟨h, h'⟩⟩

/-- The numbers that the server holds are what an `int` holds, and what it has sent has its format. -/
structure Ranged (w : World) : Prop where
  connUser : ∀ conn u, w.connUserMap conn = some u → IsInt u
  file : ∀ name row, w.db.fileTransfers.lookup name = some row → IsInt row.senderid ∧ IsInt row.receiverid
  privateChat : ∀ history ∈ w.db.privateChatHistory, IsInt history.id₁ ∧ IsInt history.id₂
  groupChat : ∀ history ∈ w.db.groupChatHistory, IsInt history.id₁ ∧ IsInt history.id₂
  sent : ∀ p ∈ w.sent, ∃ m, Conforms (replyFormat m) p.2

section Exec

variable {env : Environment} {w : World}

theorem isInt_of_lookup {ν : Type} {t : AutoTable ν} (ht : t.next < 2 ^ 31) {id : ℤ} {v : ν}
    (h : t.lookup id = some v) : IsInt id := by
  have hbounds := AutoTable.bounds_of_lookup h
  exact ⟨by omega, by omega⟩

theorem isInt_next {ν : Type} {t : AutoTable ν} (ht : t.next < 2 ^ 31) : IsInt t.next := by
  have hpos := t.pos
  exact ⟨by omega, ht⟩

theorem isInt_default : IsInt (-1) := ⟨by decide, by decide⟩

theorem isInt_zero : IsInt 0 := ⟨by decide, by decide⟩

/-- What a `JOIN` finds comes from a row of the second table. -/
theorem exists_of_join {p : Prop} [Decidable p] {α β : Type} {x : Option α} {f : α → β} {b : β}
    (h : (if p then x.map f else none) = some b) : ∃ a, x = some a ∧ f a = b := by
  split at h
  · exact Option.map_eq_some_iff.1 h
  · cases h

theorem mem_latest {count : ℕ} {l : List ChatHistory} {history : ChatHistory} (h : history ∈ Db.latest count l) :
    history ∈ l :=
  (List.mergeSort_perm l _).mem_iff.1 (List.mem_of_mem_take h)

theorem sized_exec (hos : ∀ k, (env.os k).size < 2 ^ 64) (hids : IdsFit w.db) (hw : Ranged w) (c : Cmd) :
    Sized c (exec env c w).1 := by
  have huser : ∀ {id row}, w.db.user.lookup id = some row → IsInt id := isInt_of_lookup hids.user
  have hgroup : ∀ {id row}, w.db.allGroup.lookup id = some row → IsInt id := isInt_of_lookup hids.allGroup
  cases c <;> first | trivial | skip
  case connUser conn =>
    show IsInt ((w.connUserMap conn).getD 0)
    cases h : w.connUserMap conn with
    | none => exact isInt_zero
    | some u => exact hw.connUser conn u h
  case insertUser name password state =>
    intro i hi
    change i ∈ (if _ then none else some w.db.user.next) at hi
    split at hi
    · cases hi
    · obtain rfl := Option.some.inj hi
      exact isInt_next hids.user
  case queryUser id =>
    show IsInt (w.db.queryUser id).id
    unfold Db.queryUser
    split
    case h_1 row h => exact huser h
    case h_2 => exact isInt_default
  case queryUserByName name =>
    show IsInt (w.db.queryUserByName env.collate name).id
    unfold Db.queryUserByName
    split
    case h_1 id row h => exact huser (AutoTable.mem_rows.1 (List.mem_of_find?_eq_some h))
    case h_2 => exact isInt_default
  case queryUsers =>
    intro user huser'
    obtain ⟨⟨id, row⟩, hrow, rfl⟩ := List.mem_map.1 huser'
    exact huser (AutoTable.mem_rows.1 hrow)
  case queryFriends userid =>
    intro user hmem
    obtain ⟨r, -, h⟩ := List.mem_filterMap.1 hmem
    obtain ⟨row, hrow, rfl⟩ := exists_of_join h
    exact huser hrow
  case selectUser id =>
    intro user hmem
    obtain ⟨row, hrow, rfl⟩ := List.mem_map.1 hmem
    exact huser (Option.mem_toList.1 hrow)
  case groupUsers groupid requests =>
    intro user hmem
    obtain ⟨r, -, h⟩ := List.mem_filterMap.1 hmem
    obtain ⟨row, hrow, rfl⟩ := exists_of_join h
    exact huser hrow
  case queryAllGroup =>
    intro group hmem
    obtain ⟨⟨id, name⟩, hrow, rfl⟩ := List.mem_map.1 hmem
    exact hgroup (AutoTable.mem_rows.1 hrow)
  case queryOwnGroup userid =>
    intro group hmem
    obtain ⟨r, -, h⟩ := List.mem_filterMap.1 hmem
    obtain ⟨row, hrow, rfl⟩ := exists_of_join h
    exact hgroup hrow
  case queryFiles receiverId =>
    intro file hmem
    obtain ⟨⟨name, row⟩, hrow, h⟩ := List.mem_filterMap.1 hmem
    change (if row.receiverid = receiverId then some _ else none) = some file at h
    split at h
    · obtain rfl := Option.some.inj h
      exact hw.file name row (Table.mem_rows.1 hrow)
    · cases h
  case queryPrivateHistory senderId receiverId count =>
    exact fun history h => hw.privateChat history (List.mem_of_mem_filter (mem_latest h))
  case queryGroupHistory groupId count =>
    exact fun history h => hw.groupChat history (List.mem_of_mem_filter (mem_latest h))
  case fstat =>
    intro n hn
    change n ∈ (if _ then some (env.os w.osCalls).size else none) at hn
    split at hn
    · obtain rfl := Option.some.inj hn
      exact hos _
    · cases hn

theorem isInt_update {m : Conn → Option ℤ} (hm : ∀ conn u, m conn = some u → IsInt u) {conn : Conn} {x : Option ℤ}
    (hx : ∀ u, x = some u → IsInt u) : ∀ conn' u, Function.update m conn x conn' = some u → IsInt u := by
  intro conn' u h
  by_cases heq : conn' = conn
  · subst heq
    rw [Function.update_self] at h
    exact hx u h
  · rw [Function.update_of_ne heq] at h
    exact hm conn' u h

theorem ranged_exec (hw : Ranged w) {c : Cmd} (hc : c.Sound) (hanswer : Sized c (exec env c w).1) :
    Ranged (exec env c w).2 := by
  obtain ⟨hconn, hfile, hprivate, hgroup, hsent⟩ := hw
  cases c <;> first | exact ⟨hconn, hfile, hprivate, hgroup, hsent⟩ | skip
  case connUser conn =>
    refine ⟨isInt_update hconn fun u h => ?_, hfile, hprivate, hgroup, hsent⟩
    obtain rfl := Option.some.inj h
    exact hanswer
  case setConnUser conn userid =>
    refine ⟨isInt_update hconn fun u h => ?_, hfile, hprivate, hgroup, hsent⟩
    obtain rfl := Option.some.inj h
    exact hc
  case eraseConnUser conn => exact ⟨isInt_update hconn (by simp), hfile, hprivate, hgroup, hsent⟩
  case insertFile senderId receiverId fileName =>
    refine ⟨hconn, fun name row h => ?_, hprivate, hgroup, hsent⟩
    change (w.db.fileTransfers.insert fileName ⟨senderId, receiverId, _⟩).lookup name = some row at h
    rw [Table.lookup_insert'] at h
    split at h
    · obtain rfl := Option.some.inj h
      exact hc
    · exact hfile name row h
  case send conn js =>
    refine ⟨hconn, hfile, hprivate, hgroup, fun p hp => ?_⟩
    rcases List.mem_append.1 hp with hp | hp
    · exact hsent p hp
    · rw [List.mem_singleton.1 hp]
      exact hc

end Exec

/-! ## The functions that handlers are made of -/

/-- What the program sends has its format, whatever it is answered in numbers of these sizes. -/
def Formatted (p : Task Unit) : Prop := p.Safe Cmd.Sound Sized fun _ => True

section

variable {conn : Conn} {fields : List (String × Json)}

/-- The message has the format of its id. -/
def Fits (fields : List (String × Json)) : Prop :=
  ∃ m, fields.lookup "msgid" = some (.msg m) ∧ HaveTypes FieldType.Holds (replyFormat m) fields

theorem conforms_iff_fits : (∃ m, Conforms (replyFormat m) (.obj fields)) ↔ Fits fields := by
  constructor
  · rintro ⟨m, h⟩
    have hfields := conforms_obj.1 h
    obtain ⟨value, hvalue, rfl⟩ := hfields.lookup (lookup_msgid_replyFormat m)
    exact ⟨m, hvalue, hfields⟩
  · rintro ⟨m, -, h⟩
    exact ⟨m, conforms_obj.2 h⟩

theorem fits_bare {m : EnMsgType} (h : replyFormat m = bare m) : Fits [("msgid", .msg m)] :=
  ⟨m, rfl, h ▸ by simp [bare]⟩

/-- The rows of a list have their format when each has. -/
theorem holds_rows {α : Type} (row : List (String × Scalar)) (l : List α) (f : α → List (String × Json))
    (h : ∀ a ∈ l, HaveTypes Scalar.Holds row (f a)) : (FieldType.rows row).Holds (.arr (l.map fun a => dumped (f a))) := by
  refine ⟨l.map f, fun fields hmem => ?_, ?_⟩
  · obtain ⟨a, ha, rfl⟩ := List.mem_map.1 hmem
    exact h a ha
  · rw [List.map_map]
    rfl

theorem holds_named {users : List User} (h : ∀ user ∈ users, IsInt user.id) :
    (FieldType.rows named).Holds (.arr (users.map fun user => dumped [("id", .num user.id), ("name", .str user.name)])) :=
  holds_rows _ _ _ fun user hmem => by simpa [named] using h user hmem

theorem holds_users {users : List User} (h : ∀ user ∈ users, IsInt user.id) :
    (FieldType.rows userRow).Holds (.arr (users.map fun user =>
      dumped [("id", .num user.id), ("name", .str user.name), ("state", .str user.state)])) :=
  holds_rows _ _ _ fun user hmem => by simpa [userRow, named] using h user hmem

theorem holds_groups {groups : List Group} (h : ∀ group ∈ groups, IsInt group.id) :
    (FieldType.rows named).Holds
      (.arr (groups.map fun group => dumped [("id", .num group.id), ("name", .str group.name)])) :=
  holds_rows _ _ _ fun group hmem => by simpa [named] using h group hmem

theorem holds_memberList {users : List User} (h : ∀ user ∈ users, IsInt user.id) :
    (FieldType.rows memberRow).Holds (memberList users) :=
  holds_rows _ _ _ fun user hmem => by simpa [memberRow, named] using h user hmem

@[simp] theorem sound_send {p : Unit → Prop} : (send conn fields).Safe Cmd.Sound Sized p ↔ Fits fields ∧ p () :=
  ⟨fun h => ⟨conforms_iff_fits.1 h.1, h.2 () trivial⟩, fun h => ⟨conforms_iff_fits.2 h.1, fun _ _ => h.2⟩⟩

@[simp] theorem sound_sendMsg {m : EnMsgType} {p : Unit → Prop} :
    (sendMsg conn m).Safe Cmd.Sound Sized p ↔ Fits [("msgid", .msg m)] ∧ p () :=
  sound_send

@[simp] theorem sound_withConn {userid : ℤ} {found : Conn → Task Unit} {p : Unit → Prop} :
    (withConn userid found).Safe Cmd.Sound Sized p ↔ (∀ d, (found d).Safe Cmd.Sound Sized p) ∧ p () := by
  constructor
  · exact fun h => ⟨fun d => h.2 (some d) trivial, h.2 none trivial⟩
  · rintro ⟨hsome, hnone⟩
    refine ⟨trivial, fun it _ => ?_⟩
    cases it with
    | none => exact hnone
    | some d => exact hsome d

@[simp] theorem sound_sendToUser {userid : ℤ} {p : Unit → Prop} :
    (sendToUser userid fields).Safe Cmd.Sound Sized p ↔ Fits fields ∧ p () := by
  simp only [sendToUser, sound_withConn, sound_send, forall_const]
  tauto

@[simp] theorem sound_connUser {p : ℤ → Prop} :
    (connUser conn).Safe Cmd.Sound Sized p ↔ ∀ u, IsInt u → p u := by
  simp [connUser]

@[simp] theorem sound_hasRole {roles : List Role} {userid groupid : ℤ} {p : Bool → Prop} :
    (hasRole roles userid groupid).Safe Cmd.Sound Sized p ↔
      ∀ role : Option Role, p (roles.any fun r => role = some r) := by
  simp [hasRole]

theorem sound_selectUsers {vec : List ℤ} {p : List (List User) → Prop}
    (h : ∀ users, (∀ user ∈ users.flatten, IsInt user.id) → p users) :
    (vec.mapM fun id => perform (.selectUser id)).Safe Cmd.Sound Sized p := by
  induction vec generalizing p with
  | nil => exact h [] (by simp)
  | cons id vec ih =>
    rw [List.mapM_cons, Program.safe_bind]
    refine ⟨trivial, fun found hfound => ?_⟩
    rw [Program.safe_ret, Program.safe_bind]
    refine ih fun users husers => h _ fun user hmem => ?_
    rcases List.mem_append.1 hmem with hmem | hmem
    · exact hfound user hmem
    · exact husers user hmem

end

/-! ## The handlers -/

section Handlers

variable (conn : Conn) (js : Json) (time : String)

theorem formatted_reg : Formatted (reg conn js time) := by
  simp only [Formatted, reg, Program.safe_bind, safe_read]
  intro name _ pwd _
  refine ⟨trivial, fun id hid => ?_⟩
  cases id with
  | none => exact sound_sendMsg.2 ⟨fits_bare rfl, trivial⟩
  | some id => simpa [Fits, replyFormat, List.lookup_cons] using hid

theorem formatted_login : Formatted (login conn js time) := by
  simp only [Formatted, login, Program.safe_bind, safe_read]
  intro name _ pwd _
  refine ⟨trivial, fun user huser => ?_⟩
  rw [Program.safe_ret, Program.safe_ite, Program.safe_ite]
  refine ⟨fun _ => ⟨fun _ => sound_sendMsg.2 ⟨fits_bare rfl, trivial⟩, fun _ => ?_⟩, fun _ => ?_⟩
  · have hint : IsInt user.id := huser
    simp only [Program.safe_bind, Program.safe_perform, sound_send]
    refine ⟨trivial, fun _ _ => ⟨huser, fun _ _ => ⟨trivial, fun _ _ => ⟨trivial, fun _ _ => ⟨?_, trivial, ?_⟩⟩⟩⟩⟩
    · simpa [Fits, replyFormat, List.lookup_cons] using hint
    · exact fun userVec _ => Program.safe_forM (fun _ _ => by simpa [Fits, replyFormat, List.lookup_cons]) trivial
  · simp [Fits, replyFormat, List.lookup_cons]

theorem formatted_handleDisplayAllUserList : Formatted (handleDisplayAllUserList conn js time) := by
  simp only [Formatted, handleDisplayAllUserList, Program.safe_bind, sound_connUser, Program.safe_perform, sound_send]
  refine fun _ _ => ⟨trivial, fun userVec husers => ⟨?_, trivial⟩⟩
  simpa [Fits, replyFormat] using holds_users husers

theorem formatted_handleAddFriend : Formatted (handleAddFriend conn js time) := by
  have hrequest : Fits [("msgid", .msg .addFriendRequest)] := fits_bare rfl
  have hnotice : Fits [("msgid", .msg .toAddFriendRequest)] := fits_bare rfl
  have hsuccess : ∀ id addName state, IsInt id → Fits [("friend_id", .num id), ("friend_name", .str addName),
      ("friend_state", .str state), ("msgid", .msg .addFriendSuccess)] :=
    fun id addName state hid => ⟨_, rfl, by simpa [replyFormat] using hid⟩
  have hagree : ∀ name, Fits [("friend_name", .str name), ("msgid", .msg .theOtherAgreeFriendRequest)] :=
    fun name => ⟨_, rfl, by simp [replyFormat]⟩
  simp only [Formatted, handleAddFriend, Program.safe_bind, safe_read, sound_connUser, Program.safe_perform]
  intro addName _ _ _
  refine ⟨trivial, fun addUser huser fromId _ => ⟨trivial, fun state1 _ => ⟨trivial, fun state2 _ => ?_⟩⟩⟩
  have hid : IsInt addUser.id := huser
  simp [hrequest, hnotice, hsuccess, hagree, hid]

theorem formatted_handleDeleteFriend : Formatted (handleDeleteFriend conn js time) := by
  simp [Formatted, handleDeleteFriend, fits_bare (m := .deleteFriendFail) rfl]

theorem formatted_handlePrivateChat : Formatted (handlePrivateChat conn js time) := by
  simp [Formatted, handlePrivateChat, Fits, replyFormat, List.lookup_cons]

theorem formatted_handleDisplayFriendList : Formatted (handleDisplayFriendList conn js time) := by
  simp only [Formatted, handleDisplayFriendList, Program.safe_bind, sound_connUser, Program.safe_perform, sound_send]
  refine fun _ _ => ⟨trivial, fun userVec husers => ⟨?_, trivial⟩⟩
  simpa [Fits, replyFormat, List.lookup_cons] using holds_users husers

theorem formatted_handleFriendRequestList : Formatted (handleFriendRequestList conn js time) := by
  simp only [Formatted, handleFriendRequestList, requestQuery, Program.safe_bind, sound_connUser,
    Program.safe_perform]
  refine fun _ _ => ⟨trivial, fun vec _ => sound_selectUsers fun users husers => ?_⟩
  simpa [Fits, replyFormat] using holds_named husers

theorem formatted_handleBlockFriend : Formatted (handleBlockFriend conn js time) := by
  simp [Formatted, handleBlockFriend, fits_bare (m := .blockFriendSuccess) rfl, fits_bare (m := .blockFriendFail) rfl]

theorem formatted_handleUnBlockFriend : Formatted (handleUnBlockFriend conn js time) := by
  simp [Formatted, handleUnBlockFriend, fits_bare (m := .unblockFriendSuccess) rfl,
    fits_bare (m := .unblockFriendFail) rfl]

theorem formatted_handleBlockFriendList : Formatted (handleBlockFriendList conn js time) := by
  simp only [Formatted, handleBlockFriendList, blockQuery, Program.safe_bind, sound_connUser, Program.safe_perform]
  refine fun _ _ => ⟨trivial, fun vec _ => sound_selectUsers fun users husers => ?_⟩
  simpa [Fits, replyFormat, List.lookup_cons] using holds_named husers

theorem formatted_handleCheckBlock : Formatted (handleCheckBlock conn js time) := by
  simp [Formatted, handleCheckBlock, stateText, Fits, replyFormat]

theorem formatted_handleCreateGroup : Formatted (handleCreateGroup conn js time) := by
  simp only [Formatted, handleCreateGroup, Program.safe_bind, safe_read, sound_connUser]
  intro groupName _ userid _
  refine ⟨trivial, fun group _ => ?_⟩
  cases group <;> simp [fits_bare (m := .createGroupFail) rfl, fits_bare (m := .createGroupSuccess) rfl]

theorem formatted_handleDisplayAllGroupList : Formatted (handleDisplayAllGroupList conn js time) := by
  simp only [Formatted, handleDisplayAllGroupList, Program.safe_bind, Program.safe_perform, sound_send]
  refine ⟨trivial, fun groupVec hgroups => ⟨?_, trivial⟩⟩
  simpa [Fits, replyFormat, List.lookup_cons] using holds_groups hgroups

theorem formatted_requestAddGroup : Formatted (requestAddGroup conn js time) := by
  have hnotify : ∀ groupid userid, IsInt groupid → IsInt userid →
      Formatted (responseToMasterOrManager groupid userid) := by
    intro groupid userid hgroup huser
    rw [Formatted, responseToMasterOrManager, Program.safe_bind]
    refine ⟨trivial, fun userVec _ => Program.safe_forM (fun user _ => ?_) trivial⟩
    simp [Fits, replyFormat, aboutMember, List.lookup_cons, hgroup, huser]
  simp only [Formatted] at hnotify
  simp only [Formatted, requestAddGroup, ifMasterOrManagerORnormal, Program.safe_bind, safe_read, sound_connUser]
  intro groupid hgroupid userid huserid
  have hnotified := hnotify groupid userid (isInt_intField hgroupid) huserid
  simp [hnotified, fits_bare (m := .requestGroupSuccess) rfl, fits_bare (m := .alreadyInGroup) rfl,
    fits_bare (m := .requestGroupFail) rfl]

theorem formatted_handleGroupRequestList : Formatted (handleGroupRequestList conn js time) := by
  simp only [Formatted, handleGroupRequestList, ifMasterOrManager, Program.safe_bind, safe_read, sound_connUser,
    sound_hasRole, Program.safe_ite, sound_sendMsg, Program.safe_perform, sound_send]
  refine fun groupid _ userid _ role => ⟨fun _ => ⟨fits_bare rfl, trivial⟩, fun _ => ⟨trivial, ?_⟩⟩
  refine fun userVec husers => ⟨?_, trivial⟩
  simpa [Fits, replyFormat] using holds_named husers

theorem formatted_handleAddSomeoneToGroup : Formatted (handleAddSomeoneToGroup conn js time) := by
  simp only [Formatted, handleAddSomeoneToGroup, ifMasterOrManager, Program.safe_bind, safe_read]
  intro groupid hgroupid userid _
  simp +contextual [Fits, replyFormat, bare, List.lookup_cons, isInt_intField hgroupid]

theorem formatted_handleQuitGroup : Formatted (handleQuitGroup conn js time) := by
  simp [Formatted, handleQuitGroup, ifManagerOrNormal, fits_bare (m := .quitGroupFail) rfl,
    fits_bare (m := .quitGroupSuccess) rfl]

theorem formatted_handleShowOwnGroupList : Formatted (handleShowOwnGroupList conn js time) := by
  simp only [Formatted, handleShowOwnGroupList, Program.safe_bind, sound_connUser, Program.safe_perform, sound_send]
  refine fun userid _ => ⟨trivial, fun groupVec hgroups => ⟨?_, trivial⟩⟩
  simpa [Fits, replyFormat, List.lookup_cons] using
    holds_groups fun group hmem => hgroups group (List.mem_of_mem_filter hmem)

theorem formatted_handleShowGroupMemberList : Formatted (handleShowGroupMemberList conn js time) := by
  simp only [Formatted, handleShowGroupMemberList, ifMasterOrManagerORnormal, Program.safe_bind, safe_read,
    sound_connUser, sound_hasRole, Program.safe_ite, sound_sendMsg, Program.safe_perform, sound_send]
  refine fun groupid _ userid _ role => ⟨fun _ => ⟨fits_bare rfl, trivial⟩, fun _ => ⟨trivial, ?_⟩⟩
  refine fun userVec husers => ⟨?_, trivial⟩
  simpa [Fits, replyFormat, List.lookup_cons] using holds_memberList husers

theorem formatted_handleDisplaySetManagerMemberList :
    Formatted (handleDisplaySetManagerMemberList conn js time) := by
  simp only [Formatted, handleDisplaySetManagerMemberList, ifMaster, Program.safe_bind, safe_read,
    sound_connUser, sound_hasRole, Program.safe_ite, sound_sendMsg, Program.safe_perform, sound_send]
  refine fun groupid _ userid _ role => ⟨fun _ => ⟨fits_bare rfl, trivial⟩, fun _ => ⟨trivial, ?_⟩⟩
  refine fun userVec husers => ⟨?_, trivial⟩
  simpa [Fits, replyFormat, List.lookup_cons] using holds_memberList husers

theorem formatted_handleSetManager : Formatted (handleSetManager conn js time) := by
  simp only [Formatted, handleSetManager, Program.safe_bind, safe_read]
  intro groupid hgroupid userid _
  simp [Fits, replyFormat, bare, aboutGroup, List.lookup_cons, isInt_intField hgroupid]

theorem formatted_handleCancelManager : Formatted (handleCancelManager conn js time) := by
  simp [Formatted, handleCancelManager, ifManager, fits_bare (m := .cancelManagerFail) rfl,
    fits_bare (m := .cancelManagerSuccess) rfl]

theorem formatted_handleKickSomeoneInGroup : Formatted (handleKickSomeoneInGroup conn js time) := by
  simp only [Formatted, handleKickSomeoneInGroup, kick, Program.safe_bind, safe_read]
  intro groupid hgroupid userid _
  simp [Fits, replyFormat, bare, aboutGroup, List.lookup_cons, isInt_intField hgroupid]

theorem formatted_handleCheckIfGroupMember : Formatted (handleCheckIfGroupMember conn js time) := by
  simp [Formatted, handleCheckIfGroupMember, Fits, replyFormat]

theorem formatted_handleGroupChat : Formatted (handleGroupChat conn js time) := by
  simp only [Formatted, handleGroupChat, Program.safe_bind, safe_read, sound_connUser, Program.safe_perform]
  intro groupid hgroupid msg _ fromName _
  refine ⟨trivial, fun userVec _ sender _ => ⟨trivial, fun timestamp _ => ⟨trivial, fun _ _ => ?_⟩⟩⟩
  refine Program.safe_forM (fun userid _ => ?_) trivial
  simp [Fits, replyFormat, List.lookup_cons, isInt_intField hgroupid]

theorem formatted_handleMasterDeleteGroup : Formatted (handleMasterDeleteGroup conn js time) := by
  simp [Formatted, handleMasterDeleteGroup, ifMaster, fits_bare (m := .masterDeleteGroupFail) rfl,
    fits_bare (m := .masterDeleteGroupSuccess) rfl]

theorem formatted_handleSendFileDataBase : Formatted (handleSendFileDataBase conn js time) := by
  simp only [Formatted, handleSendFileDataBase, Program.safe_bind, safe_read]
  intro userid huserid recvId hrecvId filename _
  simp [fits_bare (m := .sendFileDatabaseSuccess) rfl, isInt_intField huserid, isInt_intField hrecvId]

theorem formatted_handleDisplayFileList : Formatted (handleDisplayFileList conn js time) := by
  simp only [Formatted, handleDisplayFileList, Program.safe_bind, sound_connUser, Program.safe_perform, sound_send]
  refine fun userid _ => ⟨trivial, fun fileVec hfiles => ⟨?_, trivial⟩⟩
  have hrows := holds_rows fileRow fileVec (fun file => [("filename", .str file.fileName),
    ("receiver", .num file.receiverId), ("sender", .num file.senderId), ("time", .str file.createTime)])
    fun file hmem => by simpa [fileRow, and_comm] using hfiles file hmem
  simpa [Fits, replyFormat, List.lookup_cons] using hrows

theorem formatted_handleReceiveFile : Formatted (handleReceiveFile conn js time) := by
  simp only [Formatted, handleReceiveFile, Program.safe_bind, safe_read]
  intro filename _
  refine ⟨trivial, fun opened _ => ?_⟩
  rw [Program.safe_ret, Program.safe_ite]
  refine ⟨fun _ => sound_sendMsg.2 ⟨fits_bare rfl, trivial⟩, fun _ => ?_⟩
  rw [Program.safe_bind, Program.safe_perform]
  refine ⟨trivial, fun size hsize => ?_⟩
  cases size with
  | none => simp
  | some fileSize =>
    have hlt : fileSize < 18446744073709551616 := hsize fileSize rfl
    simp [Fits, replyFormat, bare, List.lookup_cons, hlt]

theorem formatted_handleDisplayPrivateHistory : Formatted (handleDisplayPrivateHistory conn js time) := by
  simp only [Formatted, handleDisplayPrivateHistory, Program.safe_bind, sound_connUser, safe_read,
    Program.safe_perform, sound_send]
  refine fun userid _ friendid _ => ⟨trivial, fun historyVec hhistory => ⟨?_, trivial⟩⟩
  have hrows := holds_rows privateRow historyVec.reverse
    (fun history => [("from", .num history.id₁), ("msg", .str history.message),
      ("time", .str history.sendTime), ("to", .num history.id₂)])
    fun history hmem => by simpa [privateRow] using hhistory history (List.mem_reverse.1 hmem)
  simpa [Fits, replyFormat, List.lookup_cons, List.map_reverse] using hrows

theorem formatted_handleDisplayGroupHistory : Formatted (handleDisplayGroupHistory conn js time) := by
  simp only [Formatted, handleDisplayGroupHistory, Program.safe_bind, safe_read, Program.safe_perform, sound_send]
  refine fun groupid _ => ⟨trivial, fun historyVec hhistory => ⟨?_, trivial⟩⟩
  have hrows := holds_rows groupRow historyVec.reverse
    (fun history => [("from", .num history.id₂), ("groupid", .num history.id₁), ("msg", .str history.message),
      ("time", .str history.sendTime)])
    fun history hmem => by simpa [groupRow, and_comm] using hhistory history (List.mem_reverse.1 hmem)
  simpa [Fits, replyFormat, List.lookup_cons, List.map_reverse] using hrows

theorem formatted_of_mem {m : EnMsgType} {h : Handler} (hmem : (m, h) ∈ handlersMap) : Formatted (h conn js time) := by
  simp only [handlersMap, List.mem_cons, List.not_mem_nil, or_false, Prod.mk.injEq] at hmem
  rcases hmem with ⟨-, rfl⟩ | ⟨-, rfl⟩ | ⟨-, rfl⟩ | ⟨-, rfl⟩ | ⟨-, rfl⟩ | ⟨-, rfl⟩ | ⟨-, rfl⟩ | ⟨-, rfl⟩ | ⟨-, rfl⟩ |
    ⟨-, rfl⟩ | ⟨-, rfl⟩ | ⟨-, rfl⟩ | ⟨-, rfl⟩ | ⟨-, rfl⟩ | ⟨-, rfl⟩ | ⟨-, rfl⟩ | ⟨-, rfl⟩ | ⟨-, rfl⟩ | ⟨-, rfl⟩ |
    ⟨-, rfl⟩ | ⟨-, rfl⟩ | ⟨-, rfl⟩ | ⟨-, rfl⟩ | ⟨-, rfl⟩ | ⟨-, rfl⟩ | ⟨-, rfl⟩ | ⟨-, rfl⟩ | ⟨-, rfl⟩ | ⟨-, rfl⟩ |
    ⟨-, rfl⟩ | ⟨-, rfl⟩ | ⟨-, rfl⟩
  · exact formatted_reg conn js time
  · exact formatted_login conn js time
  · exact formatted_handleDisplayAllUserList conn js time
  · exact formatted_handleAddFriend conn js time
  · exact formatted_handleDeleteFriend conn js time
  · exact formatted_handlePrivateChat conn js time
  · exact formatted_handleDisplayFriendList conn js time
  · exact formatted_handleFriendRequestList conn js time
  · exact formatted_handleBlockFriend conn js time
  · exact formatted_handleUnBlockFriend conn js time
  · exact formatted_handleBlockFriendList conn js time
  · exact formatted_handleCheckBlock conn js time
  · exact formatted_handleCreateGroup conn js time
  · exact formatted_handleDisplayAllGroupList conn js time
  · exact formatted_requestAddGroup conn js time
  · exact formatted_handleGroupRequestList conn js time
  · exact formatted_handleAddSomeoneToGroup conn js time
  · exact formatted_handleQuitGroup conn js time
  · exact formatted_handleShowOwnGroupList conn js time
  · exact formatted_handleShowGroupMemberList conn js time
  · exact formatted_handleDisplaySetManagerMemberList conn js time
  · exact formatted_handleSetManager conn js time
  · exact formatted_handleCancelManager conn js time
  · exact formatted_handleKickSomeoneInGroup conn js time
  · exact formatted_handleCheckIfGroupMember conn js time
  · exact formatted_handleGroupChat conn js time
  · exact formatted_handleMasterDeleteGroup conn js time
  · exact formatted_handleSendFileDataBase conn js time
  · exact formatted_handleDisplayFileList conn js time
  · exact formatted_handleReceiveFile conn js time
  · exact formatted_handleDisplayPrivateHistory conn js time
  · exact formatted_handleDisplayGroupHistory conn js time

theorem formatted_getHandler (msgid : ℤ) : Formatted (getHandler msgid conn js time) := by
  unfold getHandler
  cases hfind : handlersMap.find? fun h => h.1.code = msgid with
  | none => trivial
  | some h => exact formatted_of_mem conn js time (List.mem_of_find?_eq_some hfind)

end Handlers

/-! ## Runs -/

theorem Activity.formatted_body (a : Activity) : Formatted a.body := by
  cases a with
  | request conn msgid js time => exact formatted_getHandler conn js time msgid
  | connStatus conn status => simp [Formatted, body, setConnStatus]
  | removeConnStatus conn => simp [Formatted, body, Service.removeConnStatus]
  | down conn =>
    simp only [Formatted, body, clientClose, Program.safe_bind, Program.safe_perform]
    refine ⟨trivial, fun it _ => ?_⟩
    cases it with
    | none => simp
    | some userId => simp [setOffline]
  | heartbeat =>
    simp only [Formatted, body, checkIfConnAlive, Program.safe_bind, Program.safe_perform]
    refine ⟨trivial, fun conns _ => Program.safe_forM (fun conn _ => ?_) trivial⟩
    simp [dropConn, setOffline, fits_bare (m := .clientLongtimeExit) rfl]

/-- The server's state is ranged, and what is left of its threads sends messages with their formats. -/
abbrev SendsFormatted (s : Threads) : Prop := s.Keeps Cmd.Sound Sized Ranged

theorem sendsFormatted_step {env : Environment} (hos : ∀ k, (env.os k).size < 2 ^ 64) {s t : Threads}
    {a : Pool.Action Activity} (hids : IdsFit s.shared.db) (hst : (server env).step s a = some t)
    (hs : SendsFormatted s) : SendsFormatted t := by
  refine Pool.keeps_step (T := fun w => IdsFit w.db) Activity.body (exec env) Activity.formatted_body ?_ hids hst hs
  intro c w hc hids hw
  have hsized := sized_exec hos hids hw c
  exact ⟨hsized, ranged_exec hw hc hsized⟩

theorem sendsFormatted_start {n : ℕ} {w : World} (hw : Ranged w) : SendsFormatted (Pool.start n w) :=
  ⟨hw, by simp⟩

theorem ranged_empty : Ranged (.init .empty) where
  connUser := by simp [World.init]
  file := by simp [World.init, Db.empty]
  privateChat := by simp [World.init, Db.empty]
  groupChat := by simp [World.init, Db.empty]
  sent := by simp [World.init]

end Chatroom.Service
