import Chatroom.Service.Footprint
import Chatroom.Service.Server

/-!
# What requests do to groups

The tables of the groups and `m_groupUserListMap` seen alone (`Groups`), and the group requests as operations
on them in the name of a user (`GroupOp.apply`). `groups_request` says that this is what the handlers do,
every one of them, on every message.
-/

namespace Chatroom.Service

open Lib

structure Groups where
  allGroup : AutoTable String
  groupUser : Table (ℤ × ℤ) Role
  /-- `m_groupUserListMap` -/
  userList : ℤ → Option (List ℤ)

def World.groups (w : World) : Groups := ⟨w.db.allGroup, w.db.groupUser, w.groupUserListMap⟩

theorem World.allGroup_groups (w : World) : w.groups.allGroup = w.db.allGroup := rfl

namespace Groups

variable (s : Groups)

def role (g u : ℤ) : Option Role := s.groupUser.lookup (g, u)

theorem role_groups (w : World) (g u : ℤ) : w.groups.role g u = w.db.queryGroupRole u g := rfl

/-- The user is one of those who run the group. -/
def Runs (g u : ℤ) : Prop := s.role g u = some .master ∨ s.role g u = some .manager

instance (g u : ℤ) : Decidable (s.Runs g u) := inferInstanceAs (Decidable (_ ∨ _))

/-- The guards of `handleKickSomeoneInGroup` for `u` who kicks `v`. -/
def Kicks (g u v : ℤ) : Prop := s.role g v ≠ none ∧ s.role g v ≠ some .request ∧
  (s.role g u = some .master ∨
    (s.role g u = some .manager ∧ s.role g v ≠ some .manager ∧ s.role g v ≠ some .master))

instance (g u v : ℤ) : Decidable (s.Kicks g u v) := inferInstanceAs (Decidable (_ ∧ _))

/-- The user belongs to the group. -/
def Member (g u : ℤ) : Prop := ∃ r, s.role g u = some r ∧ r ≠ .request

/-- The name is taken: `createGroup` fails. -/
def refuses (collate : String → String) (name : String) : Bool :=
  s.allGroup.rows.any fun r => collate r.2 = collate name

def setRole (g u : ℤ) (r : Role) : Groups := { s with groupUser := s.groupUser.modify (g, u) fun _ => r }

def insertRole (g u : ℤ) (r : Role) : Groups := { s with groupUser := s.groupUser.insertIgnore (g, u) r }

def eraseRole (g u : ℤ) : Groups := { s with groupUser := s.groupUser.erase (g, u) }

def setList (g : ℤ) (l : Option (List ℤ)) : Groups := { s with userList := Function.update s.userList g l }

end Groups

/-- A group request, as read off its message. -/
inductive GroupOp where
  | create (name : String)
  | request (g : ℤ)
  | add (g v : ℤ)
  | quit (g : ℤ)
  | setManager (g v : ℤ)
  | cancelManager (g v : ℤ)
  | kick (g v : ℤ)
  | chat (g : ℤ)
  | delete (g : ℤ)

namespace GroupOp

/-- The fields of a message that names a group and one of its users. -/
def readTwo (op : ℤ → ℤ → GroupOp) (js : Json) : Option GroupOp := do
  let g ← (js.intField "groupid").toOption
  let v ← (js.intField "userid").toOption
  return op g v

/-- The request in a message; none when a field is missing or is of another type. -/
def read : EnMsgType → Json → Option GroupOp
  | .createGroup, js => (js.stringField "groupname").toOption.map create
  | .requestGroup, js => (js.intField "add_group_id").toOption.map request
  | .addGroup, js => readTwo add js
  | .quitGroup, js => (js.intField "groupid").toOption.map quit
  | .setManager, js => readTwo setManager js
  | .cancelManager, js => readTwo cancelManager js
  | .kickSomeone, js => readTwo kick js
  | .groupChat, js => do
    let g ← (js.intField "groupid").toOption
    let _ ← (js.stringField "msg").toOption
    let _ ← (js.stringField "from_name").toOption
    return chat g
  | .masterDeleteGroup, js => (js.intField "groupid").toOption.map delete
  | _, _ => none

/-- What the request does in the name of `u`. -/
def apply (collate : String → String) (u : ℤ) (s : Groups) : GroupOp → Groups
  | create name =>
    let inserted := { s with allGroup := s.allGroup.insert (s.refuses collate name) name }
    let g := s.allGroup.next
    if s.refuses collate name then inserted
    else (inserted.insertRole g u .master).setList g (some ((s.userList g).getD [] ++ [u]))
  | request g => s.insertRole g u .request
  | add g v =>
    if s.Runs g u then (s.setRole g v .normal).setList g (some ((s.userList g).getD [] ++ [v])) else s
  | quit g =>
    if s.role g u = some .manager ∨ s.role g u = some .normal then
      (s.eraseRole g u).setList g ((s.userList g).map fun vec => removeAll vec u)
    else s
  | setManager g v => if s.role g v = some .normal then s.setRole g v .manager else s
  | cancelManager g v => if s.role g v = some .manager then s.setRole g v .normal else s
  | kick g v =>
    if s.Kicks g u v then (s.eraseRole g v).setList g (some (removeAll ((s.userList g).getD []) v)) else s
  | chat g => s.setList g (some ((s.userList g).getD []))
  | delete g =>
    if s.role g u = some .master then
      { allGroup := s.allGroup.erase g
        groupUser := s.groupUser.deleteWhere fun k => k.1 = g
        userList := Function.update s.userList g none }
    else s

end GroupOp

/-! ## The handlers of groups -/

@[simp] theorem World.groups_ask (w : World) (conn : Conn) : (w.ask conn).groups = w.groups := rfl

section Handlers

variable {env : Environment} {w : World}

theorem run_hasRole (roles : List Role) (userid groupid : ℤ) : (hasRole roles userid groupid).run (exec env) w =
    (.ok (roles.any fun r => w.groups.role groupid userid = some r), w) := rfl

theorem run_ifMaster (u g : ℤ) : (ifMaster u g).run (exec env) w =
    (.ok (decide (w.groups.role g u = some .master)), w) := by
  rw [ifMaster, run_hasRole]
  simp

theorem run_ifManager (u g : ℤ) : (ifManager u g).run (exec env) w =
    (.ok (decide (w.groups.role g u = some .manager)), w) := by
  rw [ifManager, run_hasRole]
  simp

theorem run_ifMasterOrManager (u g : ℤ) : (ifMasterOrManager u g).run (exec env) w =
    (.ok (decide (w.groups.Runs g u)), w) := by
  have hany : ([Role.master, .manager].any fun r => w.groups.role g u = some r) = decide (w.groups.Runs g u) := by
    rw [Bool.eq_iff_iff, decide_eq_true_iff]
    simp [Groups.Runs]
  rw [ifMasterOrManager, run_hasRole, hany]

theorem run_ifManagerOrNormal (u g : ℤ) : (ifManagerOrNormal u g).run (exec env) w =
    (.ok (decide (w.groups.role g u = some .manager ∨ w.groups.role g u = some .normal)), w) := by
  rw [ifManagerOrNormal, run_hasRole]
  simp [← Bool.decide_or]

theorem groups_exec {c : Cmd} (hc : c.area ≠ some .groups) (w : World) : (exec env c w).2.groups = w.groups := by
  cases c <;> first | rfl | exact absurd rfl hc

theorem groups_run {p : Task Unit} (h : p.Safe (fun c => c.area ≠ some .groups) (fun _ _ => True) fun _ => True)
    (w : World) : (p.run (exec env) w).2.groups = w.groups :=
  (h.run (exec env) (I := fun s => s.groups = w.groups)
    (fun _ s hc hs => ⟨trivial, (groups_exec hc s).trans hs⟩) rfl).1

variable (conn : Conn) (js : Json) (time : String)

/-- The request applied in the name of the user of the connection, if there is one. -/
def applyOp (env : Environment) (w : World) (conn : Conn) (op : Option GroupOp) : Groups :=
  op.elim w.groups (GroupOp.apply env.collate (w.userOf conn) w.groups)

theorem groups_handleCreateGroup : ((handleCreateGroup conn js time).run (exec env) w).2.groups =
    applyOp env w conn (GroupOp.read .createGroup js) := by
  unfold handleCreateGroup
  rw [show GroupOp.read .createGroup js = (js.stringField "groupname").toOption.map .create from rfl]
  cases hname : js.stringField "groupname" with
  | error e => simp [Program.run_bind, Except.toOption, applyOp]
  | ok name =>
    simp only [Program.run_bind, run_read_ok, run_ask, Program.run_perform, exec, Db.createGroup,
      Except.toOption, Option.map_some]
    show _ = GroupOp.apply env.collate (w.userOf conn) w.groups (.create name)
    cases hrefused : w.groups.refuses env.collate name with
    | true =>
      rw [Groups.refuses, World.allGroup_groups] at hrefused
      simp only [GroupOp.apply, Groups.refuses, World.allGroup_groups, World.ask, hrefused, if_true]
      rfl
    | false =>
      rw [Groups.refuses, World.allGroup_groups] at hrefused
      simp only [GroupOp.apply, Groups.refuses, World.allGroup_groups, World.ask, hrefused, Bool.false_eq_true,
        if_false]
      rfl

theorem groups_requestAddGroup : ((requestAddGroup conn js time).run (exec env) w).2.groups =
    applyOp env w conn (GroupOp.read .requestGroup js) := by
  unfold requestAddGroup
  rw [show GroupOp.read .requestGroup js = (js.intField "add_group_id").toOption.map .request from rfl]
  cases hgroup : js.intField "add_group_id" with
  | error e => simp [Program.run_bind, Except.toOption, applyOp]
  | ok g =>
    have hnotify : ∀ userid, (responseToMasterOrManager g userid).Safe (fun c => c.area ≠ some .groups)
        (fun _ _ => True) fun _ => True := by
      refine fun userid => ⟨by simp, fun userVec _ => Program.safe_forM (fun user _ => ?_) trivial⟩
      rw [Program.safe_ite]
      exact ⟨fun _ => safe_sendToUser_of (by simp) (by simp) trivial, fun _ => trivial⟩
    simp only [Program.run_bind, run_read_ok, run_ask, Program.run_perform, exec, Db.addGroup,
      Except.toOption, Option.map_some]
    split
    case isTrue =>
      simp only [Program.run_bind, run_sendMsg]
      exact groups_run (hnotify _) _
    case isFalse =>
      simp only [ifMasterOrManagerORnormal, Program.run_bind, run_hasRole]
      split <;> rfl

theorem groups_handleAddSomeoneToGroup : ((handleAddSomeoneToGroup conn js time).run (exec env) w).2.groups =
    applyOp env w conn (GroupOp.read .addGroup js) := by
  unfold handleAddSomeoneToGroup
  rw [show GroupOp.read .addGroup js = GroupOp.readTwo .add js from rfl]
  cases hgroup : js.intField "groupid" with
  | error e => simp [Program.run_bind, GroupOp.readTwo, hgroup, Except.toOption, applyOp]
  | ok g =>
    cases huser : js.intField "userid" with
    | error e => simp [Program.run_bind, GroupOp.readTwo, hgroup, huser, Except.toOption, applyOp]
    | ok v =>
      simp only [Program.run_bind, run_read_ok, run_ask, run_ifMasterOrManager, decide_eq_false_iff_not,
        GroupOp.readTwo, hgroup, huser, Except.toOption]
      simp only [World.groups_ask, World.userOf_ask]
      show _ = if w.groups.Runs g (w.userOf conn) then
        (w.groups.setRole g v .normal).setList g (some ((w.groups.userList g).getD [] ++ [v])) else w.groups
      by_cases hruns : w.groups.Runs g (w.userOf conn)
      · rw [if_pos hruns, if_neg (not_not_intro hruns)]
        simp only [Program.run_bind, Program.run_perform, run_sendMsg, run_ask, run_sendToUser]
        rfl
      · rw [if_neg hruns, if_pos hruns]
        rfl

theorem groups_handleQuitGroup : ((handleQuitGroup conn js time).run (exec env) w).2.groups =
    applyOp env w conn (GroupOp.read .quitGroup js) := by
  unfold handleQuitGroup
  rw [show GroupOp.read .quitGroup js = (js.intField "groupid").toOption.map .quit from rfl]
  cases hgroup : js.intField "groupid" with
  | error e => simp [Program.run_bind, Except.toOption, applyOp]
  | ok g =>
    simp only [Program.run_bind, run_read_ok, run_ask, run_ifManagerOrNormal, decide_eq_false_iff_not,
      Except.toOption, Option.map_some]
    simp only [World.groups_ask, World.userOf_ask]
    show _ = if w.groups.role g (w.userOf conn) = some .manager ∨ w.groups.role g (w.userOf conn) = some .normal then
      (w.groups.eraseRole g (w.userOf conn)).setList g
        ((w.groups.userList g).map fun vec => removeAll vec (w.userOf conn)) else w.groups
    by_cases hquits : w.groups.role g (w.userOf conn) = some .manager ∨ w.groups.role g (w.userOf conn) = some .normal
    · simp only [hquits, not_true_eq_false, if_false, if_true, Program.run_bind, Program.run_perform, exec]
      -- when the list is not found, the handler ends there
      split <;> rfl
    · simp only [hquits, not_false_eq_true, if_true, if_false]
      rfl

theorem groups_handleSetManager : ((handleSetManager conn js time).run (exec env) w).2.groups =
    applyOp env w conn (GroupOp.read .setManager js) := by
  unfold handleSetManager
  rw [show GroupOp.read .setManager js = GroupOp.readTwo .setManager js from rfl]
  cases hgroup : js.intField "groupid" with
  | error e => simp [Program.run_bind, GroupOp.readTwo, hgroup, Except.toOption, applyOp]
  | ok g =>
    cases huser : js.intField "userid" with
    | error e => simp [Program.run_bind, GroupOp.readTwo, hgroup, huser, Except.toOption, applyOp]
    | ok v =>
      simp only [Program.run_bind, run_read_ok, run_ask, GroupOp.readTwo, hgroup, huser,
        Except.toOption]
      simp only [Program.run_perform, exec, ← Groups.role_groups, World.groups_ask]
      show _ = if w.groups.role g v = some .normal then w.groups.setRole g v .manager else w.groups
      by_cases hnormal : w.groups.role g v = some .normal
      · simp only [hnormal, ne_eq, not_true_eq_false, if_false, if_true, Program.run_bind, Program.run_perform,
          run_sendMsg, run_sendToUser]
        rfl
      · simp only [hnormal, ne_eq, not_false_eq_true, if_true, if_false]
        rfl

theorem groups_handleCancelManager : ((handleCancelManager conn js time).run (exec env) w).2.groups =
    applyOp env w conn (GroupOp.read .cancelManager js) := by
  unfold handleCancelManager
  rw [show GroupOp.read .cancelManager js = GroupOp.readTwo .cancelManager js from rfl]
  cases hgroup : js.intField "groupid" with
  | error e => simp [Program.run_bind, GroupOp.readTwo, hgroup, Except.toOption, applyOp]
  | ok g =>
    cases huser : js.intField "userid" with
    | error e => simp [Program.run_bind, GroupOp.readTwo, hgroup, huser, Except.toOption, applyOp]
    | ok v =>
      simp only [Program.run_bind, run_read_ok, run_ask, run_ifManager, decide_eq_false_iff_not,
        GroupOp.readTwo, hgroup, huser, Except.toOption]
      simp only [World.groups_ask]
      show _ = if w.groups.role g v = some .manager then w.groups.setRole g v .normal else w.groups
      by_cases hmanager : w.groups.role g v = some .manager
      · simp only [hmanager, not_true_eq_false, if_false, if_true]
        rfl
      · simp only [hmanager, not_false_eq_true, if_true, if_false]
        rfl


theorem groups_kick (groupid userid : ℤ) : ((kick conn groupid userid).run (exec env) w).2.groups =
    (w.groups.eraseRole groupid userid).setList groupid
      (some (removeAll ((w.groups.userList groupid).getD []) userid)) := by
  simp only [kick, Program.run_bind, Program.run_perform, run_sendMsg, run_sendToUser]
  rfl

theorem groups_handleKickSomeoneInGroup :
    ((handleKickSomeoneInGroup conn js time).run (exec env) w).2.groups =
      applyOp env w conn (GroupOp.read .kickSomeone js) := by
  unfold handleKickSomeoneInGroup
  rw [show GroupOp.read .kickSomeone js = GroupOp.readTwo .kick js from rfl]
  cases hgroup : js.intField "groupid" with
  | error e => simp [Program.run_bind, GroupOp.readTwo, hgroup, Except.toOption, applyOp]
  | ok g =>
    cases huser : js.intField "userid" with
    | error e => simp [Program.run_bind, GroupOp.readTwo, hgroup, huser, Except.toOption, applyOp]
    | ok v =>
      simp only [Program.run_bind, run_read_ok, run_ask, GroupOp.readTwo, hgroup, huser,
        Except.toOption]
      simp only [Program.run_perform, exec, ← Groups.role_groups, World.groups_ask, World.userOf_ask]
      show _ = GroupOp.apply env.collate (w.userOf conn) w.groups (.kick g v)
      have hkick (h : w.groups.Kicks g (w.userOf conn) v) :
          ((kick conn g v).run (exec env) ((w.ask conn).ask conn)).2.groups =
            GroupOp.apply env.collate (w.userOf conn) w.groups (.kick g v) :=
        (groups_kick conn g v).trans (Eq.symm (if_pos h))
      by_cases hout : w.groups.role g v = none ∨ w.groups.role g v = some .request
      · have hnot : ¬ w.groups.Kicks g (w.userOf conn) v := fun h => hout.elim h.1 h.2.1
        simp only [hout, if_true]
        exact Eq.symm (if_neg hnot)
      · obtain ⟨hrow, hrequest⟩ := not_or.1 hout
        by_cases hmaster : w.groups.role g (w.userOf conn) = some .master
        · simp only [hout, hmaster, if_false, if_true]
          exact hkick ⟨hrow, hrequest, .inl hmaster⟩
        · by_cases hmanager : w.groups.role g (w.userOf conn) = some .manager
          · by_cases htop : w.groups.role g v = some .manager ∨ w.groups.role g v = some .master
            · have hnot : ¬ w.groups.Kicks g (w.userOf conn) v :=
                fun h => h.2.2.elim hmaster fun h => htop.elim h.2.1 h.2.2
              simp only [hout, hmanager, htop, if_false, if_true]
              exact Eq.symm (if_neg hnot)
            · simp only [hout, hmanager, htop, if_false, if_true]
              exact hkick ⟨hrow, hrequest, .inr ⟨hmanager, not_or.1 htop⟩⟩
          · have hnot : ¬ w.groups.Kicks g (w.userOf conn) v :=
              fun h => h.2.2.elim hmaster fun h => hmanager h.1
            simp only [hout, hmaster, hmanager, if_false]
            exact Eq.symm (if_neg hnot)

theorem groups_handleGroupChat : ((handleGroupChat conn js time).run (exec env) w).2.groups =
    applyOp env w conn (GroupOp.read .groupChat js) := by
  unfold handleGroupChat
  cases hgroup : js.intField "groupid" with
  | error e => simp [Program.run_bind, GroupOp.read, hgroup, Except.toOption, applyOp]
  | ok g =>
    cases hmsg : js.stringField "msg" with
    | error e => simp [Program.run_bind, GroupOp.read, hgroup, hmsg, Except.toOption, applyOp]
    | ok msg =>
      cases hname : js.stringField "from_name" with
      | error e => simp [Program.run_bind, GroupOp.read, hgroup, hmsg, hname, Except.toOption, applyOp]
      | ok fromName =>
        simp only [Program.run_bind, run_read_ok, run_ask, Program.run_perform, exec, GroupOp.read, hgroup,
          hmsg, hname, Except.toOption]
        apply groups_run
        refine Program.safe_forM (fun userid _ => ?_) trivial
        rw [Program.safe_bind]
        refine ⟨by simp, fun self _ => ?_⟩
        rw [Program.safe_ret, Program.safe_ite]
        exact ⟨fun _ => trivial, fun _ => safe_sendToUser_of (by simp) (by simp) trivial⟩

theorem groups_handleMasterDeleteGroup : ((handleMasterDeleteGroup conn js time).run (exec env) w).2.groups =
    applyOp env w conn (GroupOp.read .masterDeleteGroup js) := by
  unfold handleMasterDeleteGroup
  rw [show GroupOp.read .masterDeleteGroup js = (js.intField "groupid").toOption.map .delete from rfl]
  cases hgroup : js.intField "groupid" with
  | error e => simp [Program.run_bind, Except.toOption, applyOp]
  | ok g =>
    simp only [Program.run_bind, run_read_ok, run_ask, run_ifMaster, decide_eq_false_iff_not,
      Except.toOption, Option.map_some]
    simp only [World.groups_ask]
    show _ = GroupOp.apply env.collate (w.userOf conn) w.groups (.delete g)
    by_cases hmaster : w.groups.role g (w.userOf conn) = some .master
    · simp only [GroupOp.apply, hmaster, not_true_eq_false, if_false, if_true]
      rfl
    · simp only [GroupOp.apply, hmaster, not_false_eq_true, if_true, if_false]
      rfl

/-! ## Every message, every activity -/

/-- The group request in a message with this id. -/
def groupOp (msgid : ℤ) (js : Json) : Option GroupOp :=
  (handlersMap.find? fun h => h.1.code = msgid).bind fun h => GroupOp.read h.1 js

theorem read_eq_none {m : EnMsgType} (hm : Area.groups ∉ areas m) : GroupOp.read m js = none := by
  cases m <;> first | rfl | simp [areas] at hm

/-- **What a message does to the groups is the request that is read off it**, in the name of the user of its
connection. -/
theorem groups_request (msgid : ℤ) : ((getHandler msgid conn js time).run (exec env) w).2.groups =
    applyOp env w conn (groupOp msgid js) := by
  by_cases hgroups : Area.groups ∈ areasOf msgid
  · obtain ⟨m, rfl, hm⟩ := exists_of_mem_areasOf hgroups
    cases m <;> try (simp [areas] at hm; done)
    case createGroup => exact groups_handleCreateGroup conn js time
    case requestGroup => exact groups_requestAddGroup conn js time
    case addGroup => exact groups_handleAddSomeoneToGroup conn js time
    case quitGroup => exact groups_handleQuitGroup conn js time
    case setManager => exact groups_handleSetManager conn js time
    case cancelManager => exact groups_handleCancelManager conn js time
    case kickSomeone => exact groups_handleKickSomeoneInGroup conn js time
    case groupChat => exact groups_handleGroupChat conn js time
    case masterDeleteGroup => exact groups_handleMasterDeleteGroup conn js time
  · have hop : groupOp msgid js = none := by
      unfold areasOf at hgroups
      unfold groupOp
      cases hfind : handlersMap.find? fun h => h.1.code = msgid with
      | none => rfl
      | some h =>
        rw [hfind] at hgroups
        exact read_eq_none js hgroups
    rw [hop]
    refine groups_run ((within_getHandler msgid conn js time).mono (fun c hc hgroup => ?_) (fun _ _ _ => trivial)
      fun _ _ => trivial) w
    exact hgroups (hc.area .groups hgroup)

/-- The user and the group request of an activity. -/
def requested (w : World) : Activity → Option (ℤ × GroupOp)
  | .request conn msgid js _ => (groupOp msgid js).map fun op => (w.userOf conn, op)
  | _ => none

/-- **What an activity does to the groups.** -/
theorem groups_serve (a : Activity) : (serve env a w).groups =
    (requested w a).elim w.groups fun r => GroupOp.apply env.collate r.1 w.groups r.2 := by
  have hrun (h : Area.groups ∉ a.areas) : (serve env a w).groups = w.groups :=
    groups_run (a.safe_body.mono (fun c hc harea => h (hc .groups harea)) (fun _ _ _ => trivial)
      fun _ _ => trivial) w
  cases a with
  | request conn msgid js time =>
    refine (groups_request conn js time msgid).trans ?_
    simp only [requested, applyOp]
    cases groupOp msgid js <;> rfl
  | connStatus conn status => exact hrun (by simp [Activity.areas])
  | removeConnStatus conn => exact hrun (by simp [Activity.areas])
  | down conn => exact hrun (by simp [Activity.areas])
  | heartbeat => exact hrun (by simp [Activity.areas])

/-- What the requests preserve. -/
theorem groups_serve_of {P : Groups → Prop} {a : Activity} (h : P w.groups)
    (happly : ∀ u op, requested w a = some (u, op) → P (GroupOp.apply env.collate u w.groups op)) :
    P (serve env a w).groups := by
  rw [groups_serve]
  cases hreq : requested w a with
  | none => exact h
  | some r => exact happly r.1 r.2 hreq

end Handlers

/-! ## A new process -/

/-- The members of a group among the registered users: those that `queryGroupMember` finds. -/
def World.membersOf (w : World) (g : ℤ) : List ℤ :=
  (w.db.selectGroupUsers g fun role => decide (role = .request) == false).map User.id

theorem mem_membersOf {w : World} {g u : ℤ} :
    u ∈ w.membersOf g ↔ w.groups.Member g u ∧ (w.db.user.lookup u).isSome := by
  simp only [World.membersOf, Db.selectGroupUsers, List.mem_map, List.mem_filterMap]
  constructor
  · rintro ⟨user, ⟨⟨⟨g', u'⟩, role⟩, hmem, hselect⟩, rfl⟩
    split at hselect
    case isTrue h =>
      obtain ⟨rfl, hrole⟩ := h
      obtain ⟨r, hr, rfl⟩ := Option.map_eq_some_iff.1 hselect
      exact ⟨⟨role, Table.mem_rows.1 hmem, by simpa using hrole⟩, by simp [hr]⟩
    case isFalse => cases hselect
  · rintro ⟨⟨role, hmem, hrole⟩, huser⟩
    obtain ⟨r, hr⟩ := Option.isSome_iff_exists.1 huser
    refine ⟨{ id := u, name := r.name, state := role.text }, ⟨⟨(g, u), role⟩, Table.mem_rows.2 hmem, ?_⟩, rfl⟩
    rw [if_pos ⟨rfl, by simpa using hrole⟩, hr, Option.map_some]

theorem nodup_membersOf (w : World) (g : ℤ) : (w.membersOf g).Nodup := by
  unfold World.membersOf Db.selectGroupUsers
  rw [List.Nodup, List.pairwise_map, List.pairwise_filterMap]
  refine (List.pairwise_map.1 (Table.rows_keys_nodup w.db.groupUser)).imp ?_
  rintro ⟨⟨g₁, u₁⟩, role₁⟩ ⟨⟨g₂, u₂⟩, role₂⟩ hkey user₁ h₁ user₂ h₂ hid
  simp only [Option.ite_none_right_eq_some, Option.map_eq_some_iff] at h₁ h₂
  obtain ⟨⟨hg₁, -⟩, r₁, -, rfl⟩ := h₁
  obtain ⟨⟨hg₂, -⟩, r₂, -, rfl⟩ := h₂
  exact hkey (Prod.ext (hg₁.trans hg₂.symm) hid)

section Boot

variable {env : Environment}

theorem run_groupUserListMapInit_loop (groupVec : List Group) (w : World) :
    ((forM groupVec fun group => (do
      let userVec : List User ← perform (.groupUsers group.id false)
      perform (.setGroupUserList group.id (userVec.map User.id)) : Task Unit)).run (exec env) w).2 =
      { w with groupUserListMap := fun g =>
        if g ∈ groupVec.map Group.id then some (w.membersOf g) else w.groupUserListMap g } := by
  induction groupVec generalizing w with
  | nil => rfl
  | cons group groupVec ih =>
    rw [List.forM_cons, Program.run_bind]
    refine (ih _).trans ?_
    congr 1
    funext g
    show (if g ∈ groupVec.map Group.id then some (w.membersOf g)
      else Function.update w.groupUserListMap group.id (some (w.membersOf group.id)) g) = _
    simp only [List.map_cons, List.mem_cons, Function.update_apply]
    by_cases hg : g ∈ groupVec.map Group.id
    · rw [if_pos hg, if_pos (.inr hg)]
    · rw [if_neg hg]
      by_cases hfirst : g = group.id
      · rw [if_pos hfirst, if_pos (.inl hfirst), hfirst]
      · rw [if_neg hfirst, if_neg (not_or.2 ⟨hfirst, hg⟩)]

theorem neutral_userstateInit :
    userstateInit.Safe (fun c => c.area ≠ some .groups) (fun _ _ => True) fun _ => True := by
  refine Program.safe_bind.2 ⟨by simp, fun userVec _ => Program.safe_forM (fun user _ => ?_) trivial⟩
  rw [Program.safe_ite]
  exact ⟨fun _ => ⟨by simp, fun _ _ => trivial⟩, fun _ => trivial⟩

theorem groups_boot (w : World) : (boot env w).groups =
    { w.groups with userList := fun g =>
        if (w.groups.allGroup.lookup g).isSome then some (w.membersOf g) else none } := by
  have hok : (groupUserListMapInit.run (exec env) w.restart).1 = .ok () :=
    Program.run_forM_ok _ (fun _ _ _ => rfl) _
  have hinit : (groupUserListMapInit.run (exec env) w.restart).2.groups =
      { w.groups with userList := fun g =>
          if g ∈ w.db.queryAllGroup.map Group.id then some (w.membersOf g) else none } :=
    congrArg World.groups (run_groupUserListMapInit_loop w.db.queryAllGroup w.restart)
  unfold boot initServer
  rw [Program.run_bind_of_ok _ hok, groups_run neutral_userstateInit, hinit]
  have hmem : ∀ g, g ∈ w.db.queryAllGroup.map Group.id ↔ (w.groups.allGroup.lookup g).isSome := by
    intro g
    rw [Db.queryAllGroup, List.map_map, List.mem_map, Option.isSome_iff_exists]
    constructor
    · rintro ⟨⟨id, name⟩, hrow, rfl⟩
      exact ⟨name, AutoTable.mem_rows.1 hrow⟩
    · rintro ⟨name, hrow⟩
      exact ⟨(g, name), AutoTable.mem_rows.2 hrow, rfl⟩
  simp only [hmem]

end Boot

end Chatroom.Service
