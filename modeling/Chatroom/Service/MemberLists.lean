import Chatroom.Service.GroupRoles

/-!
# The lists of the members

`m_groupUserListMap` is a copy of the members in the table, which is kept beside it by hand. What each request does to
the lists and to the members, and that every group that exists has a list, whatever is in it (`ListsPresent`). So
`handleQuitGroup`, whose guard reads the table, may dereference `m_groupUserListMap.find(groupid)`
(`quit_finds_list`), as long as no text of a client gives a group another id (`quit_renumbered_group`).
-/

namespace Chatroom.Service

open Lib

/-- The vector of `m_groupUserListMap` for the group. -/
def Groups.vec (s : Groups) (g : ℤ) : List ℤ := (s.userList g).getD []

theorem Groups.member_iff {s : Groups} {g v : ℤ} :
    s.Member g v ↔ s.role g v ≠ none ∧ s.role g v ≠ some .request := by
  unfold Groups.Member
  cases s.role g v <;> simp

theorem Groups.Runs.member {s : Groups} {g v : ℤ} (h : s.Runs g v) : s.Member g v := by
  rw [Groups.member_iff]
  rcases h with hr | hr <;> simp [hr]

/-! ## Lists and members after a request -/

namespace GroupOp

variable {collate : String → String} {u g v g' : ℤ} {s : Groups} {name : String}

theorem userList_create : (apply collate u s (.create name)).userList g' =
    if s.refuses collate name = false ∧ g' = s.allGroup.next then some (s.vec s.allGroup.next ++ [u])
    else s.userList g' := by
  simp only [apply]
  cases s.refuses collate name with
  | true => simp
  | false => simp [Groups.setList, Groups.insertRole, Groups.vec, Function.update_apply]

theorem userList_add : (apply collate u s (.add g v)).userList g' =
    if s.Runs g u ∧ g' = g then some (s.vec g ++ [v]) else s.userList g' := by
  simp only [apply]
  by_cases hruns : s.Runs g u
  · simp [hruns, Groups.setList, Groups.setRole, Groups.vec, Function.update_apply]
  · simp [hruns]

theorem userList_quit : (apply collate u s (.quit g)).userList g' =
    if (s.role g u = some .manager ∨ s.role g u = some .normal) ∧ g' = g then
      (s.userList g).map fun vec => removeAll vec u
    else s.userList g' := by
  simp only [apply]
  by_cases hquits : s.role g u = some .manager ∨ s.role g u = some .normal
  · simp [hquits, Groups.setList, Groups.eraseRole, Function.update_apply]
  · simp [hquits]

theorem userList_setManager : (apply collate u s (.setManager g v)).userList g' = s.userList g' := by
  simp only [apply]
  split <;> rfl

theorem userList_cancelManager : (apply collate u s (.cancelManager g v)).userList g' = s.userList g' := by
  simp only [apply]
  split <;> rfl

theorem userList_kick : (apply collate u s (.kick g v)).userList g' =
    if s.Kicks g u v ∧ g' = g then some (removeAll (s.vec g) v) else s.userList g' := by
  simp only [apply]
  by_cases hkicks : s.Kicks g u v
  · simp [hkicks, Groups.setList, Groups.eraseRole, Groups.vec, Function.update_apply]
  · simp [hkicks]

theorem userList_chat : (apply collate u s (.chat g)).userList g' =
    if g' = g then some (s.vec g) else s.userList g' := by
  simp [apply, Groups.setList, Groups.vec, Function.update_apply]

theorem userList_delete : (apply collate u s (.delete g)).userList g' =
    if s.role g u = some .master ∧ g' = g then none else s.userList g' := by
  simp only [apply]
  by_cases hmaster : s.role g u = some .master
  · simp [hmaster, Function.update_apply]
  · simp [hmaster]

theorem vec_create : (apply collate u s (.create name)).vec g' =
    if s.refuses collate name = false ∧ g' = s.allGroup.next then s.vec g' ++ [u] else s.vec g' := by
  rw [Groups.vec, userList_create]
  split
  case isTrue h => rw [h.2]; rfl
  case isFalse => rfl

theorem vec_add : (apply collate u s (.add g v)).vec g' =
    if s.Runs g u ∧ g' = g then s.vec g' ++ [v] else s.vec g' := by
  rw [Groups.vec, userList_add]
  split
  case isTrue h => rw [h.2]; rfl
  case isFalse => rfl

theorem vec_quit : (apply collate u s (.quit g)).vec g' =
    if (s.role g u = some .manager ∨ s.role g u = some .normal) ∧ g' = g then removeAll (s.vec g') u
    else s.vec g' := by
  rw [Groups.vec, Groups.vec, userList_quit]
  split
  case isTrue h =>
    rw [h.2]
    cases s.userList g <;> rfl
  case isFalse => rfl

theorem vec_setManager : (apply collate u s (.setManager g v)).vec g' = s.vec g' := by
  rw [Groups.vec, userList_setManager, Groups.vec]

theorem vec_cancelManager : (apply collate u s (.cancelManager g v)).vec g' = s.vec g' := by
  rw [Groups.vec, userList_cancelManager, Groups.vec]

theorem vec_kick : (apply collate u s (.kick g v)).vec g' =
    if s.Kicks g u v ∧ g' = g then removeAll (s.vec g') v else s.vec g' := by
  rw [Groups.vec, userList_kick]
  split
  case isTrue h => rw [h.2]; rfl
  case isFalse => rfl

theorem vec_chat : (apply collate u s (.chat g)).vec g' = s.vec g' := by
  rw [Groups.vec, userList_chat]
  split
  case isTrue h => rw [h]; rfl
  case isFalse => rfl

theorem vec_delete : (apply collate u s (.delete g)).vec g' =
    if s.role g u = some .master ∧ g' = g then [] else s.vec g' := by
  rw [Groups.vec, userList_delete]
  split <;> rfl

theorem member_create : (apply collate u s (.create name)).Member g' v ↔ s.Member g' v ∨
    (s.refuses collate name = false ∧ g' = s.allGroup.next ∧ v = u ∧ s.role g' v = none) := by
  rw [Groups.member_iff, Groups.member_iff, role_create]
  split
  case isTrue h =>
    obtain ⟨hfree, rfl, rfl⟩ := h
    cases s.role s.allGroup.next v <;> simp [hfree]
  case isFalse h =>
    refine (or_iff_left ?_).symm
    exact fun h' => h ⟨h'.1, h'.2.1, h'.2.2.1⟩

theorem member_request : (apply collate u s (.request g)).Member g' v ↔ s.Member g' v := by
  rw [Groups.member_iff, Groups.member_iff, role_request]
  split
  case isTrue h =>
    obtain ⟨rfl, rfl⟩ := h
    cases s.role g' v <;> simp
  case isFalse => rfl

theorem member_add {v' : ℤ} : (apply collate u s (.add g v)).Member g' v' ↔ s.Member g' v' ∨
    (s.Runs g u ∧ g' = g ∧ v' = v ∧ s.role g v = some .request) := by
  rw [Groups.member_iff, Groups.member_iff, role_add]
  split
  case isTrue h =>
    obtain ⟨hruns, rfl, rfl⟩ := h
    cases s.role g' v' with
    | none => simp
    | some r => cases r <;> simp [hruns]
  case isFalse h =>
    refine (or_iff_left ?_).symm
    exact fun h' => h ⟨h'.1, h'.2.1, h'.2.2.1⟩

theorem member_quit : (apply collate u s (.quit g)).Member g' v ↔ s.Member g' v ∧
    ¬ ((s.role g u = some .manager ∨ s.role g u = some .normal) ∧ g' = g ∧ v = u) := by
  rw [Groups.member_iff, Groups.member_iff, role_quit]
  split
  case isTrue h => simp [h]
  case isFalse h => simp only [h, not_false_eq_true, and_true]

theorem member_setManager {v' : ℤ} : (apply collate u s (.setManager g v)).Member g' v' ↔ s.Member g' v' := by
  rw [Groups.member_iff, Groups.member_iff, role_setManager]
  split
  case isTrue h =>
    obtain ⟨hnormal, rfl, rfl⟩ := h
    simp [hnormal]
  case isFalse => rfl

theorem member_cancelManager {v' : ℤ} :
    (apply collate u s (.cancelManager g v)).Member g' v' ↔ s.Member g' v' := by
  rw [Groups.member_iff, Groups.member_iff, role_cancelManager]
  split
  case isTrue h =>
    obtain ⟨hmanager, rfl, rfl⟩ := h
    simp [hmanager]
  case isFalse => rfl

theorem member_kick {v' : ℤ} : (apply collate u s (.kick g v)).Member g' v' ↔ s.Member g' v' ∧
    ¬ (s.Kicks g u v ∧ g' = g ∧ v' = v) := by
  rw [Groups.member_iff, Groups.member_iff, role_kick]
  split
  case isTrue h => simp [h]
  case isFalse h => simp only [h, not_false_eq_true, and_true]

theorem member_delete : (apply collate u s (.delete g)).Member g' v ↔ s.Member g' v ∧
    ¬ (s.role g u = some .master ∧ g' = g) := by
  rw [Groups.member_iff, Groups.member_iff, role_delete]
  split
  case isTrue h => simp [h]
  case isFalse h => simp only [h, not_false_eq_true, and_true]

end GroupOp

/-! ## Every group has a list -/

/-- Only groups that exist have members, and every group that exists has a list. -/
structure ListsPresent (s : Groups) : Prop where
  present : ∀ g, (s.allGroup.lookup g).isSome → (s.userList g).isSome
  groups : ∀ g u, s.Member g u → (s.allGroup.lookup g).isSome

namespace ListsPresent

theorem of_noGroups {s : Groups} (h : NoGroups s) : ListsPresent s := by
  constructor
  · intro g hg
    simp [h.allGroup g] at hg
  · exact fun g u hu => absurd hu (h.not_member g u)

section Apply

variable {collate : String → String} {u : ℤ} {s s' : Groups}

open GroupOp

/-- A request that adds and removes no group. -/
theorem of_eq (h : ListsPresent s) (hgroups : s'.allGroup = s.allGroup)
    (hpresent : ∀ g, (s.userList g).isSome → (s'.userList g).isSome)
    (hmember : ∀ g v, s'.Member g v → (s.allGroup.lookup g).isSome) : ListsPresent s' := by
  constructor
  · intro g hg
    rw [hgroups] at hg
    exact hpresent g (h.present g hg)
  · intro g v hv
    rw [hgroups]
    exact hmember g v hv

/-- The list is there even when the creator stays a requester, because the row was there before. -/
theorem create (h : ListsPresent s) (name : String) : ListsPresent (apply collate u s (.create name)) := by
  constructor
  · intro g hg
    rw [userList_create]
    split
    case isTrue => rfl
    case isFalse hold => exact h.present g ((exists_create.1 hg).resolve_left hold)
  · intro g v hv
    rw [exists_create]
    rcases member_create.1 hv with hv | ⟨hfree, hnext, -⟩
    · exact .inr (h.groups g v hv)
    · exact .inl ⟨hfree, hnext⟩

theorem add (h : ListsPresent s) (g v : ℤ) : ListsPresent (apply collate u s (.add g v)) := by
  refine h.of_eq (allGroup_apply nofun nofun) (fun g' => ?_) fun g' v' hv => ?_
  · rw [userList_add]
    split <;> simp
  · rcases member_add.1 hv with hv | ⟨hruns, rfl, -⟩
    · exact h.groups g' v' hv
    · exact h.groups g' u hruns.member

theorem quit (h : ListsPresent s) (g : ℤ) : ListsPresent (apply collate u s (.quit g)) := by
  refine h.of_eq (allGroup_apply nofun nofun) (fun g' => ?_) fun g' v hv => h.groups g' v (member_quit.1 hv).1
  rw [userList_quit]
  split
  case isTrue hquits => simp [hquits.2]
  case isFalse => exact id

theorem kick (h : ListsPresent s) (g v : ℤ) : ListsPresent (apply collate u s (.kick g v)) := by
  refine h.of_eq (allGroup_apply nofun nofun) (fun g' => ?_) fun g' v' hv => h.groups g' v' (member_kick.1 hv).1
  rw [userList_kick]
  split <;> simp

theorem delete (h : ListsPresent s) (g : ℤ) : ListsPresent (apply collate u s (.delete g)) := by
  constructor
  · intro g' hg'
    obtain ⟨hother, hg'⟩ := exists_delete.1 hg'
    rw [userList_delete, if_neg hother]
    exact h.present g' hg'
  · intro g' v hv
    obtain ⟨hv, hother⟩ := member_delete.1 hv
    exact exists_delete.2 ⟨hother, h.groups g' v hv⟩

end Apply

end ListsPresent

open GroupOp in
theorem listsPresent_apply {collate : String → String} {u : ℤ} {s : Groups} (h : ListsPresent s)
    (op : GroupOp) : ListsPresent (apply collate u s op) := by
  cases op with
  | create name => exact h.create name
  | request g => exact h.of_eq rfl (fun _ => id) fun g' v hv => h.groups g' v (member_request.1 hv)
  | add g v => exact h.add g v
  | quit g => exact h.quit g
  | setManager g v =>
    refine h.of_eq (allGroup_apply nofun nofun) (fun g' => ?_) fun g' v' hv => h.groups g' v' (member_setManager.1 hv)
    rw [userList_setManager]
    exact id
  | cancelManager g v =>
    refine h.of_eq (allGroup_apply nofun nofun) (fun g' => ?_) fun g' v' hv =>
      h.groups g' v' (member_cancelManager.1 hv)
    rw [userList_cancelManager]
    exact id
  | kick g v => exact h.kick g v
  | chat g =>
    -- `m_groupUserListMap[groupid]` makes a list where there is none
    refine h.of_eq rfl (fun g' => ?_) fun g' v hv => h.groups g' v hv
    rw [userList_chat]
    split <;> simp
  | delete g => exact h.delete g

section Run

variable {env : Environment} {w₀ w : World}

/-- `groupUserListMapInit` makes a list for every row of `AllGroup`, whoever is in it. -/
theorem listsPresent_boot (h : ListsPresent w.groups) : ListsPresent (boot env w).groups := by
  rw [groups_boot]
  constructor
  · intro g hg
    show (if (w.groups.allGroup.lookup g).isSome then some (w.membersOf g) else none).isSome
    rw [if_pos hg]
    rfl
  · exact h.groups

theorem listsPresent_of_run (h₀ : NoGroups w₀.groups) {l : List (Option Activity)}
    (h : (serial env).Run (fun _ _ => True) (boot env w₀) l w) : ListsPresent w.groups := by
  have hserve : ∀ s a, True → ListsPresent s.groups → ListsPresent (serve env a s).groups :=
    fun s a _ hs => groups_serve_of hs fun u op _ => listsPresent_apply hs op
  have hboot : ∀ s : World, ListsPresent s.groups → ListsPresent (boot env s).groups := fun _ => listsPresent_boot
  exact @serial_invariant env _ (fun s => ListsPresent s.groups) (fun s _ => hboot s) hserve _ _ _ h
    (hboot w₀ (.of_noGroups h₀))

end Run

/-! ## Quitting a group -/

section Quit

variable {env : Environment} {w₀ w : World}

/-- What is left of `handleQuitGroup` when its guard has been passed. -/
theorem fst_handleQuitGroup {conn : Conn} {js : Json} {g : ℤ} (hgroup : js.intField "groupid" = .ok g)
    (hguard : ((ifManagerOrNormal (w.userOf conn) g).run (exec env) w).1 = .ok true) (time : String) :
    ((handleQuitGroup conn js time).run (exec env) w).1 =
      if (w.groupUserListMap g).isSome then .ok () else .error .undefined := by
  rw [run_ifManagerOrNormal] at hguard
  have hquits : w.groups.role g (w.userOf conn) = some .manager ∨
      w.groups.role g (w.userOf conn) = some .normal := by simpa using hguard
  unfold handleQuitGroup
  simp only [Program.run_bind, run_read_ok, run_ask, run_ifManagerOrNormal, hgroup, World.groups_ask,
    World.userOf_ask, hquits, decide_true, Bool.true_eq_false, if_false, Program.run_perform, exec]
  show ((if (w.groupUserListMap g).isSome = true then _ else _ : Task Unit).run (exec env) _).1 = _
  split <;> rfl

theorem quit_finds_list_of_serial (h₀ : NoGroups w₀.groups) {l : List (Option Activity)}
    (h : (serial env).Run (fun _ _ => True) (boot env w₀) l w) {conn : Conn} {js : Json} {g : ℤ}
    (hgroup : js.intField "groupid" = .ok g)
    (hguard : ((ifManagerOrNormal (w.userOf conn) g).run (exec env) w).1 = .ok true) (time : String) :
    w.groupUserListMap g ≠ none ∧ ((handleQuitGroup conn js time).run (exec env) w).1 = .ok () := by
  have hlists := listsPresent_of_run h₀ h
  have hmember : w.groups.Member g (w.userOf conn) := by
    rw [run_ifManagerOrNormal] at hguard
    rw [Groups.member_iff]
    rcases (by simpa using hguard : _ ∨ _) with hr | hr <;> simp [hr]
  have hsome : (w.groupUserListMap g).isSome := hlists.present g (hlists.groups g _ hmember)
  refine ⟨Option.isSome_iff_ne_none.1 hsome, ?_⟩
  rw [fst_handleQuitGroup hgroup hguard, if_pos hsome]

theorem worded_ifManagerOrNormal (userid groupid : ℤ) :
    (ifManagerOrNormal userid groupid).Safe (fun c => c.Worded) (fun _ _ => True) fun _ => True :=
  ⟨trivial, fun _ _ => trivial⟩

theorem worded_handleQuitGroup (conn : Conn) (js : Json) (time : String) :
    (handleQuitGroup conn js time).Safe (fun c => c.Worded) (fun _ _ => True) fun _ => True := by
  simp only [handleQuitGroup, connUser, Program.safe_bind, Program.safe_perform, safe_read]
  refine fun groupid _ => ⟨trivial, fun userid _ => ⟨trivial, fun requester _ => ?_⟩⟩
  refine ⟨trivial, fun role _ => Program.safe_ite.2 ⟨fun _ => ⟨trivial, fun _ _ => trivial⟩, fun _ => ?_⟩⟩
  exact ⟨trivial, fun _ _ => ⟨trivial, fun found _ =>
    Program.safe_ite.2 ⟨fun _ => ⟨trivial, fun _ _ => trivial⟩, fun _ => trivial⟩⟩⟩

/-- **Whoever passes the guard of `handleQuitGroup` finds the list of the group**, in every state that a run from
empty tables reaches whose texts stay inside their literals, so the erase is defined and the handler comes to its
end. -/
theorem quit_finds_list {other : Other} (h₀ : NoGroups w₀.groups) {l : List (Option Activity)} {s : NullableWorld}
    (h : (serialSql env other).Run (fun s a => Worded env s.toWorld a) (bootSql env other w₀.nonNull) l s)
    {conn : Conn} {js : Json} {g : ℤ} (hgroup : js.intField "groupid" = .ok g)
    (hguard : ((ifManagerOrNormal (s.userOf conn) g).runThrowing (execSql env other) s).1 = .ok true)
    (time : String) :
    s.groupUserListMap g ≠ none ∧ ((handleQuitGroup conn js time).runThrowing (execSql env other) s).1 = .ok () := by
  obtain ⟨w, rfl, hrun⟩ := serial_of_only_worded h
  rw [runThrowing_nonNull (Program.Safe.trace (exec env) (worded_ifManagerOrNormal _ g) w)] at hguard
  rw [runThrowing_nonNull (Program.Safe.trace (exec env) (worded_handleQuitGroup conn js time) w)]
  exact quit_finds_list_of_serial h₀ hrun hgroup hguard time

end Quit

/-- Bob, who was added to the group of ann, quits after a restart. -/
theorem quit_finds_list_bob :
    ∃ s, (serialSql .still .overrun).Run (fun s a => Worded .still s.toWorld a)
        (bootSql .still .overrun (World.init annAndBob).nonNull)
        [some (logsIn 1 "ann" "a"), some (logsIn 2 "bob" "b"), some (creates 1 "cats"), some (asksToJoin 2 3),
          some (groupAction .addGroup 1 3 4), none, some (logsIn 2 "bob" "b")] s ∧
      s.groupUserListMap 3 ≠ none ∧
      ((handleQuitGroup 2 (.obj [("groupid", .num 3)]) "").runThrowing (execSql .still .overrun) s).1 = .ok () := by
  obtain ⟨w, hrun, hguard⟩ : ∃ w, (serial .still).Run (fun w a => Worded .still w a ∧ True)
      (boot .still (World.init annAndBob))
      [some (logsIn 1 "ann" "a"), some (logsIn 2 "bob" "b"), some (creates 1 "cats"), some (asksToJoin 2 3),
        some (groupAction .addGroup 1 3 4), none, some (logsIn 2 "bob" "b")] w ∧
      ((ifManagerOrNormal (w.userOf 2) 3).run (exec .still) w).1 = .ok true :=
    ⟨_, .cons ⟨by decide, trivial⟩ rfl (.cons ⟨by decide, trivial⟩ rfl (.cons ⟨by decide, trivial⟩ rfl
      (.cons ⟨by decide, trivial⟩ rfl (.cons ⟨by decide, trivial⟩ rfl (.cons ⟨by decide, trivial⟩ rfl
        (.cons ⟨by decide, trivial⟩ rfl (.nil _))))))), rfl⟩
  have hsql : (serialSql .still .overrun).Run _ _ _ _ := serialSql_of_boot hrun
  refine ⟨_, hsql.mono fun _ _ hok => hok.1, quit_finds_list ⟨fun _ => rfl, fun _ _ => rfl⟩
    (hsql.mono fun _ _ hok => hok.1) rfl ?_ ""⟩
  rw [runThrowing_nonNull (Program.Safe.trace (exec .still) (worded_ifManagerOrNormal _ 3) w)]
  exact hguard

/-- What MySQL does on CREATE_GROUP with the name `cats') on duplicate key update id=last_insert_id(7) -- `, where
`cats` is the only group: it gets the id 7, and 7 is the answer. -/
def renumbersCats : Other := fun c s =>
  match c with
  | .createGroup _ =>
    (.ok (some 7), { s with db := { s.db with allGroup := (AutoTable.empty 7 (by decide)).insert false "cats" } })
  | _ => Other.overrun _ s

/-- Bob, who was added to the group 3 of ann, renumbers it; after a restart only 7 has a list, and he quits 3. -/
theorem quit_renumbered_group :
    ∃ s, (serialSql .still renumbersCats).exec (bootSql .still renumbersCats (World.init annAndBob).nonNull)
        [some (logsIn 1 "ann" "a"), some (logsIn 2 "bob" "b"), some (creates 1 "cats"), some (asksToJoin 2 3),
          some (groupAction .addGroup 1 3 4),
          some (creates 2 "cats') on duplicate key update id=last_insert_id(7) -- "), none,
          some (logsIn 2 "bob" "b")] = some s ∧
      ((ifManagerOrNormal (s.userOf 2) 3).runThrowing (execSql .still renumbersCats) s).1 = .ok true ∧
      s.groupUserListMap 3 = none ∧
      ((handleQuitGroup 2 (.obj [("groupid", .num 3)]) "").runThrowing (execSql .still renumbersCats) s).1 =
        .error .undefined :=
  ⟨_, rfl, rfl, rfl, rfl⟩

end Chatroom.Service
