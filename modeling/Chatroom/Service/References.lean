import Chatroom.Service.Friend
import Chatroom.Service.GroupRoles

/-!
# What the rows refer to

`init.sql` declares no foreign keys: that the ends of a friend row are two registered users, and that the group of
a `GroupUser` row exists, is up to the handlers. No row of the user table is ever deleted, and a group goes with
its rows; a reference can only go wrong when a row is new, in `handleAddFriend` and `requestAddGroup`
(`refer_apply_iff`, `hosted_apply_iff`), and these two do not look.
-/

namespace Chatroom.Service

open Lib

/-! ## Users stay -/

section Users

variable {env : Environment} {w : World} {u : ℤ}

/-- No command deletes a row of the user table. -/
theorem registered_exec (c : Cmd) (h : (w.db.user.lookup u).isSome) :
    ((exec env c w).2.db.user.lookup u).isSome := by
  cases c with
  | insertUser name password state =>
    simp only [exec, Db.insertUser, AutoTable.lookup_insert]
    split
    · rfl
    · exact h
  | updateState id state =>
    simp only [exec, Db.updateState, AutoTable.lookup_modify]
    split
    · rwa [Option.isSome_map]
    · exact h
  | resetState =>
    have hrow : (exec env .resetState w).2.db.user.lookup u =
        (w.db.user.lookup u).map fun r => { r with state := .offline } :=
      Table.lookup_mapRows w.db.user.table _ u
    rwa [hrow, Option.isSome_map]
  | _ => exact h

theorem registered_run {α : Type} (p : Task α) (h : (w.db.user.lookup u).isSome) :
    ((p.run (exec env) w).2.db.user.lookup u).isSome :=
  ((Program.safe_true p).run (exec env) (I := fun s => (s.db.user.lookup u).isSome)
    (fun c _ _ hs => ⟨trivial, registered_exec c hs⟩) h).1

end Users

/-! ## Friends -/

/-- Both ends of every friend row are registered, and they are two. -/
def Refer (user : AutoTable UserRow) (t : Friends) : Prop :=
  ∀ a b state, t.lookup (a, b) = some state → (user.lookup a).isSome ∧ (user.lookup b).isSome ∧ a ≠ b

/-- The request asks a registered user who is not the one who asks. -/
def FriendOp.Names (user : AutoTable UserRow) : FriendOp → Prop
  | .add a b => (user.lookup a).isSome ∧ (user.lookup b).isSome ∧ a ≠ b
  | _ => True

section Friends

variable {user : AutoTable UserRow} {t t' : Friends}

theorem Refer.mono {user' : AutoTable UserRow} (h : Refer user t)
    (hmono : ∀ u, (user.lookup u).isSome → (user'.lookup u).isSome) : Refer user' t := by
  intro a b state hrow
  obtain ⟨ha, hb, hne⟩ := h a b state hrow
  exact ⟨hmono a ha, hmono b hb, hne⟩

/-- Where no row is new, nothing new is referred to. -/
theorem Refer.of_rows (h : Refer user t) (hrows : ∀ k, (t'.lookup k).isSome → (t.lookup k).isSome) :
    Refer user t' := by
  intro a b state hrow
  obtain ⟨state', hrow'⟩ := Option.isSome_iff_exists.1 (hrows (a, b) (by rw [hrow]; rfl))
  exact h a b state' hrow'

/-- Only a request to be friends enters a row. -/
theorem isSome_apply {op : FriendOp} (hop : ∀ x y, op ≠ .add x y) {k : ℤ × ℤ}
    (hrow : ((FriendOp.apply t op).lookup k).isSome) : (t.lookup k).isSome := by
  cases op with
  | add x y => exact absurd rfl (hop x y)
  | delete x y =>
    simp only [FriendOp.apply] at hrow
    split at hrow
    · rw [Table.lookup_deleteWhere] at hrow
      split at hrow
      · cases hrow
      · exact hrow
    · exact hrow
  | block x y | unblock x y =>
    simp only [FriendOp.apply] at hrow
    split at hrow
    · rwa [Table.isSome_modify] at hrow
    · exact hrow

/-- It enters the row from `x` to `y` only. -/
theorem isSome_apply_add {x y : ℤ} {k : ℤ × ℤ} (hk : k ≠ (x, y))
    (hrow : ((FriendOp.apply t (.add x y)).lookup k).isSome) : (t.lookup k).isSome := by
  simp only [FriendOp.apply] at hrow
  split at hrow
  · rwa [Table.lookup_insertIgnore, if_neg hk] at hrow
  · split at hrow
    · rwa [Table.isSome_modify, Table.lookup_insertIgnore, if_neg hk] at hrow
    · exact hrow

theorem Refer.add (h : Refer user t) {x y : ℤ} (hnames : (FriendOp.add x y).Names user) :
    Refer user (FriendOp.apply t (.add x y)) := by
  intro a b state hrow
  by_cases hk : (a, b) = (x, y)
  · obtain ⟨rfl, rfl⟩ := Prod.mk.inj hk
    exact hnames
  · obtain ⟨state', hrow'⟩ := Option.isSome_iff_exists.1 (isSome_apply_add hk (by rw [hrow]; rfl))
    exact h a b state' hrow'

/-- A request to be friends leaves a row between the two. -/
theorem Refer.names (h : Refer user t) {x y : ℤ} (h' : Refer user (FriendOp.apply t (.add x y))) :
    (FriendOp.add x y).Names user := by
  by_cases hxy : t.lookup (x, y) = none
  · by_cases hyx : t.lookup (y, x) = none
    · -- the row is new
      have hasks : Asks (t.lookup (x, y)) (t.lookup (y, x)) := ⟨.inl hxy, hyx⟩
      refine h' x y .request ?_
      rw [FriendOp.apply, if_pos hasks, Table.lookup_insertIgnore, if_pos rfl, hxy]
      rfl
    · obtain ⟨state, hrow⟩ := Option.ne_none_iff_exists'.1 hyx
      obtain ⟨hy, hx, hne⟩ := h y x state hrow
      exact ⟨hx, hy, hne.symm⟩
  · obtain ⟨state, hrow⟩ := Option.ne_none_iff_exists'.1 hxy
    exact h x y state hrow

/-- **What a request does to the references among friends**: they stay right if and only if it names two
registered users, where it adds a friend. -/
theorem refer_apply_iff (h : Refer user t) (op : FriendOp) :
    Refer user (FriendOp.apply t op) ↔ op.Names user := by
  cases op with
  | add x y => exact ⟨h.names, h.add⟩
  | delete x y | block x y | unblock x y =>
    refine iff_of_true (h.of_rows fun k => isSome_apply ?_) trivial
    nofun

end Friends

/-! ## Groups -/

/-- The group of every `GroupUser` row exists. -/
def Groups.Hosted (s : Groups) : Prop := ∀ g u r, s.role g u = some r → (s.allGroup.lookup g).isSome

/-- The request to join names a group that exists. -/
def GroupOp.Names (s : Groups) : GroupOp → Prop
  | .request g => (s.allGroup.lookup g).isSome
  | _ => True

section Groups

variable {collate : String → String} {u : ℤ} {s s' : Groups}

open GroupOp

/-- Where the groups are the same, and a role that is not as before was a role before. -/
theorem Groups.Hosted.of_roles (h : s.Hosted) (hgroups : s'.allGroup = s.allGroup) {p : ℤ → ℤ → Prop}
    [∀ g v, Decidable (p g v)] {x : Option Role}
    (hrole : ∀ g v, s'.role g v = if p g v then x else s.role g v)
    (hx : ∀ g v, p g v → x ≠ none → s.role g v ≠ none) : s'.Hosted := by
  intro g v r hrow
  rw [hrole] at hrow
  rw [hgroups]
  split at hrow
  case isTrue hp =>
    obtain ⟨r', hrow'⟩ := Option.ne_none_iff_exists'.1 (hx g v hp (by simp [hrow]))
    exact h g v r' hrow'
  case isFalse => exact h g v r hrow

theorem hosted_create (h : s.Hosted) (name : String) : (apply collate u s (.create name)).Hosted := by
  intro g v r hrow
  rw [exists_create]
  rw [role_create] at hrow
  split at hrow
  case isTrue heq => exact .inl ⟨heq.1, heq.2.1⟩
  case isFalse => exact .inr (h g v r hrow)

theorem hosted_delete (h : s.Hosted) (g : ℤ) : (apply collate u s (.delete g)).Hosted := by
  intro g' v r hrow
  rw [exists_delete]
  rw [role_delete] at hrow
  split at hrow
  case isTrue => cases hrow
  case isFalse hne => exact ⟨hne, h g' v r hrow⟩

/-- **What a request does to the references to groups**: they stay right if and only if it names a group that
exists, where it asks to join. -/
theorem hosted_apply_iff (h : s.Hosted) (op : GroupOp) : (apply collate u s op).Hosted ↔ op.Names s := by
  cases op with
  | create name => exact iff_of_true (hosted_create h name) trivial
  | request g =>
    constructor
    · intro h'
      have hrow : ((apply collate u s (.request g)).role g u) = some ((s.role g u).getD .request) := by
        rw [role_request, if_pos ⟨rfl, rfl⟩]
      exact h' g u _ hrow
    · intro hg g' v r hrow
      rw [role_request] at hrow
      split at hrow
      case isTrue heq =>
        obtain ⟨rfl, rfl⟩ := heq
        exact hg
      case isFalse => exact h g' v r hrow
  | add g v =>
    refine iff_of_true (h.of_roles (allGroup_apply nofun nofun) (fun _ _ => role_add) ?_) trivial
    rintro _ _ ⟨-, rfl, rfl⟩ hmap
    simpa using hmap
  | quit g =>
    exact iff_of_true (h.of_roles (allGroup_apply nofun nofun) (fun _ _ => role_quit) fun _ _ _ => absurd rfl) trivial
  | setManager g v =>
    refine iff_of_true (h.of_roles (allGroup_apply nofun nofun) (fun _ _ => role_setManager) ?_) trivial
    rintro _ _ ⟨hnormal, rfl, rfl⟩ -
    simp [hnormal]
  | cancelManager g v =>
    refine iff_of_true (h.of_roles (allGroup_apply nofun nofun) (fun _ _ => role_cancelManager) ?_) trivial
    rintro _ _ ⟨hmanager, rfl, rfl⟩ -
    simp [hmanager]
  | kick g v =>
    exact iff_of_true (h.of_roles (allGroup_apply nofun nofun) (fun _ _ => role_kick) fun _ _ _ => absurd rfl) trivial
  | chat g => exact iff_of_true h trivial
  | delete g => exact iff_of_true (hosted_delete h g) trivial

end Groups

/-! ## Runs -/

section Run

variable {env : Environment} {w₀ w : World}

/-- Whom a step makes a friend of whom, and which group it asks to join, the tables have. -/
def NamesRows (env : Environment) (w : World) : Option Activity → Prop
  | some a => (∀ op, befriends env w a = some op → op.Names w.db.user) ∧
      ∀ u op, requested w a = some (u, op) → op.Names w.groups
  | none => True

theorem safe_initServer : initServer.Safe (fun c => c.area ≠ some .friends) (fun _ _ => True) fun _ => True := by
  simp only [initServer, groupUserListMapInit, userstateInit, Program.safe_bind, Program.safe_perform]
  refine ⟨by simp, fun groupVec _ => Program.safe_forM (fun group _ => ?_) ⟨by simp, fun userVec _ => ?_⟩⟩
  · simp
  · refine Program.safe_forM (fun user _ => ?_) trivial
    rw [Program.safe_ite]
    exact ⟨fun _ => by simp, fun _ => trivial⟩

/-- Every reference is right. -/
def World.Refers (w : World) : Prop := Refer w.db.user w.db.friend ∧ w.groups.Hosted

theorem refers_boot (h : w.Refers) : (boot env w).Refers := by
  constructor
  · have hfriend : (boot env w).db.friend = w.db.friend := friends_run safe_initServer w.restart
    rw [hfriend]
    exact h.1.mono fun u hu => registered_run initServer hu
  · rw [groups_boot]
    exact h.2

theorem refers_serve {a : Activity} (hok : NamesRows env w (some a)) (h : w.Refers) :
    (serve env a w).Refers := by
  constructor
  · have hrefer : Refer w.db.user (serve env a w).db.friend := by
      rw [friends_serve]
      cases hop : befriends env w a with
      | none => exact h.1
      | some op => exact (refer_apply_iff h.1 op).2 (hok.1 op hop)
    exact hrefer.mono fun u hu => registered_run a.body hu
  · exact groups_serve_of h.2 fun u op hreq => (hosted_apply_iff h.2 op).2 (hok.2 u op hreq)

theorem refers_of_serial (hfriends : ∀ k, w₀.db.friend.lookup k = none) (hgroups : NoGroups w₀.groups)
    {l : List (Option Activity)} (h : (serial env).Run (NamesRows env) (boot env w₀) l w) : w.Refers := by
  have hempty : w₀.Refers := by
    refine ⟨fun a b state hrow => ?_, fun g u r hrow => ?_⟩
    · rw [hfriends] at hrow
      cases hrow
    · rw [hgroups.groupUser] at hrow
      cases hrow
  exact serial_invariant (fun _ _ hs => refers_boot hs) (fun _ _ hok hs => refers_serve hok hs) h (refers_boot hempty)

/-- **References are right**, in every run from tables without friends and groups in which every request to
become friends names two users that the table has, every request to join names a group that exists, and the texts
stay inside their literals. -/
theorem refers_of_run {other : Other} (hfriends : ∀ k, w₀.db.friend.lookup k = none) (hgroups : NoGroups w₀.groups)
    {l : List (Option Activity)} {s : NullableWorld}
    (h : (serialSql env other).Run (fun s a => Worded env s.toWorld a ∧ NamesRows env s.toWorld a)
      (bootSql env other w₀.nonNull) l s) :
    (∀ a b state, s.db.friend.lookup (a, b) = some state →
      (s.db.user.lookup a).isSome ∧ (s.db.user.lookup b).isSome ∧ a ≠ b) ∧
    ∀ g u role, s.db.groupUser.lookup (g, u) = some role → (s.db.allGroup.lookup g).isSome := by
  obtain ⟨w, rfl, hrun⟩ := serial_of_worded_boot h
  exact refers_of_serial hfriends hgroups hrun

end Run

def registers (conn : Conn) (name password : String) : Activity :=
  .request conn EnMsgType.regMsg.code (.obj [("name", .str name), ("password", .str password)]) ""

/-- Ann asks bob to be her friend, and to join his group. -/
theorem refers_of_run_ann :
    ∃ s, (serialSql .still .overrun).Run (fun s a => Worded .still s.toWorld a ∧ NamesRows .still s.toWorld a)
        (bootSql .still .overrun (World.init Db.empty).nonNull)
        [some (registers 1 "ann" "a"), some (registers 2 "bob" "b"), some (logsIn 1 "ann" "a"),
          some (logsIn 2 "bob" "b"), some (creates 2 "cats"), some (addsFriend 1 "bob"),
          some (asksToJoin 1 3)] s ∧
      s.db.friend.lookup (3, 4) = some .request ∧ s.db.groupUser.lookup (3, 3) = some .request ∧
      (s.db.user.lookup 4).isSome ∧ (s.db.allGroup.lookup 3).isSome := by
  have hrun : ∃ w, (serial .still).Run (fun w a => Worded .still w a ∧ NamesRows .still w a)
      (boot .still (World.init Db.empty))
      [some (registers 1 "ann" "a"), some (registers 2 "bob" "b"), some (logsIn 1 "ann" "a"),
        some (logsIn 2 "bob" "b"), some (creates 2 "cats"), some (addsFriend 1 "bob"),
        some (asksToJoin 1 3)] w ∧
      w.db.friend.lookup (3, 4) = some .request ∧ w.db.groupUser.lookup (3, 3) = some .request := by
    refine ⟨_, .cons ⟨by decide, ?_⟩ rfl (.cons ⟨by decide, ?_⟩ rfl (.cons ⟨by decide, ?_⟩ rfl
      (.cons ⟨by decide, ?_⟩ rfl (.cons ⟨by decide, ?_⟩ rfl (.cons ⟨by decide, ?_⟩ rfl
        (.cons ⟨by decide, ?_⟩ rfl (.nil _))))))), rfl, rfl⟩
    all_goals
      refine ⟨fun op hop => ?_, fun u op hop => ?_⟩ <;> cases hop <;> trivial
  obtain ⟨w, hrun, hfriend, hgroup⟩ := hrun
  have hsql : (serialSql .still .overrun).Run _ _ _ _ := serialSql_of_boot hrun
  obtain ⟨hrefer, hhosted⟩ := refers_of_run (fun _ => rfl) ⟨fun _ => rfl, fun _ _ => rfl⟩ hsql
  exact ⟨_, hsql, hfriend, hgroup, (hrefer 3 4 _ hfriend).2.1, hhosted 3 3 _ hgroup⟩

/-- Ann asks a user who does not exist, and herself, to be her friends, and asks to join a group that does not
exist. -/
theorem orphan_rows :
    ∃ w, (serial .still).exec (boot .still (World.init Db.empty))
        [some (registers 1 "ann" "a"), some (logsIn 1 "ann" "a"), some (addsFriend 1 "nobody"),
          some (addsFriend 1 "ann"), some (asksToJoin 1 77)] = some w ∧
      w.db.friend.lookup (3, -1) = some .request ∧ w.db.user.lookup (-1) = none ∧
      w.db.friend.lookup (3, 3) = some .request ∧
      w.db.groupUser.lookup (77, 3) = some .request ∧ w.db.allGroup.lookup 77 = none :=
  ⟨_, rfl, rfl, rfl, rfl, rfl, rfl⟩

end Chatroom.Service
