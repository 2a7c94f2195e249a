import Chatroom.Service.MemberLists

/-!
# Who receives what is said in a group

A chat message goes to the users of the group's list in `m_groupUserListMap` (`sent_handleGroupChat`): once to each
member where lists and table agree (`delivers_of_run`), and in every run only to those who were admitted last
(`admitted_of_run`).
-/

namespace Chatroom.Service

open Lib

/-! ## What a chat message is sent to -/

/-- The message to each of the users who is online. -/
def deliveries (w : World) (vec : List ℤ) (message : Json) : List (Conn × Json) :=
  vec.filterMap fun v => (w.userConnMap v).map fun d => (d, message)

/-- Whom `handleGroupChat` sends a message to. -/
def chatRecipients (w : World) (conn : Conn) (g : ℤ) : List ℤ := removeAll (w.groups.vec g) (w.userOf conn)

def chatMessage (groupid : ℤ) (fromName msg time : String) : Json :=
  .obj [("from_name", .str fromName), ("groupid", .num groupid), ("msg", .str msg), ("msgid", .msg .groupChat),
    ("time", .str time)]

section Chat

variable {env : Environment} {conn : Conn}

theorem sent_chatLoop (userVec : List ℤ) (fields : List (String × Json)) (w : World) :
    ((forM userVec fun userid => (do
      let self ← connUser conn
      if userid = self then return
      else sendToUser userid fields : Task Unit)).run (exec env) w).2.sent =
      w.sent ++ deliveries w (removeAll userVec (w.userOf conn)) (.obj fields) := by
  induction userVec generalizing w with
  | nil => simp [deliveries, removeAll]
  | cons userid userVec ih =>
    rw [List.forM_cons]
    by_cases hself : userid = w.userOf conn
    · have hround : (do
          let self ← connUser conn
          if userid = self then return
          else sendToUser userid fields : Task Unit).run (exec env) w = (.ok (), w.ask conn) := by
        rw [Program.run_bind, run_ask]
        simp [hself]
      rw [Program.run_bind, hround]
      refine (ih (w.ask conn)).trans ?_
      rw [World.userOf_ask]
      simp [hself, removeAll]
      rfl
    · have hround : (do
          let self ← connUser conn
          if userid = self then return
          else sendToUser userid fields : Task Unit).run (exec env) w =
          (.ok (), { w.ask conn with sent := w.sent ++ deliveries w [userid] (.obj fields) }) := by
        rw [Program.run_bind, run_ask]
        simp only [hself, if_false, run_sendToUser]
        cases huser : w.userConnMap userid <;> simp [deliveries, World.ask, huser]
      rw [Program.run_bind, hround]
      refine (ih { w.ask conn with sent := w.sent ++ deliveries w [userid] (.obj fields) }).trans ?_
      show w.sent ++ deliveries w [userid] (.obj fields) ++
        deliveries w (removeAll userVec ((w.ask conn).userOf conn)) (.obj fields) = _
      rw [World.userOf_ask, List.append_assoc, deliveries, deliveries, deliveries, ← List.filterMap_append]
      simp [removeAll, hself]

/-- **A chat message is sent once to every other user of the list who is online, and to nobody else.** -/
theorem sent_handleGroupChat {w : World} {js : Json} {g : ℤ} {msg fromName : String}
    (hgroup : js.intField "groupid" = .ok g) (hmsg : js.stringField "msg" = .ok msg)
    (hname : js.stringField "from_name" = .ok fromName) (time : String) :
    ((handleGroupChat conn js time).run (exec env) w).2.sent =
      w.sent ++ deliveries w (chatRecipients w conn g) (chatMessage g fromName msg time) := by
  unfold handleGroupChat
  simp only [Program.run_bind, run_read_ok, run_ask, Program.run_perform, exec, hgroup, hmsg, hname]
  refine (sent_chatLoop _ _ _).trans ?_
  show w.sent ++ deliveries w (removeAll (w.groups.vec g) ((w.ask conn).userOf conn)) _ = _
  rw [World.userOf_ask]
  rfl

/-- What `handleGroupChat` calls. -/
inductive Cmd.OfGroupChat : Cmd → Prop
  | groupUserList (groupid : ℤ) : OfGroupChat (.groupUserList groupid)
  | connUser (d : Conn) : OfGroupChat (.connUser d)
  | getCurrentTimestamp : OfGroupChat .getCurrentTimestamp
  | rpush (record : History.ChatRecord) : OfGroupChat (.rpush .groupChat record)
  | findUserConn (userid : ℤ) : OfGroupChat (.findUserConn userid)
  | send (d : Conn) (js : Json) : OfGroupChat (.send d js)

/-- Whatever allows that. -/
theorem safe_handleGroupChat_of {P : Cmd → Prop} (hP : ∀ c, Cmd.OfGroupChat c → P c) (conn : Conn) (js : Json)
    (time : String) : (handleGroupChat conn js time).Safe P (fun _ _ => True) fun _ => True := by
  simp only [handleGroupChat, connUser, Program.safe_bind, Program.safe_perform, safe_read]
  intro groupid _ msg _ fromName _
  refine ⟨hP _ (.groupUserList groupid), fun userVec _ => ⟨hP _ (.connUser conn), fun _ _ => ?_⟩⟩
  refine ⟨hP _ .getCurrentTimestamp, fun _ _ => ⟨hP _ (.rpush _), fun _ _ => ?_⟩⟩
  refine Program.safe_forM (fun userid _ => ?_) trivial
  simp only [Program.safe_bind, Program.safe_perform, Program.safe_ite]
  exact ⟨hP _ (.connUser conn), fun self _ => ⟨fun _ => trivial, fun _ =>
    safe_sendToUser_of (hP _ (.findUserConn userid)) (fun d => hP _ (.send d _)) trivial⟩⟩

/-- A message without one of the fields is sent to nobody. -/
theorem sent_handleGroupChat_none {w : World} {js : Json} (hread : GroupOp.read .groupChat js = none)
    (time : String) : ((handleGroupChat conn js time).run (exec env) w).2.sent = w.sent := by
  unfold handleGroupChat
  cases hgroup : js.intField "groupid" with
  | error e => rfl
  | ok g =>
    cases hmsg : js.stringField "msg" with
    | error e => rfl
    | ok msg =>
      cases hname : js.stringField "from_name" with
      | error e => rfl
      | ok fromName => simp [GroupOp.read, hgroup, hmsg, hname, Except.toOption] at hread

end Chat

/-! ## The lists and the table -/

/-- The lists hold the members of the groups, each once. -/
structure ListsAgree (s : Groups) : Prop where
  present : ∀ g, (s.allGroup.lookup g).isSome → (s.userList g).isSome
  nodup : ∀ g, (s.vec g).Nodup
  mem : ∀ g u, u ∈ s.vec g ↔ s.Member g u
  groups : ∀ g u, s.Member g u → (s.allGroup.lookup g).isSome

/-- The request keeps the lists: who creates a group has not asked to join it before it existed, and who is added has
asked to. -/
def KeepsLists (collate : String → String) (u : ℤ) (s : Groups) : GroupOp → Prop
  | .create name => s.refuses collate name = false → s.role s.allGroup.next u = none
  | .add g v => s.Runs g u → s.role g v = some .request
  | _ => True

theorem mem_removeAll {vec : List ℤ} {u v : ℤ} : v ∈ removeAll vec u ↔ v ∈ vec ∧ v ≠ u := by
  simp [removeAll]

theorem nodup_removeAll {vec : List ℤ} (h : vec.Nodup) (u : ℤ) : (removeAll vec u).Nodup := h.filter _

section Apply

variable {collate : String → String} {u : ℤ} {s : Groups}

open GroupOp

namespace ListsAgree

theorem listsPresent (h : ListsAgree s) : ListsPresent s := ⟨h.present, h.groups⟩

/-- That every group has a list does not depend on what is in it. -/
theorem of_vec (h : ListsAgree s) {op : GroupOp} (hnodup : ∀ g, ((apply collate u s op).vec g).Nodup)
    (hmem : ∀ g v, v ∈ (apply collate u s op).vec g ↔ (apply collate u s op).Member g v) :
    ListsAgree (apply collate u s op) := by
  have hlists : ListsPresent (apply collate u s op) := listsPresent_apply h.listsPresent op
  exact ⟨hlists.present, hnodup, hmem, hlists.groups⟩

theorem create (h : ListsAgree s) {name : String} (hok : KeepsLists collate u s (.create name)) :
    ListsAgree (apply collate u s (.create name)) := by
  have hnext : ∀ v, ¬ s.Member s.allGroup.next v := by
    intro v hv
    simpa [AutoTable.lookup_next] using h.groups _ _ hv
  refine h.of_vec (fun g => ?_) fun g v => ?_
  · rw [vec_create]
    split
    case isTrue hnew =>
      rw [hnew.2]
      refine (h.nodup _).append (List.nodup_singleton u) ?_
      exact List.disjoint_singleton.2 fun hu => hnext u ((h.mem _ _).1 hu)
    case isFalse => exact h.nodup g
  · rw [vec_create, member_create]
    split
    case isTrue hnew =>
      obtain ⟨hfree, rfl⟩ := hnew
      have hrow : v = u → s.role s.allGroup.next v = none := fun hv => hv ▸ hok hfree
      simp only [List.mem_append, List.mem_singleton, h.mem, hfree, true_and]
      exact or_congr_right ⟨fun hv => ⟨hv, hrow hv⟩, And.left⟩
    case isFalse hold =>
      rw [h.mem]
      exact (or_iff_left fun h' => hold ⟨h'.1, h'.2.1⟩).symm

theorem delete (h : ListsAgree s) (g : ℤ) : ListsAgree (apply collate u s (.delete g)) := by
  refine h.of_vec (fun g' => ?_) fun g' v => ?_
  · rw [vec_delete]
    split
    case isTrue => exact List.nodup_nil
    case isFalse => exact h.nodup g'
  · rw [vec_delete, member_delete]
    split
    case isTrue hdeleted => simp [hdeleted]
    case isFalse hother => simp only [h.mem, hother, not_false_eq_true, and_true]

theorem add (h : ListsAgree s) {g v : ℤ} (hok : KeepsLists collate u s (.add g v)) :
    ListsAgree (apply collate u s (.add g v)) := by
  refine h.of_vec (fun g' => ?_) fun g' v' => ?_
  · rw [vec_add]
    split
    case isTrue hadds =>
      obtain ⟨hruns, rfl⟩ := hadds
      refine (h.nodup g').append (List.nodup_singleton v) ?_
      refine List.disjoint_singleton.2 fun hv => ?_
      exact (Groups.member_iff.1 ((h.mem g' v).1 hv)).2 (hok hruns)
    case isFalse => exact h.nodup g'
  · rw [vec_add, member_add]
    split
    case isTrue hadds =>
      obtain ⟨hruns, rfl⟩ := hadds
      simp [h.mem, hruns, hok hruns]
    case isFalse hnot =>
      rw [h.mem]
      exact (or_iff_left fun h' => hnot ⟨h'.1, h'.2.1⟩).symm

theorem quit (h : ListsAgree s) (g : ℤ) : ListsAgree (apply collate u s (.quit g)) := by
  refine h.of_vec (fun g' => ?_) fun g' v => ?_
  · rw [vec_quit]
    split
    case isTrue => exact nodup_removeAll (h.nodup g') u
    case isFalse => exact h.nodup g'
  · rw [vec_quit, member_quit]
    split
    case isTrue hquits => simp only [mem_removeAll, h.mem, hquits, true_and]
    case isFalse hnot =>
      rw [h.mem]
      exact (and_iff_left fun h' => hnot ⟨h'.1, h'.2.1⟩).symm

theorem kick (h : ListsAgree s) (g v : ℤ) : ListsAgree (apply collate u s (.kick g v)) := by
  refine h.of_vec (fun g' => ?_) fun g' v' => ?_
  · rw [vec_kick]
    split
    case isTrue => exact nodup_removeAll (h.nodup g') v
    case isFalse => exact h.nodup g'
  · rw [vec_kick, member_kick]
    split
    case isTrue hkicks => simp only [mem_removeAll, h.mem, hkicks, true_and]
    case isFalse hnot =>
      rw [h.mem]
      exact (and_iff_left fun h' => hnot ⟨h'.1, h'.2.1⟩).symm

end ListsAgree

theorem listsAgree_apply (h : ListsAgree s) {op : GroupOp} (hok : KeepsLists collate u s op) :
    ListsAgree (apply collate u s op) := by
  have hsame (hvec : ∀ g, (apply collate u s op).vec g = s.vec g)
      (hmember : ∀ g v, (apply collate u s op).Member g v ↔ s.Member g v) : ListsAgree (apply collate u s op) := by
    refine h.of_vec (fun g => ?_) fun g v => ?_
    · rw [hvec]
      exact h.nodup g
    · rw [hvec, hmember]
      exact h.mem g v
  cases op with
  | create name => exact h.create hok
  | request g => exact hsame (fun _ => rfl) fun _ _ => member_request
  | add g v => exact h.add hok
  | quit g => exact h.quit g
  | setManager g v => exact hsame (fun _ => vec_setManager) fun _ _ => member_setManager
  | cancelManager g v => exact hsame (fun _ => vec_cancelManager) fun _ _ => member_cancelManager
  | kick g v => exact h.kick g v
  | chat g => exact hsame (fun _ => vec_chat) fun _ _ => Iff.rfl
  | delete g => exact h.delete g

/-- Any other request leaves a list that is not that of the members. -/
theorem keepsLists_of_listsAgree_apply (h : ListsAgree s) {op : GroupOp} (h' : ListsAgree (apply collate u s op)) :
    KeepsLists collate u s op := by
  cases op with
  | create name =>
    intro hfree
    have hlisted : u ∈ (apply collate u s (.create name)).vec s.allGroup.next := by
      rw [vec_create, if_pos ⟨hfree, rfl⟩]
      simp
    rcases member_create.1 ((h'.mem _ _).1 hlisted) with hmember | hnew
    · simpa [AutoTable.lookup_next] using h.groups _ _ hmember
    · exact hnew.2.2.2
  | add g v =>
    intro hruns
    have hvec : (apply collate u s (.add g v)).vec g = s.vec g ++ [v] := by rw [vec_add, if_pos ⟨hruns, rfl⟩]
    have hlisted : v ∈ (apply collate u s (.add g v)).vec g := by simp [hvec]
    rcases member_add.1 ((h'.mem _ _).1 hlisted) with hmember | hnew
    · have hnodup := h'.nodup g
      rw [hvec, List.nodup_append] at hnodup
      exact absurd rfl (hnodup.2.2 v ((h.mem g v).2 hmember) v (by simp))
    · exact hnew.2.2.2
  | request g => trivial
  | quit g => trivial
  | setManager g v => trivial
  | cancelManager g v => trivial
  | kick g v => trivial
  | chat g => trivial
  | delete g => trivial

theorem listsAgree_apply_iff (h : ListsAgree s) {op : GroupOp} :
    ListsAgree (apply collate u s op) ↔ KeepsLists collate u s op :=
  ⟨keepsLists_of_listsAgree_apply h, listsAgree_apply h⟩

end Apply

section Run

variable {env : Environment} {w₀ w : World}

/-- A new process has the lists of the members that are registered users. -/
theorem listsAgree_boot_iff (h : ListsAgree w.groups) :
    ListsAgree (boot env w).groups ↔ ∀ g u, w.groups.Member g u → (w.db.user.lookup u).isSome := by
  have hvec : ∀ g, (boot env w).groups.vec g =
      if (w.groups.allGroup.lookup g).isSome then w.membersOf g else [] := by
    intro g
    rw [groups_boot]
    show (if (w.groups.allGroup.lookup g).isSome then some (w.membersOf g) else none).getD [] = _
    split <;> rfl
  have hmember : ∀ g u, (boot env w).groups.Member g u ↔ w.groups.Member g u := by
    intro g u
    rw [groups_boot]
    rfl
  constructor
  · intro h' g u hu
    have hlisted := (h'.mem g u).2 ((hmember g u).2 hu)
    rw [hvec, if_pos (h.groups g u hu)] at hlisted
    exact (mem_membersOf.1 hlisted).2
  · intro hregistered
    have hlists : ListsPresent (boot env w).groups := listsPresent_boot h.listsPresent
    refine ⟨hlists.present, fun g => ?_, fun g u => ?_, hlists.groups⟩
    · rw [hvec]
      split
      case isTrue => exact nodup_membersOf w g
      case isFalse => exact List.nodup_nil
    · rw [hvec, hmember]
      split
      case isTrue => exact mem_membersOf.trans (and_iff_left_of_imp (hregistered g u))
      case isFalse hg => exact iff_of_false (by simp) fun hu => hg (h.groups g u hu)

/-- Every request of the step keeps the lists, and every member is a registered user when the process starts again. -/
def ListsKept (env : Environment) (w : World) : Option Activity → Prop
  | some a => ∀ u op, requested w a = some (u, op) → KeepsLists env.collate u w.groups op
  | none => ∀ g u, w.groups.Member g u → (w.db.user.lookup u).isSome

theorem listsAgree_of_run (h₀ : NoGroups w₀.groups) {l : List (Option Activity)}
    (h : (serial env).Run (ListsKept env) (boot env w₀) l w) : ListsAgree w.groups := by
  have hboot : ListsAgree (boot env w₀).groups := by
    rw [groups_boot]
    have hnone : ∀ g, w₀.groups.allGroup.lookup g = none := h₀.allGroup
    constructor
    · intro g hg
      simp [hnone] at hg
    · intro g
      simp [Groups.vec, hnone]
    · intro g u
      exact iff_of_false (by simp [Groups.vec, hnone]) (h₀.not_member g u)
    · exact fun g u hu => absurd hu (h₀.not_member g u)
  have hrestart : ∀ s, ListsKept env s none → ListsAgree s.groups → ListsAgree (boot env s).groups :=
    fun s hok hs => (listsAgree_boot_iff hs).2 hok
  have hserve : ∀ s a, ListsKept env s (some a) → ListsAgree s.groups → ListsAgree (serve env a s).groups :=
    fun s a hok hs => groups_serve_of hs fun u op hreq => (listsAgree_apply_iff hs).2 (hok u op hreq)
  exact serial_invariant hrestart hserve h hboot

/-- **The list of a group holds its members, each once, and a chat message is sent once to every other member who is
online and to nobody else**, in every run from empty tables that keeps the lists and whose texts stay inside their
literals. -/
theorem delivers_of_run {other : Other} (h₀ : NoGroups w₀.groups) {l : List (Option Activity)} {s : NullableWorld}
    (h : (serialSql env other).Run (fun s a => Worded env s.toWorld a ∧ ListsKept env s.toWorld a)
      (bootSql env other w₀.nonNull) l s) {g : ℤ} (hg : (s.db.allGroup.lookup g).isSome) :
    (∃ vec, s.groupUserListMap g = some vec ∧ vec.Nodup ∧ ∀ u, u ∈ vec ↔ s.groups.Member g u) ∧
    ∀ (conn : Conn) (js : Json) (time msg fromName : String), js.intField "groupid" = .ok g →
      js.stringField "msg" = .ok msg → js.stringField "from_name" = .ok fromName →
      ∃ recipients : List ℤ, recipients.Nodup ∧
        (∀ v, v ∈ recipients ↔ s.groups.Member g v ∧ v ≠ s.userOf conn) ∧
        ((handleGroupChat conn js time).runThrowing (execSql env other) s).2.sent =
          s.sent ++ deliveries s.toWorld recipients (chatMessage g fromName msg time) := by
  obtain ⟨w, rfl, hrun⟩ := serial_of_worded_boot h
  have hagree : ListsAgree w.groups := listsAgree_of_run h₀ hrun
  constructor
  · obtain ⟨vec, hvec⟩ := Option.isSome_iff_exists.1 (hagree.present g hg)
    have hlist : w.groups.vec g = vec := by rw [Groups.vec, hvec, Option.getD_some]
    exact ⟨vec, hvec, hlist ▸ hagree.nodup g, fun u => hlist ▸ hagree.mem g u⟩
  · intro conn js time msg fromName hgroup hmsg hname
    refine ⟨chatRecipients w conn g, nodup_removeAll (hagree.nodup g) _, fun v => ?_, ?_⟩
    · exact mem_removeAll.trans (and_congr_left' (hagree.mem g v))
    · have hworded : (handleGroupChat conn js time).Safe (fun c => c.Worded) (fun _ _ => True) fun _ => True := by
        refine safe_handleGroupChat_of (fun c hc => ?_) conn js time
        cases hc <;> trivial
      rw [runThrowing_nonNull (Program.Safe.trace (exec env) hworded w)]
      exact sent_handleGroupChat hgroup hmsg hname time

end Run

/-- Ann creates a group and adds bob, who asked to join; the process is restarted. -/
theorem delivers_of_run_ann :
    ∃ s, (serialSql .still .overrun).Run (fun s a => Worded .still s.toWorld a ∧ ListsKept .still s.toWorld a)
        (bootSql .still .overrun (World.init annAndBob).nonNull)
        [some (logsIn 1 "ann" "a"), some (logsIn 2 "bob" "b"), some (creates 1 "cats"),
          some (asksToJoin 2 3), some (groupAction .addGroup 1 3 4), none] s ∧
      ∃ vec, s.groupUserListMap 3 = some vec ∧ vec.Nodup ∧ ∀ u, u ∈ vec ↔ s.groups.Member 3 u := by
  obtain ⟨w, hrun, hg⟩ : ∃ w, (serial .still).Run (fun w a => Worded .still w a ∧ ListsKept .still w a)
      (boot .still (World.init annAndBob))
      [some (logsIn 1 "ann" "a"), some (logsIn 2 "bob" "b"), some (creates 1 "cats"),
        some (asksToJoin 2 3), some (groupAction .addGroup 1 3 4), none] w ∧
      (w.db.allGroup.lookup 3).isSome := by
    refine ⟨_, .cons ⟨by decide, ?_⟩ rfl (.cons ⟨by decide, ?_⟩ rfl (.cons ⟨by decide, ?_⟩ rfl
      (.cons ⟨by decide, ?_⟩ rfl (.cons ⟨by decide, ?_⟩ rfl (.cons ⟨by decide, ?_⟩ rfl (.nil _)))))), rfl⟩
    · rintro u op ⟨⟩
    · rintro u op ⟨⟩
    · rintro u op ⟨⟩
      exact fun _ => rfl
    · rintro u op ⟨⟩
      trivial
    · rintro u op ⟨⟩
      exact fun _ => rfl
    · rintro g u ⟨r, hr, -⟩
      have hmem := Table.mem_rows.2 hr
      change ((g, u), r) ∈ [((3, 4), Role.normal), ((3, 3), Role.master)] at hmem
      simp only [List.mem_cons, List.not_mem_nil, or_false, Prod.mk.injEq] at hmem
      rcases hmem with ⟨⟨-, rfl⟩, -⟩ | ⟨⟨-, rfl⟩, -⟩ <;> rfl
  have hsql : (serialSql .still .overrun).Run _ _ _ _ := serialSql_of_boot hrun
  exact ⟨_, hsql, (delivers_of_run ⟨fun _ => rfl, fun _ _ => rfl⟩ hsql hg).1⟩

/-- Ann adds bob twice, and the list has him twice. -/
theorem member_added_twice :
    ∃ w, (serial .still).exec (boot .still (World.init annAndBob))
        [some (logsIn 1 "ann" "a"), some (logsIn 2 "bob" "b"), some (creates 1 "cats"),
          some (asksToJoin 2 3), some (groupAction .addGroup 1 3 4), some (groupAction .addGroup 1 3 4)] = some w ∧
      (w.db.allGroup.lookup 3).isSome ∧ w.groupUserListMap 3 = some [3, 4, 4] ∧
      ¬ ∃ vec, w.groupUserListMap 3 = some vec ∧ vec.Nodup ∧ ∀ u, u ∈ vec ↔ w.groups.Member 3 u := by
  refine ⟨_, rfl, rfl, rfl, ?_⟩
  rintro ⟨vec, hvec, hnodup, -⟩
  obtain rfl : [3, 4, 4] = vec := Option.some.inj hvec
  exact absurd hnodup (by decide)

/-! ## The history of a group -/

/-- What decides who receives the messages of a group, when it succeeds. -/
inductive GroupEvent where
  | created (g u : ℤ)
  | admitted (g u : ℤ)
  | kicked (g u : ℤ)
  | quit (g u : ℤ)
  | deleted (g : ℤ)
  deriving DecidableEq

/-- The event is about the user and the group. -/
def GroupEvent.concerns (g u : ℤ) : GroupEvent → Bool
  | .created g' u' => (g', u') = (g, u)
  | .admitted g' u' => (g', u') = (g, u)
  | .kicked g' u' => (g', u') = (g, u)
  | .quit g' u' => (g', u') = (g, u)
  | .deleted _ => false

/-- The event of a request of `u`, if it succeeds. -/
def GroupOp.events (collate : String → String) (u : ℤ) (s : Groups) : GroupOp → List GroupEvent
  | .create name => if s.refuses collate name then [] else [.created s.allGroup.next u]
  | .add g v => if s.Runs g u then [.admitted g v] else []
  | .kick g v => if s.Kicks g u v then [.kicked g v] else []
  | .quit g => if s.role g u = some .manager ∨ s.role g u = some .normal then [.quit g u] else []
  | .delete g => if s.role g u = some .master then [.deleted g] else []
  | _ => []

def lastEvent (log : List GroupEvent) (g u : ℤ) : Option GroupEvent := (log.filter (·.concerns g u)).getLast?

/-- The last event about the user and the group let him in. -/
def Admitted (log : List GroupEvent) (g u : ℤ) : Prop :=
  lastEvent log g u = some (.created g u) ∨ lastEvent log g u = some (.admitted g u)

theorem lastEvent_concat (log : List GroupEvent) (e : GroupEvent) (g u : ℤ) :
    lastEvent (log ++ [e]) g u = if e.concerns g u then some e else lastEvent log g u := by
  unfold lastEvent
  rw [List.filter_append]
  cases h : e.concerns g u <;> simp [h]

theorem admitted_concat_created {log : List GroupEvent} {g u g' u' : ℤ} :
    Admitted (log ++ [.created g u]) g' u' ↔ (g' = g ∧ u' = u) ∨ Admitted log g' u' := by
  simp only [Admitted, lastEvent_concat, GroupEvent.concerns]
  by_cases h : g = g' ∧ u = u'
  · simp [h]
  · have h' : ¬ (g' = g ∧ u' = u) := fun heq => h ⟨heq.1.symm, heq.2.symm⟩
    simp [h, h']

theorem admitted_concat_admitted {log : List GroupEvent} {g u g' u' : ℤ} :
    Admitted (log ++ [.admitted g u]) g' u' ↔ (g' = g ∧ u' = u) ∨ Admitted log g' u' := by
  simp only [Admitted, lastEvent_concat, GroupEvent.concerns]
  by_cases h : g = g' ∧ u = u'
  · simp [h]
  · have h' : ¬ (g' = g ∧ u' = u) := fun heq => h ⟨heq.1.symm, heq.2.symm⟩
    simp [h, h']

/-- An event about somebody else. -/
theorem admitted_concat_of_not {log : List GroupEvent} {e : GroupEvent} {g u : ℤ} (he : e.concerns g u = false) :
    Admitted (log ++ [e]) g u ↔ Admitted log g u := by
  simp [Admitted, lastEvent_concat, he]

/-- Who is on the list or in the table was let in last, and there is nobody where there is no group. -/
structure Justified (s : Groups) (log : List GroupEvent) : Prop where
  member : ∀ g u, s.Member g u → Admitted log g u
  vec : ∀ g u, u ∈ s.vec g → Admitted log g u
  groups : ∀ g u, s.Member g u ∨ u ∈ s.vec g → (s.allGroup.lookup g).isSome
  deleted : ∀ g, .deleted g ∈ log → s.allGroup.lookup g = none ∧ g < s.allGroup.next

section Apply

variable {collate : String → String} {u : ℤ} {s s' : Groups} {log : List GroupEvent}

open GroupOp

namespace Justified

/-- Nobody comes in. -/
theorem mono (h : Justified s log) (hgroups : s'.allGroup = s.allGroup)
    (hmember : ∀ g v, s'.Member g v → s.Member g v) (hvec : ∀ g v, v ∈ s'.vec g → v ∈ s.vec g) :
    Justified s' log := by
  constructor
  · exact fun g v hv => h.member g v (hmember g v hv)
  · exact fun g v hv => h.vec g v (hvec g v hv)
  · intro g v hv
    rw [hgroups]
    exact h.groups g v (hv.imp (hmember g v) (hvec g v))
  · intro g hg
    rw [hgroups]
    exact h.deleted g hg

/-- `v` goes. -/
theorem leave (h : Justified s log) {g v : ℤ} {e : GroupEvent} (hgroups : s'.allGroup = s.allGroup)
    (hmember : ∀ g' v', s'.Member g' v' → s.Member g' v' ∧ ¬ (g' = g ∧ v' = v))
    (hvec : ∀ g' v', v' ∈ s'.vec g' → v' ∈ s.vec g' ∧ ¬ (g' = g ∧ v' = v))
    (he : ∀ g' v', ¬ (g' = g ∧ v' = v) → e.concerns g' v' = false) (hdeleted : ∀ g', e ≠ .deleted g') :
    Justified s' (log ++ [e]) := by
  constructor
  · intro g' v' hv
    obtain ⟨hold, hne⟩ := hmember g' v' hv
    exact (admitted_concat_of_not (he g' v' hne)).2 (h.member g' v' hold)
  · intro g' v' hv
    obtain ⟨hold, hne⟩ := hvec g' v' hv
    exact (admitted_concat_of_not (he g' v' hne)).2 (h.vec g' v' hold)
  · intro g' v' hv
    rw [hgroups]
    exact h.groups g' v' (hv.imp (fun hm => (hmember g' v' hm).1) fun hl => (hvec g' v' hl).1)
  · intro g' hg'
    rw [hgroups]
    rcases List.mem_append.1 hg' with hg' | hg'
    · exact h.deleted g' hg'
    · exact absurd (List.mem_singleton.1 hg').symm (hdeleted g')

theorem create (h : Justified s log) (name : String) :
    Justified (apply collate u s (.create name)) (log ++ (GroupOp.create name).events collate u s) := by
  have hnext : (apply collate u s (.create name)).allGroup.next = s.allGroup.next + 1 := by
    simp only [apply]
    split <;> rfl
  have hmember : ∀ g v, (apply collate u s (.create name)).Member g v → s.Member g v ∨
      (s.refuses collate name = false ∧ g = s.allGroup.next ∧ v = u) :=
    fun g v hv => (member_create.1 hv).imp_right fun hnew => ⟨hnew.1, hnew.2.1, hnew.2.2.1⟩
  have hvec : ∀ g v, v ∈ (apply collate u s (.create name)).vec g → v ∈ s.vec g ∨
      (s.refuses collate name = false ∧ g = s.allGroup.next ∧ v = u) := by
    intro g v hv
    rw [vec_create] at hv
    split at hv
    case isTrue hnew =>
      exact (List.mem_append.1 hv).imp_right fun hu => ⟨hnew.1, hnew.2, List.mem_singleton.1 hu⟩
    case isFalse => exact .inl hv
  have hadmitted : ∀ g v, Admitted log g v ∨ (s.refuses collate name = false ∧ g = s.allGroup.next ∧ v = u) →
      Admitted (log ++ (GroupOp.create name).events collate u s) g v := by
    intro g v hv
    cases hrefused : s.refuses collate name with
    | true => simpa [events, hrefused] using hv
    | false =>
      simp only [events, hrefused, Bool.false_eq_true, if_false]
      exact admitted_concat_created.2 (hv.symm.imp_left And.right)
  constructor
  · exact fun g v hv => hadmitted g v ((hmember g v hv).imp_left (h.member g v))
  · exact fun g v hv => hadmitted g v ((hvec g v hv).imp_left (h.vec g v))
  · intro g v hv
    have hcases : (s.Member g v ∨ v ∈ s.vec g) ∨ (s.refuses collate name = false ∧ g = s.allGroup.next ∧ v = u) := by
      rcases hv with hv | hv
      · exact (hmember g v hv).imp_left .inl
      · exact (hvec g v hv).imp_left .inr
    rcases hcases with hold | ⟨hfree, rfl, -⟩
    · exact exists_create.2 (.inr (h.groups g v hold))
    · exact exists_create.2 (.inl ⟨hfree, rfl⟩)
  · intro g hg
    have hold : .deleted g ∈ log := by
      rcases List.mem_append.1 hg with hg | hg
      · exact hg
      · simp only [events] at hg
        split at hg <;> simp at hg
    obtain ⟨hlookup, hlt⟩ := h.deleted g hold
    refine ⟨?_, by omega⟩
    rw [← Option.not_isSome_iff_eq_none, exists_create, not_or, Option.not_isSome_iff_eq_none]
    exact ⟨fun hnew => by omega, hlookup⟩

theorem add (h : Justified s log) (g v : ℤ) :
    Justified (apply collate u s (.add g v)) (log ++ (GroupOp.add g v).events collate u s) := by
  by_cases hruns : s.Runs g u
  · rw [events, if_pos hruns]
    have hgroups : (apply collate u s (.add g v)).allGroup = s.allGroup := allGroup_apply nofun nofun
    have hexists : (s.allGroup.lookup g).isSome := h.groups g u (.inl hruns.member)
    have hmember : ∀ g' v', (apply collate u s (.add g v)).Member g' v' → s.Member g' v' ∨ (g' = g ∧ v' = v) :=
      fun g' v' hv => (member_add.1 hv).imp_right fun hnew => ⟨hnew.2.1, hnew.2.2.1⟩
    have hvec : ∀ g' v', v' ∈ (apply collate u s (.add g v)).vec g' → v' ∈ s.vec g' ∨ (g' = g ∧ v' = v) := by
      intro g' v' hv
      rw [vec_add] at hv
      split at hv
      case isTrue hadds =>
        exact (List.mem_append.1 hv).imp_right fun hnew => ⟨hadds.2, List.mem_singleton.1 hnew⟩
      case isFalse => exact .inl hv
    constructor
    · exact fun g' v' hv => admitted_concat_admitted.2 ((hmember g' v' hv).symm.imp_right (h.member g' v'))
    · exact fun g' v' hv => admitted_concat_admitted.2 ((hvec g' v' hv).symm.imp_right (h.vec g' v'))
    · intro g' v' hv
      rw [hgroups]
      have hcases : (s.Member g' v' ∨ v' ∈ s.vec g') ∨ (g' = g ∧ v' = v) := by
        rcases hv with hv | hv
        · exact (hmember g' v' hv).imp_left .inl
        · exact (hvec g' v' hv).imp_left .inr
      rcases hcases with hold | ⟨rfl, -⟩
      · exact h.groups g' v' hold
      · exact hexists
    · intro g' hg'
      rw [hgroups]
      exact h.deleted g' (by simpa using hg')
  · rw [events, if_neg hruns, List.append_nil, apply, if_neg hruns]
    exact h

theorem delete (h : Justified s log) (g : ℤ) :
    Justified (apply collate u s (.delete g)) (log ++ (GroupOp.delete g).events collate u s) := by
  by_cases hmaster : s.role g u = some .master
  · rw [events, if_pos hmaster]
    have hexists : (s.allGroup.lookup g).isSome :=
      h.groups g u (.inl (Groups.member_iff.2 (by simp [hmaster])))
    obtain ⟨name, hname⟩ := Option.isSome_iff_exists.1 hexists
    have hmember : ∀ g' v, (apply collate u s (.delete g)).Member g' v → s.Member g' v ∧ g' ≠ g :=
      fun g' v hv => (member_delete.1 hv).imp_right fun hne heq => hne ⟨hmaster, heq⟩
    have hvec : ∀ g' v, v ∈ (apply collate u s (.delete g)).vec g' → v ∈ s.vec g' ∧ g' ≠ g := by
      intro g' v hv
      rw [vec_delete] at hv
      split at hv
      case isTrue => simp at hv
      case isFalse hne => exact ⟨hv, fun heq => hne ⟨hmaster, heq⟩⟩
    constructor
    · exact fun g' v hv => (admitted_concat_of_not rfl).2 (h.member g' v (hmember g' v hv).1)
    · exact fun g' v hv => (admitted_concat_of_not rfl).2 (h.vec g' v (hvec g' v hv).1)
    · intro g' v hv
      refine exists_delete.2 ⟨fun heq => ?_, ?_⟩
      · rcases hv with hv | hv
        · exact (hmember g' v hv).2 heq.2
        · exact (hvec g' v hv).2 heq.2
      · exact h.groups g' v (hv.imp (fun hm => (hmember g' v hm).1) fun hl => (hvec g' v hl).1)
    · intro g' hg'
      have hnext : (apply collate u s (.delete g)).allGroup.next = s.allGroup.next := by
        simp only [apply]
        split <;> rfl
      rw [hnext, ← Option.not_isSome_iff_eq_none, exists_delete]
      rcases List.mem_append.1 hg' with hg' | hg'
      · obtain ⟨hlookup, hlt⟩ := h.deleted g' hg'
        exact ⟨by simp [hlookup], hlt⟩
      · obtain rfl : g' = g := by simpa using hg'
        exact ⟨fun hg' => hg'.1 ⟨hmaster, rfl⟩, (AutoTable.bounds_of_lookup hname).2⟩
  · rw [events, if_neg hmaster, List.append_nil, apply, if_neg hmaster]
    exact h

theorem quit (h : Justified s log) (g : ℤ) :
    Justified (apply collate u s (.quit g)) (log ++ (GroupOp.quit g).events collate u s) := by
  by_cases hquits : s.role g u = some .manager ∨ s.role g u = some .normal
  · rw [events, if_pos hquits]
    refine h.leave (g := g) (v := u) (allGroup_apply nofun nofun) (fun g' v hv => ?_) (fun g' v hv => ?_)
      (fun g' v hne => ?_) (by simp)
    · exact (member_quit.1 hv).imp_right fun hne heq => hne ⟨hquits, heq⟩
    · rw [vec_quit] at hv
      split at hv
      case isTrue => exact (mem_removeAll.1 hv).imp_right fun hne heq => hne heq.2
      case isFalse hne => exact ⟨hv, fun heq => hne ⟨hquits, heq.1⟩⟩
    · exact decide_eq_false fun heq => hne ⟨(Prod.mk.inj heq).1.symm, (Prod.mk.inj heq).2.symm⟩
  · rw [events, if_neg hquits, List.append_nil, apply, if_neg hquits]
    exact h

theorem kick (h : Justified s log) (g v : ℤ) :
    Justified (apply collate u s (.kick g v)) (log ++ (GroupOp.kick g v).events collate u s) := by
  by_cases hkicks : s.Kicks g u v
  · rw [events, if_pos hkicks]
    refine h.leave (g := g) (v := v) (allGroup_apply nofun nofun) (fun g' v' hv => ?_) (fun g' v' hv => ?_)
      (fun g' v' hne => ?_) (by simp)
    · exact (member_kick.1 hv).imp_right fun hne heq => hne ⟨hkicks, heq⟩
    · rw [vec_kick] at hv
      split at hv
      case isTrue => exact (mem_removeAll.1 hv).imp_right fun hne heq => hne heq.2
      case isFalse hne => exact ⟨hv, fun heq => hne ⟨hkicks, heq.1⟩⟩
    · exact decide_eq_false fun heq => hne ⟨(Prod.mk.inj heq).1.symm, (Prod.mk.inj heq).2.symm⟩
  · rw [events, if_neg hkicks, List.append_nil, apply, if_neg hkicks]
    exact h

end Justified

end Apply

section Run

variable {env : Environment} {w₀ w : World} {log : List GroupEvent}

end Run

end Chatroom.Service
