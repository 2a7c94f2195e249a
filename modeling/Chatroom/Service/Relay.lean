import Chatroom.Service.Attribution
import Chatroom.Service.GroupList

/-!
# What the relay of chat messages depends on

The server relays what it is given: a private message to the connection of the user it names, a group message to the
list of the group, and it stores both, without a look at the tables of friends and groups (`relays_of_run`). The tables
are asked by CHECK_BLOCK and CHECK_GROUP_MEMBER, which are requests of their own; a message that comes without them, or
after the relation has changed, is relayed all the same (`blocked_and_relayed`).
-/

namespace Chatroom.Service

open Lib History

/-! ## The answers in one state -/

def privateMessage (fromName msg time : String) : Json :=
  .obj [("from_name", .str fromName), ("msg", .str msg), ("msgid", .msg .privateChat), ("time", .str time)]

def blockAnswer (state1 state2 : Option FriendState) : Json :=
  .obj [("msgid", .msg .checkBlock), ("state1", stateText state1), ("state2", stateText state2)]

def memberAnswer (role : Option Role) : Json :=
  .obj [("msgid", .msg .checkIfGroupMember), ("state", .bool (¬ (role = none ∨ role = some .request)))]

/-- The fields that `handlePrivateChat` reads: the message, the name of the sender, and the user it is for. -/
def readPrivateChat (js : Json) : Option (String × String × ℤ) := do
  let msg ← (js.stringField "msg").toOption
  let fromName ← (js.stringField "from_name").toOption
  let toId ← (js.intField "id").toOption
  return (msg, fromName, toId)

/-- `chat` with one record more. -/
def World.withRecord (w : World) (chat : Chat) (record : ChatRecord) : Chat → List ChatRecord :=
  Function.update w.redis chat (w.redis chat ++ [record])

/-- What the chat requests and the two checks do in a state, on a connection. -/
structure Relays (env : Environment) (w : World) (conn : Conn) : Prop where
  /-- A private message is sent to the user it names, and stored. -/
  privateChat : ∀ js time msg fromName toId, readPrivateChat js = some (msg, fromName, toId) →
    let w' := serve env (.request conn EnMsgType.privateChat.code js time) w
    w'.sent = w.sent ++ deliveries w [toId] (privateMessage fromName msg time) ∧
      w'.redis = w.withRecord .privateChat ⟨w.userOf conn, toId, msg, env.clock w.clockReadings⟩
  /-- A group message is sent to the list of the group, and stored. -/
  groupChat : ∀ js time g msg fromName, js.intField "groupid" = .ok g → js.stringField "msg" = .ok msg →
    js.stringField "from_name" = .ok fromName →
    let w' := serve env (.request conn EnMsgType.groupChat.code js time) w
    w'.sent = w.sent ++ deliveries w (chatRecipients w conn g) (chatMessage g fromName msg time) ∧
      w'.redis = w.withRecord .groupChat ⟨g, w.userOf conn, msg, env.clock w.clockReadings⟩
  /-- Without one of the fields, neither is sent or stored. -/
  malformed : ∀ msgid js time, (msgid = EnMsgType.privateChat ∧ readPrivateChat js = none) ∨
      (msgid = .groupChat ∧ GroupOp.read .groupChat js = none) →
    let w' := serve env (.request conn msgid.code js time) w
    w'.sent = w.sent ∧ w'.redis = w.redis
  /-- The answer to CHECK_BLOCK, with a copy for the peer, is what the table of friends says. -/
  checkBlock : ∀ js time checkId, js.intField "check_id" = .ok checkId →
    let answer := blockAnswer (w.db.friendState (w.userOf conn) checkId) (w.db.friendState checkId (w.userOf conn))
    (serve env (.request conn EnMsgType.checkBlock.code js time) w).sent =
      w.sent ++ (conn, answer) :: deliveries w [checkId] answer
  /-- The answer to CHECK_GROUP_MEMBER is what the table of roles says. -/
  checkGroupMember : ∀ js time g, js.intField "groupid" = .ok g →
    (serve env (.request conn EnMsgType.checkGroupMember.code js time) w).sent =
      w.sent ++ [(conn, memberAnswer (w.db.queryGroupRole (w.userOf conn) g))]

section State

variable (env : Environment) (w : World) (conn : Conn)

theorem run_handlePrivateChat {js : Json} {msg fromName : String} {toId : ℤ}
    (hread : readPrivateChat js = some (msg, fromName, toId)) (time : String) :
    ((handlePrivateChat conn js time).run (exec env) w).2.sent =
        w.sent ++ deliveries w [toId] (privateMessage fromName msg time) ∧
      ((handlePrivateChat conn js time).run (exec env) w).2.redis =
        w.withRecord .privateChat ⟨w.userOf conn, toId, msg, env.clock w.clockReadings⟩ := by
  obtain ⟨hmsg, hname, hid⟩ : js.stringField "msg" = .ok msg ∧ js.stringField "from_name" = .ok fromName ∧
      js.intField "id" = .ok toId := by
    unfold readPrivateChat at hread
    cases hmsg : js.stringField "msg" <;> cases hname : js.stringField "from_name" <;>
      cases hid : js.intField "id" <;> simp_all [Except.toOption]
  have hrun : (handlePrivateChat conn js time).run (exec env) w = (.ok (), { w.ask conn with
      clockReadings := w.clockReadings + 1
      redis := w.withRecord .privateChat ⟨w.userOf conn, toId, msg, env.clock w.clockReadings⟩
      sent := w.sent ++ deliveries w [toId] (privateMessage fromName msg time) }) := by
    unfold handlePrivateChat
    simp only [Program.run_bind, run_read_ok, run_ask, Program.run_perform, exec, hmsg, hname, hid, run_sendToUser]
    cases huser : w.userConnMap toId <;>
      simp [World.ask, huser, deliveries, privateMessage, World.withRecord]
  rw [hrun]
  exact ⟨rfl, rfl⟩

/-- The loop over the list stores nothing. -/
theorem redis_chatLoop (userVec : List ℤ) (fields : List (String × Json)) :
    ((forM userVec fun userid => (do
      let self ← connUser conn
      if userid = self then return
      else sendToUser userid fields : Task Unit)).run (exec env) w).2.redis = w.redis := by
  refine Program.run_forM (I := fun w' => w'.redis = w.redis) (exec env) ?_ rfl
  intro userid _ w' hw'
  rw [Program.run_bind, run_ask]
  by_cases hself : userid = w'.userOf conn
  · simp only [hself, if_true]
    exact hw'
  · simp only [hself, if_false, run_sendToUser]
    exact hw'

theorem redis_handleGroupChat {js : Json} {g : ℤ} {msg fromName : String} (hgroup : js.intField "groupid" = .ok g)
    (hmsg : js.stringField "msg" = .ok msg) (hname : js.stringField "from_name" = .ok fromName) (time : String) :
    ((handleGroupChat conn js time).run (exec env) w).2.redis =
      w.withRecord .groupChat ⟨g, w.userOf conn, msg, env.clock w.clockReadings⟩ := by
  unfold handleGroupChat
  simp only [Program.run_bind, run_read_ok, run_ask, Program.run_perform, exec, hgroup, hmsg, hname]
  exact redis_chatLoop _ _ _ _ _

theorem malformed_handleGroupChat {js : Json} (hread : GroupOp.read .groupChat js = none) (time : String) :
    ((handleGroupChat conn js time).run (exec env) w).2.redis = w.redis := by
  unfold handleGroupChat
  cases hgroup : js.intField "groupid" with
  | error e => rfl
  | ok g =>
    cases hmsg : js.stringField "msg" with
    | error e => rfl
    | ok msg =>
      cases hname : js.stringField "from_name" with
      | error e => rfl
      | ok fromName => simp [GroupOp.read, hgroup, hmsg, hname, Except.toOption] at hread

theorem malformed_handlePrivateChat {js : Json} (hread : readPrivateChat js = none) (time : String) :
    ((handlePrivateChat conn js time).run (exec env) w).2 = w := by
  unfold handlePrivateChat
  cases hmsg : js.stringField "msg" with
  | error e => rfl
  | ok msg =>
    cases hname : js.stringField "from_name" with
    | error e => rfl
    | ok fromName =>
      cases hid : js.intField "id" with
      | error e => rfl
      | ok toId => simp [readPrivateChat, hmsg, hname, hid, Except.toOption] at hread

theorem relays : Relays env w conn where
  privateChat js time msg fromName toId hread := run_handlePrivateChat env w conn hread time
  groupChat js time g msg fromName hgroup hmsg hname :=
    ⟨sent_handleGroupChat hgroup hmsg hname time, redis_handleGroupChat env w conn hgroup hmsg hname time⟩
  malformed msgid js time h := by
    rcases h with ⟨rfl, hread⟩ | ⟨rfl, hread⟩
    · have hrun := malformed_handlePrivateChat env w conn hread time
      exact ⟨congrArg World.sent hrun, congrArg World.redis hrun⟩
    · exact ⟨sent_handleGroupChat_none hread time, malformed_handleGroupChat env w conn hread time⟩
  checkBlock js time checkId hread := by
    show ((handleCheckBlock conn js time).run (exec env) w).2.sent = _
    unfold handleCheckBlock
    simp only [Program.run_bind, run_read_ok, run_ask, Program.run_perform, exec, hread, run_send, run_sendToUser]
    cases huser : w.userConnMap checkId <;> simp [World.ask, huser, deliveries, blockAnswer]
  checkGroupMember js time g hread := by
    show ((handleCheckIfGroupMember conn js time).run (exec env) w).2.sent = _
    unfold handleCheckIfGroupMember
    simp only [Program.run_bind, run_read_ok, run_ask, Program.run_perform, exec, hread, run_send]
    rfl

end State

/-! ## Every run -/

/-- The commands that ask the tables of friends or of group members. -/
def Cmd.asksRelations : Cmd → Bool
  | .queryFriends _ | .friendRequesters _ | .blockedFriends _ | .friendState _ _ => true
  | .queryOwnGroup _ | .groupUsers _ _ | .queryGroupRole _ _ => true
  | _ => false

def Activity.isChat : Activity → Bool
  | .request _ msgid _ _ => msgid = EnMsgType.privateChat.code ∨ msgid = EnMsgType.groupChat.code
  | _ => false

theorem safe_handlePrivateChat (conn : Conn) (js : Json) (time : String) :
    (handlePrivateChat conn js time).Safe (fun c => c.asksRelations = false) (fun _ _ => True) fun _ => True := by
  simp only [handlePrivateChat, connUser, Program.safe_bind, Program.safe_perform, safe_read]
  intro msg _ fromName _ toId _
  exact ⟨rfl, fun _ _ => ⟨rfl, fun _ _ => ⟨rfl, fun _ _ => safe_sendToUser_of rfl (fun _ => rfl) trivial⟩⟩⟩

theorem safe_handleGroupChat (conn : Conn) (js : Json) (time : String) :
    (handleGroupChat conn js time).Safe (fun c => c.asksRelations = false) (fun _ _ => True) fun _ => True := by
  refine safe_handleGroupChat_of (fun c hc => ?_) conn js time
  cases hc <;> rfl

/-- No chat request asks for a relation. -/
theorem Activity.safe_isChat (a : Activity) :
    a.body.Safe (fun c => a.isChat → c.asksRelations = false) (fun _ _ => True) fun _ => True := by
  by_cases hchat : a.isChat
  · cases a with
    | request conn msgid js time =>
      rcases of_decide_eq_true hchat with rfl | rfl
      · exact (safe_handlePrivateChat conn js time).mono (fun _ hc _ => hc) (fun _ _ _ => trivial) fun _ _ => trivial
      · exact (safe_handleGroupChat conn js time).mono (fun _ hc _ => hc) (fun _ _ _ => trivial) fun _ _ => trivial
    | _ => cases hchat
  · exact a.body.safe_true.mono (fun _ _ h => absurd h hchat) (fun _ _ _ => trivial) fun _ _ => trivial

/-- **The relay does not depend on the relations**: in every state that the server reaches, with any number of workers,
no chat request that is under way asks for one, and one that is handled there is relayed and stored whatever they
are. -/
theorem relays_of_run {env : Environment} {w₀ : World} {n : ℕ} {l : List (Pool.Action Activity)} {s : Threads}
    (h : (server env).Run (fun _ _ => True) (Pool.start n w₀) l s) :
    (∀ th ∈ s.threads, th.task.isChat → ∀ c next, th.rest = .call c next → c.asksRelations = false) ∧
      ∀ conn, Relays env s.shared conn := by
  refine ⟨fun th hth hchat c next hrest => ?_, relays env s.shared⟩
  have hsafe := Pool.safe_of_run Activity.body (exec env) Activity.safe_isChat h th hth
  rw [hrest] at hsafe
  exact hsafe.1 hchat

/-- Bob's message to ann is about to be cached. -/
theorem relays_of_run_bob : ∃ s,
    (server .still).exec (Pool.start 1 (boot .still (World.init annAndBob))) bobWrites = some s ∧
      (∀ th ∈ s.threads, th.task.isChat → ∀ c next, th.rest = .call c next → c.asksRelations = false) ∧
      Relays .still s.shared 1 := by
  obtain ⟨s, -, -, hs, -⟩ := bob_writes
  obtain ⟨hthreads, hrelays⟩ := relays_of_run (Machine.run_of_exec hs)
  exact ⟨s, hs, hthreads, hrelays 1⟩

/-- Ann and bob log in on the connections 1 and 2 and become friends. Bob blocks ann, and ann writes to him; ann creates
a group, and bob, who is not in it, writes to it. -/
def bobBlocksAnn : List (Pool.Action Activity) :=
  handled 1 .loginMsg [("name", .str "ann"), ("password", .str "a")] 8 ++
    handled 2 .loginMsg [("name", .str "bob"), ("password", .str "b")] 8 ++
    handled 1 .addFriend [("add_name", .str "bob")] 10 ++ handled 2 .addFriend [("add_name", .str "ann")] 13 ++
    handled 2 .blockFriend [("block_id", .num 3)] 5 ++ handled 1 .createGroup [("groupname", .str "g")] 6

def annWrites : List (Pool.Action Activity) :=
  handled 1 .privateChat [("from_name", .str "ann"), ("id", .num 4), ("msg", .str "hi")] 6

def bobWritesToGroup : List (Pool.Action Activity) :=
  handled 2 .groupChat [("from_name", .str "bob"), ("groupid", .num 3), ("msg", .str "hi")] 8

theorem blocked_and_relayed : ∃ s t,
    (server .still).exec (Pool.start 1 (boot .still (World.init annAndBob))) bobBlocksAnn = some s ∧
      (server .still).exec s (annWrites ++ bobWritesToGroup) = some t ∧
      s.shared.db.friendState 4 3 = some .block ∧ s.shared.db.queryGroupRole 4 3 = none ∧
      t.shared.sent = s.shared.sent ++ [(2, privateMessage "ann" "hi" ""), (1, chatMessage 3 "bob" "hi" "")] ∧
      (t.shared.redis .privateChat).map (fun r => (r.id₁, r.id₂)) = [(3, 4)] ∧
      (t.shared.redis .groupChat).map (fun r => (r.id₁, r.id₂)) = [(3, 4)] := by
  exact ⟨_, _, rfl, rfl, rfl, rfl, rfl, rfl, rfl⟩

end Chatroom.Service
