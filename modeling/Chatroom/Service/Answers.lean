import Chatroom.Client.Requests
import Chatroom.Service.Messages

/-!
# Every request that is waited for is answered once

What is answered on a semaphore of the client is counted: a handler that is given a request with its format sends
exactly one message that posts the semaphore awaited for the request, to the connection the request came from, and no
other message that posts it, whatever the tables and the maps answer (`owes_getHandler`).
-/

namespace Chatroom.Service

open Lib Json Client Client.Process

section

variable (conn : Conn) (sem : Sem)

/-- How often a message posts the semaphore in the client on `conn`. -/
def told (d : Conn) (m : EnMsgType) : ℕ := if d = conn then due (Replies.posted m) sem else 0

/-- How often a command has the semaphore of the client on `conn` posted. -/
@[simp] def answers : Cmd → ℕ
  | .send d js => if d = conn then due (postedBy js) sem else 0
  | _ => 0

/-- How often a request has to. -/
def wanted (d : Conn) (m : EnMsgType) : ℕ := if d = conn then due (awaited m) sem else 0

def demand : Activity → ℕ
  | .request d msgid _ _ => if d = conn then due ((EnMsgType.ofCode msgid).bind awaited) sem else 0
  | _ => 0

/-- The command takes a connection from `MysqlPool`. `FileModel` and `HistoryModel` have their own. -/
def Cmd.pooled : Cmd → Bool
  | .insertUser _ _ _ | .queryUser _ | .queryUserByName _ | .queryUsers | .updateState _ _ | .resetState => true
  | .insertFriend _ _ _ | .modifyFriend _ _ _ | .deleteEach _ _ | .queryFriends _ | .friendRequesters _
  | .blockedFriends _ | .selectUser _ | .friendState _ _ => true
  | .createGroup _ | .addGroup _ _ _ | .modifyGroupRole _ _ _ | .queryAllGroup | .queryOwnGroup _ | .groupUsers _ _
  | .queryGroupRole _ _ | .deleteGroupMember _ _ | .deleteAllGroup _ | .deleteGroupUsers _ => true
  | _ => false

/-- What comes from the connection has the format of its id. -/
def WellAsked : Activity → Prop
  | .request d msgid js _ => d = conn → ∃ m : EnMsgType, msgid = m.code ∧ Conforms (requestFormat m) js
  | _ => True

end

section

variable {α : Type} {conn d : Conn} {sem : Sem} {fields : List (String × Json)} {n : ℕ}

theorem postedBy_obj {m : EnMsgType} (h : fields.lookup "msgid" = some (.msg m)) :
    postedBy (.obj fields) = Replies.posted m := by
  have hmsgid : (Json.obj fields).intField "msgid" = .ok m.code := by
    rw [intField, Json.field, h]
    exact getInt_msg m
  rw [postedBy, hmsgid]
  show (EnMsgType.ofCode m.code).bind Replies.posted = _
  rw [EnMsgType.ofCode_code, Option.bind_some]

/-! ## The functions that handlers are made of -/

/-- The automaton that counts the answers. -/
abbrev tally (conn : Conn) (sem : Sem) : Watch Ans Fault ℕ := Program.debt (answers conn sem)

theorem tally_send {m : EnMsgType} (h : fields.lookup "msgid" = some (.msg m)) {post : Unit → ℕ → Prop} :
    (send d fields).Watched (tally conn sem) n post ↔ told conn sem d m ≤ n ∧ post () (n - told conn sem d m) := by
  have htold : answers conn sem (.send d (.obj fields)) = told conn sem d m := by
    rw [answers, postedBy_obj h, told]
  rw [← htold]
  exact ⟨fun h => ⟨h.1, h.2 () trivial⟩, fun h => ⟨h.1, fun _ _ => h.2⟩⟩

@[simp] theorem tally_sendMsg {m : EnMsgType} {post : Unit → ℕ → Prop} :
    (sendMsg d m).Watched (tally conn sem) n post ↔ told conn sem d m ≤ n ∧ post () (n - told conn sem d m) :=
  tally_send rfl

theorem tally_read {x : Except Exn α} (hx : n = 0 ∨ ∃ a, x = .ok a) {post : α → ℕ → Prop} :
    (read x).Watched (tally conn sem) n post ↔ ∀ a, x = .ok a → post a n := by
  cases x with
  | ok a => exact ⟨fun h b hb => Except.ok.inj hb ▸ h, fun h => h a rfl⟩
  | error e =>
    obtain rfl : n = 0 := by simpa using hx
    refine ⟨fun _ a ha => ?_, fun _ => rfl⟩
    cases ha

@[simp] theorem tally_connUser {post : ℤ → ℕ → Prop} :
    (connUser d).Watched (tally conn sem) n post ↔ ∀ u, post u n := by
  simp [connUser]

@[simp] theorem tally_hasRole {roles : List Role} {userid groupid : ℤ} {post : Bool → ℕ → Prop} :
    (hasRole roles userid groupid).Watched (tally conn sem) n post ↔
      ∀ role : Option Role, post (roles.any fun r => role = some r) n := by
  simp [hasRole]

/-- A notice to a user posts no semaphore. -/
theorem tally_sendToUser {userid : ℤ} {m : EnMsgType} (h : fields.lookup "msgid" = some (.msg m))
    (hm : Replies.posted m = none) {post : Unit → ℕ → Prop} (hpost : post () n) :
    (sendToUser userid fields).Watched (tally conn sem) n post := by
  refine ⟨Nat.zero_le _, fun it _ => ?_⟩
  cases it with
  | none => exact hpost
  | some d =>
    have htold : told conn sem d m = 0 := by simp [told, hm, due]
    refine (tally_send h).2 ⟨?_, ?_⟩
    · rw [htold]
      exact Nat.zero_le _
    · rw [htold]
      exact hpost

theorem tally_forM {l : List α} {body : α → Task PUnit}
    (h : ∀ a ∈ l, (body a).Watched (tally conn sem) n fun _ m => m = n) {post : PUnit → ℕ → Prop} (hpost : post ⟨⟩ n) :
    (forM l body).Watched (tally conn sem) n post := by
  induction l with
  | nil => exact hpost
  | cons a l ih =>
    obtain ⟨ha, hl⟩ := List.forall_mem_cons.1 h
    rw [List.forM_cons, Program.watched_bind]
    refine ha.mono ?_
    rintro _ _ rfl
    exact ih hl

theorem tally_selectUsers {vec : List ℤ} {post : List (List User) → ℕ → Prop} (h : ∀ users, post users n) :
    (vec.mapM fun id => perform (.selectUser id)).Watched (tally conn sem) n post := by
  induction vec generalizing post with
  | nil => exact h []
  | cons id vec ih =>
    rw [List.mapM_cons, Program.watched_bind]
    refine ⟨Nat.zero_le _, fun users _ => ?_⟩
    rw [Program.watched_ret, Program.watched_bind]
    exact ih fun rest => h (users :: rest)

end

/-! ## The handlers of requests that are waited for -/

section Handlers

variable {conn d : Conn} {sem : Sem} {js : Json} {time : String}

/-- What the client on `conn` asks can be read. -/
theorem wanted_or_string {m : EnMsgType} (hjs : d = conn → Conforms (requestFormat m) js) (key : String)
    (ht : (requestFormat m).lookup key = some (.scalar .string)) :
    wanted conn sem d m = 0 ∨ ∃ s, js.stringField key = .ok s := by
  by_cases hd : d = conn
  · exact .inr ((hjs hd).string key ht)
  · exact .inl (if_neg hd)

theorem wanted_or_int {m : EnMsgType} (hjs : d = conn → Conforms (requestFormat m) js) (key : String)
    (ht : (requestFormat m).lookup key = some (.scalar .int)) :
    wanted conn sem d m = 0 ∨ ∃ n, js.intField key = .ok n := by
  by_cases hd : d = conn
  · obtain ⟨n, -, -, hn⟩ := (hjs hd).int key ht
    exact .inr ⟨n, hn⟩
  · exact .inl (if_neg hd)

theorem owes_reg (hjs : d = conn → Conforms (requestFormat .regMsg) js) :
    (reg d js time).Owes (answers conn sem) (wanted conn sem d .regMsg) := by
  rw [Program.Owes, reg, Program.watched_bind, tally_read (wanted_or_string hjs "name" rfl)]
  intro name _
  rw [Program.watched_bind, tally_read (wanted_or_string hjs "password" rfl)]
  intro pwd _
  refine ⟨Nat.zero_le _, fun id _ => ?_⟩
  cases id with
  | none => exact tally_sendMsg.2 ⟨le_rfl, Nat.sub_self _⟩
  | some id => exact (tally_send rfl).2 ⟨le_rfl, Nat.sub_self _⟩

theorem owes_login (hjs : d = conn → Conforms (requestFormat .loginMsg) js) :
    (login d js time).Owes (answers conn sem) (wanted conn sem d .loginMsg) := by
  rw [Program.Owes, login, Program.watched_bind, tally_read (wanted_or_string hjs "name" rfl)]
  intro name _
  rw [Program.watched_bind, tally_read (wanted_or_string hjs "password" rfl)]
  intro pwd _
  rw [Program.watched_bind, Program.watched_perform]
  refine ⟨Nat.zero_le _, fun user _ => ?_⟩
  rw [Program.watched_ite, Program.watched_ite]
  refine ⟨fun _ => ⟨fun _ => tally_sendMsg.2 ⟨le_rfl, Nat.sub_self _⟩, fun _ => ?_⟩,
    fun _ => (tally_send rfl).2 ⟨le_rfl, Nat.sub_self _⟩⟩
  -- the friends are told as well, and that is answered on nothing
  refine ⟨Nat.zero_le _, fun _ _ => ⟨Nat.zero_le _, fun _ _ => ⟨Nat.zero_le _, fun _ _ => ⟨Nat.zero_le _, fun _ _ => ?_⟩⟩⟩⟩
  refine (Program.watched_bind (p := send d _)).2 ((tally_send (m := .loginSuccess) rfl).2 ⟨le_rfl, ?_⟩)
  refine ⟨Nat.zero_le _, fun userVec _ => ?_⟩
  exact tally_forM (fun userTmp _ => tally_sendToUser rfl rfl rfl) (Nat.sub_self _)

/-- The one answer. -/
theorem owes_send {fields : List (String × Json)} {m m' : EnMsgType} (h : fields.lookup "msgid" = some (.msg m'))
    (hm : Replies.posted m' = awaited m) : (send d fields).Owes (answers conn sem) (wanted conn sem d m) := by
  refine (tally_send h).2 ?_
  rw [told, hm]
  exact ⟨le_rfl, Nat.sub_self _⟩

theorem owes_handleDisplayAllUserList : (handleDisplayAllUserList d js time).Owes (answers conn sem)
    (wanted conn sem d .displayAlluserList) :=
  ⟨Nat.zero_le _, fun _ _ => ⟨Nat.zero_le _, fun _ _ => owes_send rfl rfl⟩⟩

theorem owes_handleDisplayFriendList : (handleDisplayFriendList d js time).Owes (answers conn sem)
    (wanted conn sem d .displayFriendList) :=
  ⟨Nat.zero_le _, fun _ _ => ⟨Nat.zero_le _, fun _ _ => owes_send rfl rfl⟩⟩

theorem owes_handleFriendRequestList : (handleFriendRequestList d js time).Owes (answers conn sem)
    (wanted conn sem d .friendRequestList) := by
  simp only [Program.Owes, handleFriendRequestList, requestQuery, Program.watched_bind, tally_connUser]
  exact fun id => ⟨Nat.zero_le _, fun vec _ => tally_selectUsers fun users => owes_send rfl rfl⟩

theorem owes_handleBlockFriendList : (handleBlockFriendList d js time).Owes (answers conn sem)
    (wanted conn sem d .blockFriendList) := by
  simp only [Program.Owes, handleBlockFriendList, blockQuery, Program.watched_bind, tally_connUser]
  exact fun id => ⟨Nat.zero_le _, fun vec _ => tally_selectUsers fun users => owes_send rfl rfl⟩

theorem owes_handleDisplayAllGroupList : (handleDisplayAllGroupList d js time).Owes (answers conn sem)
    (wanted conn sem d .displayAllgroupList) :=
  ⟨Nat.zero_le _, fun _ _ => owes_send rfl rfl⟩

theorem owes_handleShowOwnGroupList : (handleShowOwnGroupList d js time).Owes (answers conn sem)
    (wanted conn sem d .displayOwnGroupList) :=
  ⟨Nat.zero_le _, fun _ _ => ⟨Nat.zero_le _, fun _ _ => owes_send rfl rfl⟩⟩

theorem owes_handleDisplayFileList : (handleDisplayFileList d js time).Owes (answers conn sem)
    (wanted conn sem d .viewFile) :=
  ⟨Nat.zero_le _, fun _ _ => ⟨Nat.zero_le _, fun _ _ => owes_send rfl rfl⟩⟩

/-- A list of a group that only some may have. -/
theorem owes_ifAllowed {m m' : EnMsgType} (hfail : Replies.posted m' = awaited m) {allowed : Bool} {p : Task Unit}
    (hp : p.Owes (answers conn sem) (wanted conn sem d m)) :
    (if allowed = false then sendMsg d m' else p).Owes (answers conn sem) (wanted conn sem d m) :=
  Program.watched_ite.2 ⟨fun _ => owes_send rfl hfail, fun _ => hp⟩

theorem owes_handleGroupRequestList (hjs : d = conn → Conforms (requestFormat .groupRequestList) js) :
    (handleGroupRequestList d js time).Owes (answers conn sem) (wanted conn sem d .groupRequestList) := by
  rw [Program.Owes, handleGroupRequestList, Program.watched_bind, tally_read (wanted_or_int hjs "groupid" rfl)]
  intro groupid _
  rw [Program.watched_bind, tally_connUser]
  intro userid
  rw [Program.watched_bind, ifMasterOrManager, tally_hasRole]
  exact fun role => owes_ifAllowed rfl ⟨Nat.zero_le _, fun _ _ => owes_send rfl rfl⟩

theorem owes_handleDisplaySetManagerMemberList
    (hjs : d = conn → Conforms (requestFormat .displayGroupSetManagerMemberList) js) :
    (handleDisplaySetManagerMemberList d js time).Owes (answers conn sem)
      (wanted conn sem d .displayGroupSetManagerMemberList) := by
  rw [Program.Owes, handleDisplaySetManagerMemberList, Program.watched_bind,
    tally_read (wanted_or_int hjs "groupid" rfl)]
  intro groupid _
  rw [Program.watched_bind, tally_connUser]
  intro userid
  rw [Program.watched_bind, ifMaster, tally_hasRole]
  exact fun role => owes_ifAllowed rfl ⟨Nat.zero_le _, fun _ _ => owes_send rfl rfl⟩

theorem owes_handleCheckIfGroupMember (hjs : d = conn → Conforms (requestFormat .checkGroupMember) js) :
    (handleCheckIfGroupMember d js time).Owes (answers conn sem) (wanted conn sem d .checkGroupMember) := by
  rw [Program.Owes, handleCheckIfGroupMember, Program.watched_bind, tally_read (wanted_or_int hjs "groupid" rfl)]
  exact fun groupid _ => ⟨Nat.zero_le _, fun _ _ => ⟨Nat.zero_le _, fun _ _ => owes_send rfl rfl⟩⟩

/-! ## The others -/

/-- What a request that is not waited for leads to posts nothing that is waited for. -/
theorem untracked_of_messages {m : EnMsgType} (hm : awaited m = none) :
    ∀ m' ∈ messages m, ∀ sem ∈ Replies.posted m', sem.tracked = false := by
  revert hm
  cases m <;> decide

/-- A program that sends nothing to be waited for. -/
theorem owes_of_speaks {ms : List EnMsgType} {p : Task Unit} (h : Speaks ms p)
    (hms : ∀ m ∈ ms, ∀ sem ∈ Replies.posted m, sem.tracked = false) (htracked : sem.tracked = true) :
    p.Owes (answers conn sem) 0 := by
  refine Program.owes_zero_of_safe (Program.Safe.mono h (fun c hc => ?_) (fun _ _ => id) fun _ => id)
  cases c with
  | send d js =>
    cases js with
    | obj fields =>
      obtain ⟨v, hv, m, hm, rfl⟩ := hc
      have hne : Replies.posted m ≠ some sem := by
        intro hposted
        have huntracked := hms m hm sem hposted
        rw [htracked] at huntracked
        cases huntracked
      simp only [answers, postedBy_obj hv, due, hne, if_false, ite_self]
    | _ => cases hc
  | _ => rfl

/-- **A request is answered once**, on the connection it came from. -/
theorem owes_of_mem {m : EnMsgType} {h : Handler} (hmem : (m, h) ∈ handlersMap) (htracked : sem.tracked = true)
    (hjs : d = conn → Conforms (requestFormat m) js) :
    (h d js time).Owes (answers conn sem) (wanted conn sem d m) := by
  by_cases hm : awaited m = none
  · have hzero : wanted conn sem d m = 0 := by simp [wanted, hm, due]
    rw [hzero]
    exact owes_of_speaks (speaks_of_mem d js time hmem) (untracked_of_messages hm) htracked
  · simp only [handlersMap, List.mem_cons, List.not_mem_nil, or_false, Prod.mk.injEq] at hmem
    rcases hmem with ⟨rfl, rfl⟩ | ⟨rfl, rfl⟩ | ⟨rfl, rfl⟩ | ⟨rfl, rfl⟩ | ⟨rfl, rfl⟩ | ⟨rfl, rfl⟩ | ⟨rfl, rfl⟩ |
      ⟨rfl, rfl⟩ | ⟨rfl, rfl⟩ | ⟨rfl, rfl⟩ | ⟨rfl, rfl⟩ | ⟨rfl, rfl⟩ | ⟨rfl, rfl⟩ | ⟨rfl, rfl⟩ | ⟨rfl, rfl⟩ |
      ⟨rfl, rfl⟩ | ⟨rfl, rfl⟩ | ⟨rfl, rfl⟩ | ⟨rfl, rfl⟩ | ⟨rfl, rfl⟩ | ⟨rfl, rfl⟩ | ⟨rfl, rfl⟩ | ⟨rfl, rfl⟩ |
      ⟨rfl, rfl⟩ | ⟨rfl, rfl⟩ | ⟨rfl, rfl⟩ | ⟨rfl, rfl⟩ | ⟨rfl, rfl⟩ | ⟨rfl, rfl⟩ | ⟨rfl, rfl⟩ | ⟨rfl, rfl⟩ |
      ⟨rfl, rfl⟩ <;> first | exact absurd rfl hm | skip
    · exact owes_reg hjs
    · exact owes_login hjs
    · exact owes_handleDisplayAllUserList
    · exact owes_handleDisplayFriendList
    · exact owes_handleFriendRequestList
    · exact owes_handleBlockFriendList
    · exact owes_handleDisplayAllGroupList
    · exact owes_handleGroupRequestList hjs
    · exact owes_handleShowOwnGroupList
    · exact owes_handleDisplaySetManagerMemberList hjs
    · exact owes_handleCheckIfGroupMember hjs
    · exact owes_handleDisplayFileList

theorem exists_handler {m : EnMsgType} (hm : awaited m ≠ none) :
    ∃ h, handlersMap.find? (fun h => h.1.code = m.code) = some (m, h) := by
  cases m <;> first | exact absurd rfl hm | exact ⟨_, rfl⟩

theorem owes_getHandler {m : EnMsgType} (htracked : sem.tracked = true)
    (hjs : d = conn → Conforms (requestFormat m) js) :
    (getHandler m.code d js time).Owes (answers conn sem) (wanted conn sem d m) := by
  unfold getHandler
  cases hfind : handlersMap.find? fun h => h.1.code = m.code with
  | none =>
    have hm : awaited m = none := by
      by_contra hne
      obtain ⟨h, hh⟩ := exists_handler hne
      rw [hfind] at hh
      cases hh
    show wanted conn sem d m = 0
    simp [wanted, hm, due]
  | some h =>
    have hcode : h.1.code = m.code := by simpa using List.find?_some hfind
    obtain rfl : h.1 = m := EnMsgType.code_injective hcode
    exact owes_of_mem (List.mem_of_find?_eq_some hfind) htracked hjs

end Handlers

/-! ## The activities of the server -/

/-- **Every activity answers what it was asked**, once. -/
theorem Activity.owes_body {conn : Conn} {sem : Sem} (htracked : sem.tracked = true) {a : Activity}
    (ha : WellAsked conn a) : a.body.Owes (answers conn sem) (demand conn sem a) := by
  cases a with
  | request d msgid js time =>
    cases hcode : EnMsgType.ofCode msgid with
    | some m =>
      obtain rfl := EnMsgType.code_of_ofCode hcode
      have hdemand : demand conn sem (.request d m.code js time) = wanted conn sem d m := by
        rw [demand, EnMsgType.ofCode_code, wanted, Option.bind_some]
      rw [hdemand]
      refine owes_getHandler htracked fun hd => ?_
      obtain ⟨m', hm', hjs⟩ := ha hd
      rwa [EnMsgType.code_injective hm']
    | none =>
      have hfind : (handlersMap.find? fun h => h.1.code = msgid) = none := by
        refine List.find?_eq_none.2 fun h _ hh => ?_
        rw [← of_decide_eq_true hh, EnMsgType.ofCode_code] at hcode
        cases hcode
      have hzero : demand conn sem (.request d msgid js time) = 0 := by
        rw [demand, hcode, Option.bind_none, due_none, ite_self]
      rw [hzero, body, getHandler, hfind]
      rfl
  | _ => exact owes_of_speaks (Activity.speaks_body _) (by simp [messages, Replies.posted]) htracked

/-- **What the server owes** after a step and what the step answers is what it owed, and what is asked. -/
theorem owes_step {env : Environment} {conn : Conn} {sem : Sem} (htracked : sem.tracked = true) {s t : Threads}
    {a : Pool.Action Activity} (hst : (server env).step s a = some t)
    (hasks : ∀ task ∈ a.task, WellAsked conn task) {n : ℕ} (h : s.Owes (answers conn sem) (demand conn sem) (WellAsked conn) n) :
    ∃ m, t.Owes (answers conn sem) (demand conn sem) (WellAsked conn) m ∧
      m + ((s.performed a).map (answers conn sem)).sum = n + (a.task.map (demand conn sem)).sum := by
  have hbody : ∀ task, WellAsked conn task → (Activity.body task).Owes (answers conn sem) (demand conn sem task) :=
    fun _ => Activity.owes_body htracked
  exact Pool.owes_step hbody hst hasks h

end Chatroom.Service
