import Chatroom.Client.Process
import Chatroom.Codec.Format
import Chatroom.Lib.Watch

/-!
# What the menu asks for, and what it waits for

An automaton watches the user's thread: every request has the format of its id, and between a request that is answered
on a semaphore of its own and the wait for that semaphore nothing else is done. Every round keeps to it, whatever the
user enters (`disciplined_round`), and with it every request of a client has its format (`formatted_step`).
-/

namespace Chatroom.Client

open Lib Json

/-- The semaphores on which every post answers one request: for CHECK_BLOCK a message can come unasked, and for
RECEIVE_FILE none may come. -/
def Sem.tracked : Sem → Bool
  | .checkIfBlock | .receiveFile => false
  | _ => true

/-- The semaphore on which a request is answered. -/
def awaited : EnMsgType → Option Sem
  | .regMsg => some .reg
  | .loginMsg => some .login
  | .displayAlluserList => some .showAllUserList
  | .friendRequestList => some .showRequestList
  | .displayFriendList => some .showFriendList
  | .blockFriendList => some .showBlockList
  | .displayAllgroupList => some .showAllGroupList
  | .displayOwnGroupList => some .showOwnGroupList
  | .groupRequestList => some .addSomeoneToGroup
  | .displayGroupSetManagerMemberList => some .setManager
  | .checkGroupMember => some .checkGroupMember
  | .viewFile => some .showFileList
  | _ => none

/-- A request that the server can read. -/
def Request.Formatted (r : Request) : Prop := Conforms (requestFormat r.msgid) r.js

@[simp] def Cmd.allowed : Cmd → Option Sem → Prop
  | .send r, s => s = none ∧ r.Formatted
  | .semWait sem, s => s = if sem.tracked then some sem else none
  | .setPrivateChatId id, s => s = none ∧ IsInt id
  | _, s => s = none

@[simp] def Cmd.next : Cmd → Option Sem → Option Sem
  | .send r, _ => awaited r.msgid
  | .semWait _, _ => none
  | _, s => s

@[simp] def Cmd.answers : (c : Cmd) → Ans c → Prop
  | .currentId, id => IsInt id
  | .fstat, size => ∀ n ∈ size, n < 2 ^ 63
  | _, _ => True

/-- The automaton: its state is the semaphore on which an answer is still to be waited for. -/
def discipline : Watch Ans Exit (Option Sem) := ⟨Cmd.allowed, Cmd.next, Cmd.answers, fun _ s => s = none⟩

@[simp] theorem discipline_allowed (c : Cmd) (s : Option Sem) : discipline.allowed c s = c.allowed s := rfl

@[simp] theorem discipline_next (c : Cmd) (s : Option Sem) : discipline.next c s = c.next s := rfl

@[simp] theorem discipline_answers (c : Cmd) (a : Ans c) : discipline.answers c a = c.answers a := rfl

@[simp] theorem discipline_thrown (e : Exit) (s : Option Sem) : discipline.thrown e s = (s = none) := rfl

@[simp] theorem formatted_obj {m : EnMsgType} {fields : List (String × Json)} :
    Request.Formatted ⟨m, .obj fields⟩ ↔ HaveTypes FieldType.Holds (requestFormat m) fields := conforms_obj

/-- The ids that a head keeps. -/
def Head.Ok : Head → Prop
  | .privateChat idToChat _ => IsInt idToChat
  | .groupChat groupid _ => IsInt groupid
  | _ => True

theorem isInt_toInt (n : Int32) : IsInt n.toInt := ⟨n.le_toInt, n.toInt_lt⟩

/-! ## The functions of the menu -/

namespace Menu

/-- What a function of the menu does fits where nothing is waited for, and so it ends. -/
def Disciplined {α : Type} (p : Menu α) (post : α → Prop) : Prop :=
  p.Watched discipline none fun a s => s = none ∧ post a

section

variable {α β : Type} {P : α → Prop} {Q : β → Prop}

theorem Disciplined.bind {p : Menu α} {f : α → Menu β} (h : Disciplined p P) (hf : ∀ a, P a → Disciplined (f a) Q) :
    Disciplined (p >>= f) Q := by
  rw [Disciplined, Program.watched_bind]
  refine Program.Watched.mono h ?_
  rintro a s ⟨rfl, ha⟩
  exact hf a ha

theorem Disciplined.seq {p : Menu α} {f : Menu β} (h : Disciplined p P) (hf : Disciplined f Q) :
    Disciplined (p *> f) Q :=
  h.bind fun _ _ => hf

/-- A request that is answered on a semaphore, and the wait for it. -/
theorem disciplined_ask {m : EnMsgType} {fields : List (String × Json)} {sem : Sem}
    (hfields : HaveTypes FieldType.Holds (requestFormat m) fields)
    (hsem : awaited m = if sem.tracked then some sem else none) {f : Unit → Menu β} (hf : Disciplined (f ()) Q) :
    Disciplined (send m fields >>= fun _ => semWait sem >>= f) Q :=
  ⟨⟨rfl, formatted_obj.2 hfields⟩, fun _ _ => ⟨hsem, fun _ _ => hf⟩⟩

/-- A request that is not waited for. -/
theorem disciplined_send {m : EnMsgType} {fields : List (String × Json)}
    (hfields : HaveTypes FieldType.Holds (requestFormat m) fields) (hm : awaited m = none) :
    Disciplined (send m fields) fun _ => True :=
  ⟨⟨rfl, formatted_obj.2 hfields⟩, fun _ _ => ⟨hm, trivial⟩⟩

theorem disciplined_stoi (str : String) : Disciplined (stoi str) fun _ => True := by
  simp [Disciplined, stoi]

theorem disciplined_readNumber : Disciplined readNumber fun _ => True := by
  simp [Disciplined, readNumber]

end

theorem disciplined_reg (passwordToSha256 : String → String) : Disciplined (reg passwordToSha256) fun _ => True := by
  have hsem : awaited .regMsg = some .reg := rfl
  have htracked : Sem.reg.tracked = true := rfl
  simp [Disciplined, reg, send, semWait, requestFormat, hsem, htracked]

theorem disciplined_login (passwordToSha256 : String → String) : Disciplined (login passwordToSha256) fun _ => True := by
  have hsem : awaited .loginMsg = some .login := rfl
  have htracked : Sem.login.tracked = true := rfl
  simp [Disciplined, login, send, semWait, requestFormat, hsem, htracked]

theorem disciplined_addByName : Disciplined addByName fun _ => True := by
  simp [Disciplined, addByName, send, requestFormat, show awaited .addFriend = none from rfl]

theorem disciplined_addFriend : Disciplined addFriend fun _ => True :=
  disciplined_ask (by simp [requestFormat, bare]) rfl disciplined_addByName

theorem disciplined_addFriendRequest : Disciplined addFriendRequest fun _ => True :=
  disciplined_ask (by simp [requestFormat, bare]) rfl disciplined_addByName

/-- The list of friends is asked for and waited for. -/
theorem disciplined_friendList {β : Type} {f : Unit → Menu β} {Q : β → Prop} (hf : Disciplined (f ()) Q) :
    Disciplined (tellServerWantToLookFriendList >>= fun _ => semWait .showFriendList >>= f) Q :=
  disciplined_ask (by simp [requestFormat, bare]) rfl hf

theorem disciplined_onFriend {m : EnMsgType} {key : String}
    (hformat : requestFormat m = [(key, .scalar .int), ("msgid", .scalar (.msg m))]) (hm : awaited m = none) :
    Disciplined (onFriend m key) fun _ => True := by
  refine disciplined_friendList ?_
  simp [Disciplined, send, hformat, hm, isInt_toInt]

theorem disciplined_unblockFriend : Disciplined unblockFriend fun _ => True := by
  refine disciplined_ask (by simp [requestFormat, bare]) rfl ?_
  simp [Disciplined, send, requestFormat, show awaited .unblockFriend = none from rfl, isInt_toInt]

theorem disciplined_privateChat : Disciplined privateChat Head.Ok := by
  refine disciplined_friendList ?_
  have hsem : awaited .checkBlock = none := rfl
  have htracked : Sem.checkIfBlock.tracked = false := rfl
  simp [Disciplined, checkIfBlock, checkBlock, semWait, requestFormat, hsem, htracked, isInt_toInt, Head.Ok]

theorem disciplined_privateChatLoop {idToChat : ℤ} (h : IsInt idToChat) (display : Bool) :
    Disciplined (privateChatLoop idToChat display) Head.Ok := by
  have hhistory : awaited .privateChatHistory = none := rfl
  have hchat : awaited .privateChat = none := rfl
  cases display <;>
    simp [Disciplined, privateChatLoop, tellServerWantToLookPrivateChatHistory, send, requestFormat, hhistory, hchat,
      Head.Ok, h]

theorem disciplined_createGroup : Disciplined createGroup fun _ => True := by
  simp [Disciplined, createGroup, send, requestFormat, show awaited .createGroup = none from rfl]

theorem disciplined_chooseGroup : Disciplined chooseGroup fun _ => True :=
  disciplined_ask (by simp [requestFormat, bare]) rfl disciplined_readNumber

theorem disciplined_requestEnterGroup : Disciplined requestEnterGroup fun _ => True := by
  refine disciplined_ask (by simp [requestFormat, bare]) rfl (disciplined_readNumber.bind fun groupid _ => ?_)
  cases groupid with
  | none => exact ⟨rfl, trivial⟩
  | some groupid =>
    refine (disciplined_stoi groupid).bind fun groupid _ => disciplined_send ?_ rfl
    simp [requestFormat, isInt_toInt]

/-- What the user may do in the chosen group is waited for, and read off a flag. -/
theorem disciplined_allowed {tell : Int32 → Menu Unit} {groupid : Int32} {sem : Sem} {flag : Atomic}
    (htell : (tell groupid).Watched discipline none fun _ s => s = some sem) (hsem : sem.tracked = true) :
    Disciplined (tell groupid >>= fun _ => waitAllowed (some (sem, flag))) fun _ => True := by
  rw [Disciplined, Program.watched_bind]
  refine htell.mono ?_
  rintro _ s rfl
  simp [waitAllowed, semWait, hsem]

theorem disciplined_chooseMember {tell : Int32 → Menu Unit} {wait : Option (Sem × Atomic)}
    (h : ∀ groupid, Disciplined (tell groupid >>= fun _ => waitAllowed wait) fun _ => True) :
    Disciplined (chooseMember tell wait) fun _ => True := by
  refine disciplined_chooseGroup.bind fun groupid _ => ?_
  cases groupid with
  | none => exact ⟨rfl, trivial⟩
  | some groupid =>
    refine (disciplined_stoi groupid).bind fun groupid _ => ?_
    rw [← bind_assoc]
    refine (h groupid).bind fun allowed _ => ?_
    by_cases hallowed : allowed = false
    · rw [if_pos hallowed]
      exact ⟨rfl, trivial⟩
    · rw [if_neg hallowed]
      refine disciplined_readNumber.bind fun userid _ => ?_
      cases userid with
      | none => exact ⟨rfl, trivial⟩
      | some userid => exact (disciplined_stoi userid).bind fun _ _ => ⟨rfl, trivial⟩

/-- A request about the chosen member. -/
theorem disciplined_sendMember {m : EnMsgType} {groupid userid : Int32} (hformat : requestFormat m = aboutMember m)
    (hm : awaited m = none) : Disciplined (sendMember m groupid userid) fun _ => True := by
  refine disciplined_send ?_ hm
  simp [hformat, aboutMember, isInt_toInt]

theorem disciplined_onMember {tell : Int32 → Menu Unit} {wait : Option (Sem × Atomic)}
    (h : ∀ groupid, Disciplined (tell groupid >>= fun _ => waitAllowed wait) fun _ => True)
    {next : Int32 → Int32 → Menu Unit} (hnext : ∀ groupid userid, Disciplined (next groupid userid) fun _ => True) :
    Disciplined (chooseMember tell wait >>= fun chosen => match chosen with
      | none => return
      | some (groupid, userid) => next groupid userid) fun _ => True := by
  refine (disciplined_chooseMember h).bind fun chosen _ => ?_
  cases chosen with
  | none => exact ⟨rfl, trivial⟩
  | some chosen => exact hnext chosen.1 chosen.2

/-- A request about a user other than oneself. -/
theorem disciplined_unlessSelf {userid : Int32} {p : Menu Unit} (h : Disciplined p fun _ => True) :
    Disciplined (do
      let currentId : ℤ ← perform .currentId
      if userid.toInt = currentId then return else p) fun _ => True := by
  refine ⟨rfl, fun currentId _ => ?_⟩
  exact Program.watched_ite.2 ⟨fun _ => ⟨rfl, trivial⟩, fun _ => h⟩

theorem disciplined_groupRequestList (groupid : Int32) : Disciplined (tellServerWantToLookGroupRequestList groupid >>=
    fun _ => waitAllowed (some (.addSomeoneToGroup, .ifMasterOrManager))) fun _ => True := by
  refine disciplined_allowed ?_ rfl
  have hsem : awaited .groupRequestList = some .addSomeoneToGroup := rfl
  simp [tellServerWantToLookGroupRequestList, sendGroup, send, requestFormat, aboutGroup, hsem, isInt_toInt]

theorem disciplined_setManagerList (groupid : Int32) :
    Disciplined (tellServerWantToSetManagerGroupMemberList groupid >>=
      fun _ => waitAllowed (some (.setManager, .ifMaster))) fun _ => True := by
  refine disciplined_allowed ?_ rfl
  have hsem : awaited .displayGroupSetManagerMemberList = some .setManager := rfl
  simp [tellServerWantToSetManagerGroupMemberList, sendGroup, send, requestFormat, aboutGroup, hsem, isInt_toInt]

theorem disciplined_sendGroup {m : EnMsgType} {groupid : Int32} (hformat : requestFormat m = aboutGroup m)
    (hm : awaited m = none) : Disciplined (sendGroup m groupid) fun _ => True := by
  refine disciplined_send ?_ hm
  simp [hformat, aboutGroup, isInt_toInt]

theorem disciplined_addSomeoneToGroup : Disciplined addSomeoneToGroup fun _ => True :=
  disciplined_onMember disciplined_groupRequestList fun _ _ => disciplined_sendMember rfl rfl

theorem disciplined_setGroupManager : Disciplined setGroupManager fun _ => True :=
  disciplined_onMember disciplined_setManagerList fun _ _ => disciplined_unlessSelf (disciplined_sendMember rfl rfl)

theorem disciplined_cancelGroupManager : Disciplined cancelGroupManager fun _ => True :=
  disciplined_onMember disciplined_setManagerList fun _ _ => disciplined_sendMember rfl rfl

theorem disciplined_kickSomeoneInGroup : Disciplined kickSomeoneInGroup fun _ => True := by
  refine disciplined_onMember (fun groupid => ?_) fun _ _ => disciplined_unlessSelf (disciplined_sendMember rfl rfl)
  exact (disciplined_sendGroup rfl rfl).bind fun _ _ => ⟨rfl, trivial⟩

theorem disciplined_onGroup {m : EnMsgType} (hformat : requestFormat m = aboutGroup m) (hm : awaited m = none) :
    Disciplined (onGroup (sendGroup m)) fun _ => True := by
  refine disciplined_chooseGroup.bind fun groupid _ => ?_
  cases groupid with
  | none => exact ⟨rfl, trivial⟩
  | some groupid => exact (disciplined_stoi groupid).bind fun _ _ => disciplined_sendGroup hformat hm

theorem disciplined_groupChat : Disciplined groupChat Head.Ok := by
  refine disciplined_chooseGroup.bind fun groupid _ => ?_
  cases groupid with
  | none => exact ⟨rfl, trivial⟩
  | some groupid =>
    refine (disciplined_stoi groupid).bind fun groupid _ => ?_
    refine disciplined_ask (by simp [requestFormat, aboutGroup, isInt_toInt]) rfl ?_
    simp [Disciplined, isInt_toInt, Head.Ok]

theorem disciplined_groupChatLoop {groupid : ℤ} (h : IsInt groupid) (display : Bool) :
    Disciplined (groupChatLoop groupid display) Head.Ok := by
  have hhistory : awaited .groupChatHistory = none := rfl
  have hchat : awaited .groupChat = none := rfl
  cases display <;>
    simp [Disciplined, groupChatLoop, leaveGroupChat, tellServerWantToLookGroupChatHistory, send, requestFormat,
      aboutGroup, hhistory, hchat, Head.Ok, h]

/-- The thread goes on where a call of the system succeeded. -/
theorem disciplined_unless {b : Bool} {p : Menu Unit} (h : Disciplined p fun _ => True) :
    Disciplined (if b = false then pure () else p) fun _ => True :=
  Program.watched_ite.2 ⟨fun _ => ⟨rfl, trivial⟩, fun _ => h⟩

theorem disciplined_sendOpenFile (receiverId filePath : String) :
    Disciplined (sendOpenFile receiverId filePath) fun _ => True := by
  refine ⟨rfl, fun size hsize => ?_⟩
  cases size with
  | none => exact ⟨rfl, fun _ _ => ⟨rfl, trivial⟩⟩
  | some fileSize =>
    have hlt : fileSize < 18446744073709551616 := lt_trans (hsize fileSize rfl) (by decide)
    refine (disciplined_send (by simpa [requestFormat] using hlt) rfl).bind fun _ _ => ?_
    refine ⟨rfl, fun flags _ => disciplined_unless ⟨rfl, fun blocking _ => disciplined_unless ?_⟩⟩
    refine ⟨rfl, fun sent _ => ⟨rfl, fun _ _ => disciplined_unless ⟨rfl, fun restored _ => ?_⟩⟩⟩
    refine disciplined_unless ((disciplined_send (by simp [requestFormat, bare]) rfl).bind fun _ _ => ?_)
    refine ⟨rfl, fun sender hsender => (disciplined_stoi receiverId).bind fun receiver _ => ?_⟩
    have hint : IsInt sender := hsender
    exact disciplined_send (by simp [requestFormat, isInt_toInt, hint]) rfl

theorem disciplined_sendfile : Disciplined sendfile fun _ => True := by
  refine disciplined_friendList (disciplined_readNumber.bind fun receiverId _ => ?_)
  cases receiverId with
  | none => exact ⟨rfl, trivial⟩
  | some receiverId =>
    refine ⟨rfl, fun filePath _ => ⟨rfl, fun kind _ => ?_⟩⟩
    cases kind with
    | none => exact ⟨rfl, trivial⟩
    | some kind =>
      refine disciplined_unless ?_
      by_cases hlnk : kind.isLnk
      · rw [if_pos hlnk]
        exact ⟨rfl, trivial⟩
      · rw [if_neg hlnk]
        exact ⟨rfl, fun opened _ => disciplined_unless (disciplined_sendOpenFile receiverId filePath)⟩

theorem disciplined_receivefile : Disciplined receivefile fun _ => True := by
  refine disciplined_ask (by simp [requestFormat, bare]) rfl ?_
  have hsem : awaited .receiveFile = none := rfl
  have htracked : Sem.receiveFile.tracked = false := rfl
  simp [Disciplined, send, semWait, requestFormat, hsem, htracked]

/-! ## The rounds -/

theorem disciplined_command (choice : Int32) : Disciplined (command choice) Head.Ok := by
  have hdone : Disciplined (pure .enterCommandMenu) Head.Ok := ⟨rfl, trivial⟩
  have hask : ∀ {m sem}, requestFormat m = bare m → awaited m = (if sem.tracked then some sem else none) →
      Disciplined (sendMsg m *> semWait sem *> pure .enterCommandMenu) Head.Ok := fun hm hsem =>
    disciplined_ask (by simp [hm, bare]) hsem hdone
  unfold command
  split
  · exact disciplined_privateChat
  · exact disciplined_groupChat
  · exact disciplined_addFriend.seq hdone
  · exact (disciplined_onFriend rfl rfl).seq hdone
  · exact (disciplined_onFriend rfl rfl).seq hdone
  · exact disciplined_unblockFriend.seq hdone
  · exact hask rfl rfl
  · exact disciplined_addFriendRequest.seq hdone
  · exact disciplined_createGroup.seq hdone
  · exact disciplined_requestEnterGroup.seq hdone
  · exact (disciplined_onGroup rfl rfl).seq hdone
  · exact (disciplined_onGroup rfl rfl).seq hdone
  · exact hask rfl rfl
  · exact disciplined_setGroupManager.seq hdone
  · exact disciplined_cancelGroupManager.seq hdone
  · exact disciplined_kickSomeoneInGroup.seq hdone
  · exact (disciplined_onGroup rfl rfl).seq hdone
  · exact disciplined_addSomeoneToGroup.seq hdone
  · exact disciplined_sendfile.seq hdone
  · exact hask rfl rfl
  · exact disciplined_receivefile.seq hdone
  · exact rfl
  · exact hdone

variable (passwordToSha256 : String → String)

theorem disciplined_enterChatRoom : Disciplined (enterChatRoom passwordToSha256) Head.Ok := by
  refine ⟨rfl, fun choice _ => ?_⟩
  dsimp only [Program.bind]
  split
  · exact (disciplined_reg passwordToSha256).bind fun _ _ => ⟨rfl, trivial⟩
  · refine (disciplined_login passwordToSha256).bind fun loggedIn _ => ?_
    cases loggedIn <;> exact ⟨rfl, trivial⟩
  · exact rfl
  · exact ⟨rfl, trivial⟩

/-- **Every round keeps to the discipline**, whatever is entered and answered. -/
theorem disciplined_round {head : Head} (h : head.Ok) : Disciplined (round passwordToSha256 head) Head.Ok := by
  cases head with
  | enterChatRoom => exact disciplined_enterChatRoom passwordToSha256
  | enterCommandMenu => exact ⟨rfl, fun choice _ => disciplined_command choice⟩
  | privateChat idToChat display => exact disciplined_privateChatLoop h display
  | groupChat groupid display => exact disciplined_groupChatLoop h display

end Menu

/-! ## The process -/

namespace Process

/-- The user's thread waits for `d`, what is known of the ids is an `int`, and the requests have their formats. -/
structure Ok (p : Process) (d : Option Sem) : Prop where
  user : p.user.Watched discipline d fun head s => s = none ∧ head.Ok
  currentId : IsInt p.currentId
  privateChatId : IsInt p.privateChatId
  setId : ∀ id, .setId id ∈ p.effects → IsInt id
  requests : ∀ r ∈ p.requests, r.Formatted

theorem isInt_neg_one : IsInt (-1) := ⟨by decide, by decide⟩

theorem ok_init : init.Ok none := ⟨⟨rfl, trivial⟩, isInt_neg_one, isInt_neg_one, by simp [init], by simp [init]⟩

/-- How many of the requests are answered on the semaphore. -/
def asked (requests : List Request) (sem : Sem) : ℕ := requests.countP fun r => awaited r.msgid = some sem

/-- How often the semaphore can be taken, now or when the message that is handled has been. -/
def held (p : Process) (sem : Sem) : ℕ := (Replies.posts p.effects).count sem + p.sems sem

/-- Whether the semaphore is waited for. -/
def due (d : Option Sem) (sem : Sem) : ℕ := if d = some sem then 1 else 0

/-- The semaphore that a message posts. -/
def postedBy (js : Json) : Option Sem :=
  match js.intField "msgid" with
  | .ok msgid => (EnMsgType.ofCode msgid).bind Replies.posted
  | .error _ => none

/-- What is asked for and what is waited for go up together, and so do what is posted and what is taken. -/
def Accounted (p q : Process) (d d' : Option Sem) (gain : Sem → ℕ) : Prop :=
  ∀ sem, sem.tracked → q.held sem + asked q.requests sem + due d sem =
    p.held sem + asked p.requests sem + due d' sem + gain sem

section Step

variable {p q : Process} {d : Option Sem}

theorem accounted_of_eq (heffects : q.effects = p.effects) (hsems : q.sems = p.sems)
    (hrequests : q.requests = p.requests) : Accounted p q d d fun _ => 0 := by
  intro sem _
  simp only [held, heffects, hsems, hrequests, Nat.add_zero]

theorem send_of_open (hshutdown : p.shutdown = false) (r : Request) :
    p.send r = { p with requests := p.requests ++ [r] } := by
  rw [send, hshutdown]
  rfl

/-- Sending changes nothing but the requests. -/
theorem Ok.send (h : p.Ok d) {r : Request} (hr : r.Formatted) : (p.send r).Ok d := by
  unfold Process.send
  split_ifs
  · exact h
  · refine ⟨h.user, h.currentId, h.privateChatId, h.setId, fun r' hr' => ?_⟩
    rcases List.mem_append.1 hr' with hr' | hr'
    · exact h.requests r' hr'
    · rw [List.mem_singleton.1 hr']
      exact hr

theorem asked_concat (requests : List Request) (r : Request) (sem : Sem) :
    asked (requests ++ [r]) sem = asked requests sem + due (awaited r.msgid) sem := by
  simp only [asked, due, List.countP_append, List.countP_singleton, decide_eq_true_eq]

@[simp] theorem due_none (sem : Sem) : due none sem = 0 := rfl

theorem formatted_checkBlock {id : ℤ} (h : IsInt id) : (checkBlock id).Formatted :=
  formatted_obj.2 (by simpa [requestFormat] using h)

/-- Where the user's thread goes on with `next`. -/
theorem Ok.goOn {q : Process} (hq : q.Ok d) {d' : Option Sem} {user : Menu Head}
    (huser : user.Watched discipline d' fun head s => s = none ∧ head.Ok) : ({ q with user } : Process).Ok d' :=
  ⟨huser, hq.currentId, hq.privateChatId, hq.setId, hq.requests⟩

/-- The process is as it should be after a step, and as long as the connection is open, nothing was lost. -/
def Settles (p q : Process) (d d' : Option Sem) (gain : Sem → ℕ) : Prop :=
  q.Ok d' ∧ (p.shutdown = false → Accounted p q d d' gain ∧ q.shutdown = false)

/-- What the user's thread does at a command. -/
theorem Ok.answer (h : p.Ok d) {c : Cmd} {next : Ans c → Menu Head} (huser : p.user = .call c next) {input : Input}
    {a : Ans c} {q : Process} (hanswer : p.answer input c = some (a, q)) :
    Settles p { q with user := next a } d (c.next d) fun _ => 0 := by
  have hwatched := h.user
  rw [huser] at hwatched
  obtain ⟨hallowed, hrest⟩ := hwatched
  -- most commands leave the process as it is
  have hsame : q = p → c.answers a → c.next d = d → Settles p { q with user := next a } d (c.next d) fun _ => 0 := by
    rintro rfl ha hnext
    refine ⟨h.goOn (hrest a ha), fun hshutdown => ⟨?_, hshutdown⟩⟩
    rw [hnext]
    exact accounted_of_eq rfl rfl rfl
  cases c
  case send r =>
    obtain ⟨rfl, rfl⟩ := Prod.mk.inj (Option.some.inj hanswer)
    obtain ⟨rfl, hr⟩ := hallowed
    refine ⟨(h.send hr).goOn (hrest () trivial), fun hshutdown => ?_⟩
    rw [send_of_open hshutdown]
    refine ⟨fun sem _ => ?_, hshutdown⟩
    simp only [held, asked_concat, Cmd.next, due_none]
    omega
  case semWait sem =>
    change (if p.sems sem = 0 then none else some _) = some (a, q) at hanswer
    split_ifs at hanswer with hzero
    obtain ⟨rfl, rfl⟩ := Prod.mk.inj (Option.some.inj hanswer)
    refine ⟨⟨hrest () trivial, h.currentId, h.privateChatId, h.setId, h.requests⟩, fun hshutdown =>
      ⟨fun sem' htracked => ?_, hshutdown⟩⟩
    obtain rfl : d = if sem.tracked then some sem else none := hallowed
    by_cases heq : sem' = sem
    · subst heq
      simp only [held, Function.update_self, htracked, if_true, due, Cmd.next, reduceCtorEq, if_false]
      omega
    · have hdue : due (if sem.tracked then some sem else none) sem' = 0 := by
        rw [due, if_neg]
        split
        · exact fun hsem => heq (Option.some.inj hsem).symm
        · simp
      simp only [held, Function.update_of_ne heq, hdue, Cmd.next, due_none, Nat.add_zero]
  case setPrivateChatId id =>
    obtain ⟨rfl, rfl⟩ := Prod.mk.inj (Option.some.inj hanswer)
    exact ⟨⟨hrest () trivial, h.currentId, hallowed.2, h.setId, h.requests⟩,
      fun hshutdown => ⟨accounted_of_eq rfl rfl rfl, hshutdown⟩⟩
  case setCurrentGroupChatId id =>
    obtain ⟨rfl, rfl⟩ := Prod.mk.inj (Option.some.inj hanswer)
    exact ⟨⟨hrest () trivial, h.currentId, h.privateChatId, h.setId, h.requests⟩,
      fun hshutdown => ⟨accounted_of_eq rfl rfl rfl, hshutdown⟩⟩
  case currentId =>
    obtain ⟨rfl, rfl⟩ := Prod.mk.inj (Option.some.inj hanswer)
    exact hsame rfl h.currentId rfl
  case fstat =>
    obtain ⟨rfl, rfl⟩ := Prod.mk.inj (Option.some.inj hanswer)
    refine hsame rfl (fun n hn => ?_) rfl
    obtain ⟨size, -, rfl⟩ := Option.map_eq_some_iff.1 hn
    exact size.2
  all_goals
    obtain ⟨rfl, rfl⟩ := Prod.mk.inj (Option.some.inj hanswer)
    exact hsame rfl trivial rfl

theorem Ok.userStep (h : p.Ok d) {passwordToSha256 : String → String} {input : Input}
    (hst : p.userStep passwordToSha256 input = some q) : ∃ d', Settles p q d d' fun _ => 0 := by
  unfold Process.userStep at hst
  split at hst
  case h_1 head huser =>
    obtain rfl := Option.some.inj hst
    have hwatched := h.user
    rw [huser] at hwatched
    obtain ⟨rfl, hhead⟩ := hwatched
    exact ⟨none, h.goOn (Menu.disciplined_round passwordToSha256 hhead),
      fun hshutdown => ⟨accounted_of_eq rfl rfl rfl, hshutdown⟩⟩
  case h_2 =>
    obtain rfl := Option.some.inj hst
    exact ⟨d, ⟨h.user, h.currentId, h.privateChatId, h.setId, h.requests⟩,
      fun hshutdown => ⟨accounted_of_eq rfl rfl rfl, hshutdown⟩⟩
  case h_3 c next huser =>
    obtain ⟨⟨a, q⟩, hanswer, rfl⟩ := Option.map_eq_some_iff.1 hst
    exact ⟨_, h.answer huser hanswer⟩

theorem Ok.networkStep (h : p.Ok d) (hst : p.networkStep = some q) : Settles p q d d fun _ => 0 := by
  obtain ⟨hwatched, hid, hprivate, hall, hrequests⟩ := h
  unfold Process.networkStep at hst
  split at hst
  case h_1 => cases hst
  case h_2 effect effects heffects =>
    obtain rfl := Option.some.inj hst
    rw [heffects] at hall
    obtain ⟨hhead, hset⟩ : (∀ id, .setId id = effect → IsInt id) ∧ ∀ id, .setId id ∈ effects → IsInt id :=
      ⟨fun id heq => hall id (heq ▸ List.mem_cons_self ..), fun id hmem => hall id (List.mem_cons_of_mem _ hmem)⟩
    -- what posts no semaphore and sends nothing
    have hother : ∀ {q : Process}, Replies.posts (effect :: effects) = Replies.posts effects → q.effects = effects →
        q.sems = p.sems → q.requests = p.requests → Accounted p q d d fun _ => 0 := by
      intro q hposts hq hsems hreq sem _
      simp only [held, heffects, hposts, hq, hsems, hreq, Nat.add_zero]
    cases effect
    case post sem =>
      refine ⟨⟨hwatched, hid, hprivate, hset, hrequests⟩, fun hshutdown => ⟨fun sem' _ => ?_, hshutdown⟩⟩
      have hposts : Replies.posts (.post sem :: effects) = sem :: Replies.posts effects := rfl
      simp only [held, perform, heffects, hposts, List.count_cons]
      by_cases heq : sem' = sem
      · subst heq
        simp only [Function.update_self, beq_self_eq_true, if_true]
        omega
      · have hbeq : (sem == sem') = false := beq_eq_false_iff_ne.2 (Ne.symm heq)
        simp only [Function.update_of_ne heq, hbeq, Bool.false_eq_true, if_false, Nat.add_zero]
    case setId id =>
      exact ⟨⟨hwatched, hhead id rfl, hprivate, hset, hrequests⟩,
        fun hshutdown => ⟨hother rfl rfl rfl rfl, hshutdown⟩⟩
    case checkIfBlock =>
      have hok : ({ p with effects } : Process).Ok d := ⟨hwatched, hid, hprivate, hset, hrequests⟩
      refine ⟨hok.send (formatted_checkBlock hprivate), fun hshutdown => ?_⟩
      have hsend : perform { p with effects } .checkIfBlock =
          { p with effects, requests := p.requests ++ [checkBlock p.privateChatId] } :=
        send_of_open (p := { p with effects }) hshutdown _
      rw [hsend]
      refine ⟨fun sem _ => ?_, hshutdown⟩
      have hposts : Replies.posts (.checkIfBlock :: effects) = Replies.posts effects := rfl
      have hdue : due (awaited (checkBlock p.privateChatId).msgid) sem = 0 := rfl
      simp only [held, heffects, hposts, asked_concat, hdue, Nat.add_zero]
    case kicked groupid =>
      simp only [perform]
      split_ifs <;> exact ⟨⟨hwatched, hid, hprivate, hset, hrequests⟩,
        fun hshutdown => ⟨hother rfl rfl rfl rfl, hshutdown⟩⟩
    all_goals exact ⟨⟨hwatched, hid, hprivate, hset, hrequests⟩,
      fun hshutdown => ⟨hother rfl rfl rfl rfl, hshutdown⟩⟩

theorem postedBy_of_onJsonMessage {lib : JsonLib} {js : Json} {effects : List Replies.Effect}
    (h : Replies.onJsonMessage lib js = .ok effects) :
    Replies.posts effects = (postedBy js).toList ∧ ∀ id, .setId id ∈ effects → IsInt id := by
  obtain ⟨msgid, hmsgid⟩ := Replies.exists_msgid_of_onJsonMessage h
  rw [postedBy, hmsgid]
  exact Replies.effects_onJsonMessage h hmsgid

theorem Ok.receive (h : p.Ok d) {lib : JsonLib} {js : Json} (hst : p.receive lib js = some q) :
    q.Ok d ∧ ((∃ effects, Replies.onJsonMessage lib js = .ok effects) →
      Settles p q d d (fun sem => due (postedBy js) sem) ∧ q.exited = p.exited) := by
  obtain ⟨hwatched, hid, hprivate, hset, hrequests⟩ := h
  unfold Process.receive at hst
  split_ifs at hst with heffects
  split at hst
  case h_1 effects hread =>
    obtain rfl := Option.some.inj hst
    obtain ⟨hposts, hset⟩ := postedBy_of_onJsonMessage hread
    have hok : ({ p with effects } : Process).Ok d := ⟨hwatched, hid, hprivate, hset, hrequests⟩
    refine ⟨hok, fun _ => ⟨⟨hok, fun hshutdown => ⟨fun sem _ => ?_, hshutdown⟩⟩, rfl⟩⟩
    have hcount : (postedBy js).toList.count sem = due (postedBy js) sem := by
      cases postedBy js with
      | none => rfl
      | some sem' => simp [due, List.count_singleton]
    have hnone : (Replies.posts []).count sem = 0 := rfl
    simp only [held, heffects, hposts, hcount, hnone]
    omega
  case h_2 | h_3 =>
    rename_i heq
    obtain rfl := Option.some.inj hst
    exact ⟨⟨hwatched, hid, hprivate, hset, hrequests⟩, by simp [heq]⟩

/-- **Every step keeps to the discipline.** -/
theorem ok_step {lib : JsonLib} {passwordToSha256 : String → String} {a : Action}
    (hst : step lib passwordToSha256 p a = some q) (h : p.Ok d) : ∃ d', q.Ok d' := by
  unfold step at hst
  split_ifs at hst
  cases a with
  | user input =>
    obtain ⟨d', hsettles⟩ := h.userStep hst
    exact ⟨d', hsettles.1⟩
  | network => exact ⟨d, (h.networkStep hst).1⟩
  | receive js => exact ⟨d, (h.receive hst).1⟩

/-- Every request of a client that is sent anything has its format. -/
theorem formatted_of_run {lib : JsonLib} {passwordToSha256 : String → String} {ok : Process → Action → Prop}
    {l : List Action} (h : (machine lib passwordToSha256).Run ok init l p) : ∀ r ∈ p.requests, r.Formatted := by
  have hstep : ∀ s a t, ok s a → (machine lib passwordToSha256).step s a = some t →
      (∃ d, s.Ok d) → ∃ d, t.Ok d := by
    rintro s a t - hst ⟨d, hs⟩
    exact ok_step hst hs
  obtain ⟨d, hok⟩ := h.invariant hstep ⟨none, ok_init⟩
  exact hok.requests

end Step

end Process

end Chatroom.Client
