import Mathlib.Data.Int.Basic
import Mathlib.Logic.Function.Basic
import Chatroom.Client.Replies
import Chatroom.Lib.Machine

/-!
# The process of a client

The two threads of `chatclient.cc`, interleaved access by access: the user's thread goes through the rounds of the
menu, the thread of the event loop does what `handleServerMessage` does to the globals. What the user enters and the
system answers comes with the action (`Input`).
-/

namespace Chatroom.Client

open Lib

structure Process where
  /-- what is left of the user's round -/
  user : Menu Head
  /-- what is left of the message that is handled -/
  effects : List Replies.Effect
  /-- the counts of the semaphores -/
  sems : Sem → ℕ
  flags : Atomic → Bool
  /-- `CurrentUser` -/
  currentId : ℤ
  currentName : String
  currentGroupChatId : ℤ
  privateChatId : ℤ
  /-- the requests handed to the connection, in order -/
  requests : List Request
  /-- `conn->shutdown()` was called -/
  shutdown : Bool
  exited : Bool

/-- What is entered and answered at the next command, whichever it is; a size is an `off_t`. -/
structure Input where
  word : String
  int : Int32
  kind : Option FileKind
  ok : Bool
  size : Option {n : ℕ // n < 2 ^ 63}

namespace Process

/-- The globals, and `semInit`. -/
def init : Process := ⟨.ret .enterChatRoom, [], fun _ => 0, fun _ => false, -1, "", -1, -1, [], false, false⟩

/-- `Client::send`: a connection that was shut down takes nothing. -/
def send (p : Process) (request : Request) : Process :=
  if p.shutdown then p else { p with requests := p.requests ++ [request] }

/-! ## The user's thread -/

/-- The answer to a command; none while the semaphore is 0. -/
def answer (input : Input) (p : Process) : (c : Cmd) → Option (Ans c × Process)
  | .send request => some ((), p.send request)
  | .semWait sem =>
    if p.sems sem = 0 then none else some ((), { p with sems := Function.update p.sems sem (p.sems sem - 1) })
  | .readWord => some (input.word, p)
  | .readInt => some (input.int, p)
  | .getline => some (input.word, p)
  | .getPassword => some (input.word, p)
  | .load flag => some (p.flags flag, p)
  | .currentId => some (p.currentId, p)
  | .currentName => some (p.currentName, p)
  | .setPrivateChatId id => some ((), { p with privateChatId := id })
  | .setCurrentGroupChatId id => some ((), { p with currentGroupChatId := id })
  | .stat _ => some (input.kind, p)
  | .openFile _ => some (input.ok, p)
  | .fstat => some (input.size.map Subtype.val, p)
  | .fcntl => some (input.ok, p)
  | .sendfileLoop _ => some (input.ok, p)
  | .closeFile => some ((), p)

/-- The next command of the round, the next round, or the end. -/
def userStep (passwordToSha256 : String → String) (input : Input) (p : Process) : Option Process :=
  match p.user with
  | .ret head => some { p with user := Menu.round passwordToSha256 head }
  | .throw _ => some { p with exited := true }
  | .call c next => (p.answer input c).map fun (a, p) => { p with user := next a }

/-! ## The thread of the event loop -/

/-- `id == value` of an `int` and a `json`; integers are compared as `int64_t`s. -/
def equals (id : ℤ) : Json → Bool
  | .num n => n.bmod (2 ^ 64) = id
  | .real x => if 0 ≤ x.e then x.m * 2 ^ x.e.toNat = id else x.m = id * 2 ^ (-x.e).toNat
  | _ => false

def store (p : Process) (flag : Atomic) (value : Bool) : Process :=
  { p with flags := Function.update p.flags flag value }

def perform (p : Process) : Replies.Effect → Process
  | .post sem => { p with sems := Function.update p.sems sem (p.sems sem + 1) }
  | .store flag value => p.store flag value
  | .storeIfFriend value => p.store .ifFriend (value || p.flags .ifBlock)
  | .setId id => { p with currentId := id }
  | .setName name => { p with currentName := name }
  | .checkIfBlock => p.send (checkBlock p.privateChatId)
  | .kicked groupid => if equals p.currentGroupChatId groupid then p.store .ifGroupMember false else p
  | .display _ => p
  | .privateChat _ _ _ => p
  | .groupChat _ _ _ _ => p
  | .exitChatRoom => { p with exited := true }

def networkStep (p : Process) : Option Process :=
  match p.effects with
  | [] => none
  | effect :: effects => some (perform { p with effects } effect)

/-- A message is read. A parse error inside shuts the connection down; another exception ends the process. -/
def receive (lib : JsonLib) (js : Json) (p : Process) : Option Process :=
  if p.effects = [] then
    match Replies.onJsonMessage lib js with
    | .ok effects => some { p with effects }
    | .error .parseError => some { p with shutdown := true }
    | .error _ => some { p with exited := true }
  else none

/-! ## Both -/

inductive Action where
  | user (input : Input)
  | network
  | receive (js : Json)

def step (lib : JsonLib) (passwordToSha256 : String → String) (p : Process) (a : Action) : Option Process :=
  if p.exited then none
  else match a with
    | .user input => p.userStep passwordToSha256 input
    | .network => p.networkStep
    | .receive js => p.receive lib js

def machine (lib : JsonLib) (passwordToSha256 : String → String) : Machine Process Action :=
  ⟨step lib passwordToSha256⟩

/-! ## No request is taken back -/

theorem isPrefix_requests_send (p : Process) (r : Request) : p.requests <+: (p.send r).requests := by
  unfold send
  split_ifs
  · exact List.prefix_rfl
  · exact List.prefix_append ..

theorem isPrefix_requests_answer {p q : Process} {input : Input} {c : Cmd} {a : Ans c}
    (h : p.answer input c = some (a, q)) : p.requests <+: q.requests := by
  cases c
  case send r =>
    obtain ⟨-, rfl⟩ := Prod.mk.inj (Option.some.inj h)
    exact isPrefix_requests_send p r
  case semWait sem =>
    change (if p.sems sem = 0 then none else some _) = some (a, q) at h
    split_ifs at h
    obtain ⟨-, rfl⟩ := Prod.mk.inj (Option.some.inj h)
    exact List.prefix_rfl
  all_goals
    obtain ⟨-, rfl⟩ := Prod.mk.inj (Option.some.inj h)
    exact List.prefix_rfl

theorem isPrefix_requests_perform (p : Process) (effect : Replies.Effect) :
    p.requests <+: (perform p effect).requests := by
  cases effect
  case checkIfBlock => exact isPrefix_requests_send p _
  case kicked groupid =>
    simp only [perform]
    split_ifs <;> exact List.prefix_rfl
  all_goals exact List.prefix_rfl

/-- A client takes no request back. -/
theorem isPrefix_requests_step {lib : JsonLib} {passwordToSha256 : String → String} {p q : Process}
    {a : Action} (h : p.step lib passwordToSha256 a = some q) : p.requests <+: q.requests := by
  unfold step at h
  split_ifs at h
  cases a with
  | user input =>
    simp only [userStep] at h
    split at h
    case h_1 | h_2 =>
      obtain rfl := Option.some.inj h
      exact List.prefix_rfl
    case h_3 c next huser =>
      obtain ⟨⟨a, q⟩, hanswer, rfl⟩ := Option.map_eq_some_iff.1 h
      show p.requests <+: q.requests
      exact isPrefix_requests_answer hanswer
  | network =>
    simp only [networkStep] at h
    split at h
    case h_1 => cases h
    case h_2 effect effects heffects =>
      obtain rfl := Option.some.inj h
      exact isPrefix_requests_perform { p with effects } effect
  | receive js =>
    simp only [receive] at h
    split_ifs at h
    split at h <;>
    · obtain rfl := Option.some.inj h
      exact List.prefix_rfl

end Process

end Chatroom.Client
