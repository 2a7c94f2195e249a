import Mathlib.Data.List.Basic
import Chatroom.Json

/-!
# The client: `clientService.cc`

A client has two threads. The user's thread runs the functions of the menu, which send requests and wait on
semaphores; the thread of the event loop runs `handleServerMessage` on one message after the other. Here are
`privateChat` step by step, what the messages do to the variables it reads, and of the other functions of the menu
that they send requests and wait for the list of friends.
-/

namespace Chatroom

namespace Client

/-- A message to the server: its id, and all its fields. -/
structure Request where
  msgid : EnMsgType
  js : Json

/-- The request of `checkIfBlock`. -/
def checkBlock (idToChat : ℤ) : Request :=
  ⟨.checkBlock, .obj [("check_id", .num idToChat), ("msgid", .msg .checkBlock)]⟩

/-- Where the user's thread stands. In `privateChat`, `request` is the number of the call's own CHECK_BLOCK among the
requests of the client. -/
inductive UserThread where
  | menu
  /-- `sem_wait(&show_friend_list)` -/
  | friendList
  /-- `std::cin >> id_to_chat` -/
  | choosing
  /-- `sem_wait(&check_if_block)` -/
  | waiting (idToChat : ℤ) (request : ℕ)
  /-- the semaphore was taken, and `if_friend` is tested next -/
  | answered (idToChat : ℤ) (request : ℕ)
  /-- `while (!if_block)` for the first time -/
  | admitted (idToChat : ℤ) (request : ℕ)
  /-- `private_chat_id = id_to_chat`; `display` is `if_display_private_history` -/
  | entering (idToChat : ℤ) (display : Bool)
  /-- `tellServerWantToLookPrivateChatHistory` -/
  | history (idToChat : ℤ)
  /-- `std::getline(std::cin, msg)` -/
  | typing (idToChat : ℤ)
  /-- `while (!if_block)` again -/
  | looping (idToChat : ℤ)
  /-- after the loop -/
  | leaving
  /-- the process has ended -/
  | exited
  deriving DecidableEq

/-- What `handleServerMessage` does, one access at a time. `number` is that of the message. -/
inductive NetworkStep where
  | userInit (name : String)
  /-- `checkIfBlock(client, private_chat_id)` -/
  | askAgain
  | postShowFriendList
  | setIfBlock (value : Bool) (number : ℕ)
  /-- `if_friend = value || if_block` -/
  | setIfFriend (value : Bool) (number : ℕ)
  | postCheckIfBlock
  | exitChatRoom
  deriving DecidableEq

/-- `if_block` or `if_friend`, and the number of the message that set it. -/
structure Flag where
  value : Bool
  setBy : Option ℕ
  deriving DecidableEq

end Client

open Client in
structure Client where
  user : UserThread
  /-- what is left to do of the message that is handled -/
  network : List NetworkStep
  ifBlock : Flag
  ifFriend : Flag
  /-- the count of `check_if_block` -/
  semCheckIfBlock : ℕ
  /-- the count of `show_friend_list` -/
  semShowFriendList : ℕ
  privateChatId : ℤ
  /-- `CurrentUser.getName()` -/
  currentName : String
  /-- the requests handed to `Client::send`, in order -/
  requests : List Request

namespace Client

/-- The globals, and `semInit`. -/
def init : Client := ⟨.menu, [], ⟨false, none⟩, ⟨false, none⟩, 0, 0, -1, "", []⟩

def send (c : Client) (request : Request) : Client := { c with requests := c.requests ++ [request] }

/-! ## The user's thread -/

/-- What the user enters, or that the thread goes on by itself. -/
inductive UserAction where
  /-- choice 1 -/
  | privateChat
  /-- another choice, and a request that its function sends: they are not CHECK_BLOCK -/
  | otherRequest (request : Request)
  /-- another choice whose function waits for the list of friends -/
  | otherFriendList
  | enterId (id : ℤ)
  | enterLine (msg : String)
  | exitChatRoom
  | proceed

def userStep (c : Client) (a : UserAction) : Option Client :=
  match c.user, a with
  | .menu, .privateChat =>
    some { c.send ⟨.displayFriendList, .obj [("msgid", .msg .displayFriendList)]⟩ with user := .friendList }
  | .menu, .otherRequest request => if request.msgid = .checkBlock then none else some (c.send request)
  | .menu, .otherFriendList =>
    if c.semShowFriendList = 0 then none else some { c with semShowFriendList := c.semShowFriendList - 1 }
  | .menu, .exitChatRoom => some { c with user := .exited }
  | .friendList, .proceed =>
    if c.semShowFriendList = 0 then none
    else some { c with semShowFriendList := c.semShowFriendList - 1, user := .choosing }
  | .choosing, .enterId id =>
    if id = -1 then some { c with user := .menu }
    else some { c.send (checkBlock id) with user := .waiting id c.requests.length }
  | .waiting id request, .proceed =>
    if c.semCheckIfBlock = 0 then none
    else some { c with semCheckIfBlock := c.semCheckIfBlock - 1, user := .answered id request }
  | .answered id request, .proceed =>
    some { c with user := if c.ifFriend.value then .admitted id request else .menu }
  | .admitted id _, .proceed => some { c with user := if c.ifBlock.value then .leaving else .entering id true }
  | .entering id display, .proceed =>
    some { c with privateChatId := id, user := if display then .history id else .typing id }
  | .history id, .proceed =>
    some { c.send ⟨.privateChatHistory, .obj [("id", .num id), ("msgid", .msg .privateChatHistory)]⟩ with
      user := .typing id }
  | .typing id, .enterLine msg =>
    if msg = "exit" then some { c with user := .leaving }
    else some { c.send ⟨.privateChat, .obj [("from_name", .str c.currentName), ("id", .num id), ("msg", .str msg),
      ("msgid", .msg .privateChat)]⟩ with user := .looping id }
  | .looping id, .proceed => some { c with user := if c.ifBlock.value then .leaving else .entering id false }
  | .leaving, .proceed => some { c with user := .menu }
  | _, _ => none

/-! ## The thread of the event loop -/

/-- `js[key] == text` -/
def isText (js : Json) (key text : String) : Bool :=
  match js.stringField key with
  | .ok s => s == text
  | .error _ => false

/-- `(js["state1"] == text) || (js["state2"] == text)` -/
def someState (js : Json) (text : String) : Bool := isText js "state1" text || isText js "state2" text

/-- The messages that change nothing of `Client` are left out; an exception ends the process. -/
def handleServerMessage (number : ℕ) (js : Json) : List NetworkStep :=
  match js.intField "msgid" with
  | .error _ => [.exitChatRoom]
  | .ok msgid =>
    if msgid = EnMsgType.loginSuccess.code then
      match js.stringField "name" with
      | .error _ => [.exitChatRoom]
      | .ok name => [.userInit name]
    else if msgid = EnMsgType.blockFriendSuccess.code ∨ msgid = EnMsgType.unblockFriendSuccess.code then
      [.askAgain]
    else if msgid = EnMsgType.displayFriendList.code then
      [.postShowFriendList]
    else if msgid = EnMsgType.checkBlock.code then
      [.setIfBlock (someState js "block") number, .setIfFriend (someState js "friend") number, .postCheckIfBlock]
    else if msgid = EnMsgType.clientLongtimeExit.code then
      [.exitChatRoom]
    else
      []

def networkStep (c : Client) : Option Client :=
  match c.network with
  | [] => none
  | .userInit name :: rest => some { c with network := rest, currentName := name }
  | .askAgain :: rest => some { c.send (checkBlock c.privateChatId) with network := rest }
  | .postShowFriendList :: rest => some { c with network := rest, semShowFriendList := c.semShowFriendList + 1 }
  | .setIfBlock value number :: rest => some { c with network := rest, ifBlock := ⟨value, some number⟩ }
  | .setIfFriend value number :: rest =>
    some { c with network := rest, ifFriend := ⟨value || c.ifBlock.value, some number⟩ }
  | .postCheckIfBlock :: rest => some { c with network := rest, semCheckIfBlock := c.semCheckIfBlock + 1 }
  | .exitChatRoom :: _ => some { c with network := [], user := .exited }

end Client

end Chatroom
