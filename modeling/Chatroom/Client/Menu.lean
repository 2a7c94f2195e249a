import Chatroom.Client.ClientService
import Chatroom.Lib.Program

/-!
# The user's thread: the functions of the menu

The functions of `clientService.cc` that the user's thread runs, each as a program whose commands are the requests it
sends, the semaphores it waits for, what it reads of the globals and of the user, and the calls to the system. The
endless loops (`EnterChatRoom`, `EnterCommandMenu`, and the loops of `privateChat` and `groupChat`) are cut at their
heads: `round` is one round of a loop and returns the head that comes next. What is written on the screen is left
out.
-/

namespace Chatroom.Client

open Lib

/-- The semaphores of `semInit`. -/
inductive Sem where
  | reg | login | showAllUserList | showFriendList | showBlockList | showRequestList | showOwnGroupList
  | showAllGroupList | showFileList | addSomeoneToGroup | setManager | checkGroupMember | receiveFile | checkIfBlock
  deriving DecidableEq

/-- The `std::atomic<bool>`s. -/
inductive Atomic where
  | loginFlag | ifBlock | ifFriend | ifMasterOrManager | ifMaster | ifGroupMember
  deriving DecidableEq

/-- What `stat` says of a path. -/
structure FileKind where
  isReg : Bool
  isLnk : Bool

inductive Cmd where
  /-- `client.send(…)`, or `::send(client.fd(), …)` -/
  | send (request : Request)
  | semWait (sem : Sem)
  /-- `std::cin >>` into a string -/
  | readWord
  /-- `std::cin >>` into an `int` -/
  | readInt
  /-- `std::getline(std::cin, …)` -/
  | getline
  | getPassword
  | load (flag : Atomic)
  /-- `CurrentUser.getId()` -/
  | currentId
  /-- `CurrentUser.getName()` -/
  | currentName
  | setPrivateChatId (id : ℤ)
  | setCurrentGroupChatId (id : ℤ)
  | stat (path : String)
  | openFile (path : String)
  | fstat
  | fcntl
  /-- the loop over `::sendfile`, to its end or to an error other than `EAGAIN` -/
  | sendfileLoop (fileSize : ℕ)
  | closeFile

@[reducible] def Ans : Cmd → Type
  | .readWord => String
  | .readInt => Int32
  | .getline => String
  | .getPassword => String
  | .load _ => Bool
  | .currentId => ℤ
  | .currentName => String
  | .stat _ => Option FileKind
  | .openFile _ => Bool
  | .fstat => Option ℕ
  | .fcntl => Bool
  | .sendfileLoop _ => Bool
  | _ => Unit

/-- How the process ends: by `ExitChatRoom`, or by the exception of `std::stoi` that nothing catches. -/
inductive Exit where
  | exitChatRoom
  | outOfRange

abbrev Menu := Program Ans Exit

/-- The heads of the loops. -/
inductive Head where
  | enterChatRoom
  | enterCommandMenu
  | privateChat (idToChat : ℤ) (display : Bool)
  | groupChat (groupid : ℤ) (display : Bool)

namespace Menu

abbrev perform (c : Cmd) : Menu (Ans c) := Program.perform c

/-! ## `util.cc` -/

/-- `isNumber` -/
def isNumber (s : String) : Bool := s ≠ "" ∧ s.toList.all Char.isDigit

/-- `std::stoi` of a string of digits. -/
def stoi (s : String) : Menu Int32 :=
  let n := Nat.ofDigitChars 10 s.toList 0
  if n < 2 ^ 31 then return .ofNat n else .throw .outOfRange

/-- The file's name in a path: what follows the last slash or backslash. -/
def baseName (path : String) : String :=
  .ofList (path.toList.reverse.takeWhile fun c => c ≠ '/' ∧ c ≠ '\\').reverse

/-! ## Requests -/

def send (m : EnMsgType) (fields : List (String × Json)) : Menu Unit := perform (.send ⟨m, .obj fields⟩)

/-- A request with nothing but its id. -/
def sendMsg (m : EnMsgType) : Menu Unit := send m [("msgid", .msg m)]

/-- A request about a group. -/
def sendGroup (m : EnMsgType) (groupid : Int32) : Menu Unit :=
  send m [("groupid", .num groupid.toInt), ("msgid", .msg m)]

/-- A request about a user in a group. -/
def sendMember (m : EnMsgType) (groupid userid : Int32) : Menu Unit :=
  send m [("groupid", .num groupid.toInt), ("msgid", .msg m), ("userid", .num userid.toInt)]

def semWait (sem : Sem) : Menu Unit := perform (.semWait sem)

def tellServerWantToLookAllUserList : Menu Unit := sendMsg .displayAlluserList
def tellServerWantToLookRequestList : Menu Unit := sendMsg .friendRequestList
def tellServerWantToLookFriendList : Menu Unit := sendMsg .displayFriendList
def tellServerWantToLookBlockList : Menu Unit := sendMsg .blockFriendList
def tellServerWantToLookAllGroupList : Menu Unit := sendMsg .displayAllgroupList
def tellServerShowOwnGroupList : Menu Unit := sendMsg .displayOwnGroupList
def tellServerWantToLookGroupRequestList (groupid : Int32) : Menu Unit := sendGroup .groupRequestList groupid
def tellServerWantToLookGroupMemberList (groupid : Int32) : Menu Unit := sendGroup .displayGroupMemberList groupid
def tellServerWantToSetManagerGroupMemberList (groupid : Int32) : Menu Unit :=
  sendGroup .displayGroupSetManagerMemberList groupid
def tellServerWantToLookGroupChatHistory (groupid : ℤ) : Menu Unit :=
  send .groupChatHistory [("groupid", .num groupid), ("msgid", .msg .groupChatHistory)]
def tellServerWantToLookPrivateChatHistory (idToChat : ℤ) : Menu Unit :=
  send .privateChatHistory [("id", .num idToChat), ("msgid", .msg .privateChatHistory)]
def checkIfBlock (idToChat : ℤ) : Menu Unit := perform (.send (checkBlock idToChat))
def checkIfGroupMember (groupid : Int32) : Menu Unit := sendGroup .checkGroupMember groupid
def viewfile : Menu Unit := sendMsg .viewFile

/-! ## Entering the chat room -/

variable (passwordToSha256 : String → String)

def reg : Menu Unit := do
  let name : String ← perform .readWord
  let password : String ← perform .getPassword
  let password2 : String ← perform .getPassword
  if password ≠ password2 then return
  else
    send .regMsg [("msgid", .msg .regMsg), ("name", .str name), ("password", .str (passwordToSha256 password))]
    semWait .reg

def login : Menu Bool := do
  let name : String ← perform .readWord
  let password : String ← perform .getPassword
  send .loginMsg [("msgid", .msg .loginMsg), ("name", .str name), ("password", .str (passwordToSha256 password))]
  semWait .login
  perform (.load .loginFlag)

/-! ## Friends -/

/-- The user names somebody to befriend. -/
def addByName : Menu Unit := do
  let name : String ← perform .readWord
  if name = "exit" then return
  else
    let currentName : String ← perform .currentName
    if name = currentName then return
    else send .addFriend [("add_name", .str name), ("msgid", .msg .addFriend)]

def addFriend : Menu Unit := do
  tellServerWantToLookAllUserList
  semWait .showAllUserList
  addByName

def addFriendRequest : Menu Unit := do
  tellServerWantToLookRequestList
  semWait .showRequestList
  addByName

/-- The user chooses a friend, not oneself, whose id goes into field `key` of the request. -/
def onFriend (m : EnMsgType) (key : String) : Menu Unit := do
  tellServerWantToLookFriendList
  semWait .showFriendList
  let id : Int32 ← perform .readInt
  let currentId : ℤ ← perform .currentId
  if id.toInt = currentId then return
  else if id = -1 then return
  else send m [(key, .num id.toInt), ("msgid", .msg m)]

def deleteFriend : Menu Unit := onFriend .deleteFriend "del_id"
def blockFriend : Menu Unit := onFriend .blockFriend "block_id"

def unblockFriend : Menu Unit := do
  tellServerWantToLookBlockList
  semWait .showBlockList
  let id : Int32 ← perform .readInt
  if id = -1 then return
  else send .unblockFriend [("msgid", .msg .unblockFriend), ("unblock_id", .num id.toInt)]

/-- `privateChat` up to its loop. -/
def privateChat : Menu Head := do
  tellServerWantToLookFriendList
  semWait .showFriendList
  let idToChat : Int32 ← perform .readInt
  if idToChat = -1 then return .enterCommandMenu
  else
    checkIfBlock idToChat.toInt
    semWait .checkIfBlock
    let ifFriend : Bool ← perform (.load .ifFriend)
    if ifFriend = false then return .enterCommandMenu
    else return .privateChat idToChat.toInt true

/-- `while (!if_block)` -/
def privateChatLoop (idToChat : ℤ) (display : Bool) : Menu Head := do
  let ifBlock : Bool ← perform (.load .ifBlock)
  if ifBlock then
    -- the loop is left, and `if_block` is tested for the message on the screen
    let _ : Bool ← perform (.load .ifBlock)
    return .enterCommandMenu
  else
    let _ ← perform (.setPrivateChatId idToChat)
    if display then tellServerWantToLookPrivateChatHistory idToChat
    let msg : String ← perform .getline
    if msg = "exit" then
      let _ : Bool ← perform (.load .ifBlock)
      return .enterCommandMenu
    else
      let fromName : String ← perform .currentName
      send .privateChat [("from_name", .str fromName), ("id", .num idToChat), ("msg", .str msg),
        ("msgid", .msg .privateChat)]
      return .privateChat idToChat false

/-! ## Groups -/

def createGroup : Menu Unit := do
  let groupname : String ← perform .readWord
  if groupname = "exit" then return
  else send .createGroup [("groupname", .str groupname), ("msgid", .msg .createGroup)]

/-- A number that the user enters, unless it is none or "-1". -/
def readNumber : Menu (Option String) := do
  let s : String ← perform .readWord
  if isNumber s = false then return none
  else if s = "-1" then return none
  else return some s

/-- How the functions on one's own groups begin. -/
def chooseGroup : Menu (Option String) := do
  tellServerShowOwnGroupList
  semWait .showOwnGroupList
  readNumber

def requestEnterGroup : Menu Unit := do
  tellServerWantToLookAllGroupList
  semWait .showAllGroupList
  let groupid ← readNumber
  match groupid with
  | none => return
  | some groupid =>
    let groupid ← stoi groupid
    send .requestGroup [("add_group_id", .num groupid.toInt), ("msgid", .msg .requestGroup)]

/-- What the user may do there is waited for and read off a flag, if it is asked for at all. -/
def waitAllowed : Option (Sem × Atomic) → Menu Bool
  | none => return true
  | some (sem, flag) => do
    semWait sem
    perform (.load flag)

/-- A group is chosen and `tell` asks for its list; who is allowed to goes on to choose a user. -/
def chooseMember (tell : Int32 → Menu Unit) (wait : Option (Sem × Atomic)) : Menu (Option (Int32 × Int32)) := do
  let groupid ← chooseGroup
  match groupid with
  | none => return none
  | some groupid =>
    let groupid ← stoi groupid
    tell groupid
    let allowed ← waitAllowed wait
    if allowed = false then return none
    else
      let userid ← readNumber
      match userid with
      | none => return none
      | some userid =>
        let userid ← stoi userid
        return some (groupid, userid)

def addSomeoneToGroup : Menu Unit := do
  let chosen ← chooseMember tellServerWantToLookGroupRequestList (some (.addSomeoneToGroup, .ifMasterOrManager))
  match chosen with
  | none => return
  | some (groupid, userid) => sendMember .addGroup groupid userid

def setGroupManager : Menu Unit := do
  let chosen ← chooseMember tellServerWantToSetManagerGroupMemberList (some (.setManager, .ifMaster))
  match chosen with
  | none => return
  | some (groupid, userid) =>
    let currentId : ℤ ← perform .currentId
    if userid.toInt = currentId then return
    else sendMember .setManager groupid userid

def cancelGroupManager : Menu Unit := do
  let chosen ← chooseMember tellServerWantToSetManagerGroupMemberList (some (.setManager, .ifMaster))
  match chosen with
  | none => return
  | some (groupid, userid) => sendMember .cancelManager groupid userid

def kickSomeoneInGroup : Menu Unit := do
  let chosen ← chooseMember tellServerWantToLookGroupMemberList none
  match chosen with
  | none => return
  | some (groupid, userid) =>
    let currentId : ℤ ← perform .currentId
    if userid.toInt = currentId then return
    else sendMember .kickSomeone groupid userid

/-- A group is chosen, and a request about it is all there is. -/
def onGroup (request : Int32 → Menu Unit) : Menu Unit := do
  let groupid ← chooseGroup
  match groupid with
  | none => return
  | some groupid =>
    let groupid ← stoi groupid
    request groupid

def quitGroup : Menu Unit := onGroup (sendGroup .quitGroup)
def masterDeleteGroup : Menu Unit := onGroup (sendGroup .masterDeleteGroup)
/-- `GroupMemberList` -/
def groupMemberList : Menu Unit := onGroup tellServerWantToLookGroupMemberList

/-- `groupChat` up to its loop. -/
def groupChat : Menu Head := do
  let groupid ← chooseGroup
  match groupid with
  | none => return .enterCommandMenu
  | some groupid =>
    let groupid ← stoi groupid
    checkIfGroupMember groupid
    semWait .checkGroupMember
    let ifGroupMember : Bool ← perform (.load .ifGroupMember)
    if ifGroupMember = false then return .enterCommandMenu
    else
      let _ ← perform (.setCurrentGroupChatId groupid.toInt)
      return .groupChat groupid.toInt true

/-- After the loop of `groupChat`. -/
def leaveGroupChat : Menu Head := do
  let _ ← perform (.setCurrentGroupChatId (-1))
  let _ : Bool ← perform (.load .ifGroupMember)
  return .enterCommandMenu

/-- `while(if_group_member)` -/
def groupChatLoop (groupid : ℤ) (display : Bool) : Menu Head := do
  let ifGroupMember : Bool ← perform (.load .ifGroupMember)
  if ifGroupMember = false then leaveGroupChat
  else
    if display then tellServerWantToLookGroupChatHistory groupid
    let msg : String ← perform .getline
    if msg = "exit" then leaveGroupChat
    else
      let fromName : String ← perform .currentName
      send .groupChat [("from_name", .str fromName), ("groupid", .num groupid), ("msg", .str msg),
        ("msgid", .msg .groupChat)]
      return .groupChat groupid false

/-! ## Files -/

/-- `sendfile` after the file was opened. -/
def sendOpenFile (receiverId filePath : String) : Menu Unit := do
  let size : Option ℕ ← perform .fstat
  match size with
  | none => perform .closeFile
  | some fileSize =>
    let filename := baseName filePath
    send .sendFile [("filename", .str filename), ("filesize", .num fileSize), ("msgid", .msg .sendFile)]
    let flags : Bool ← perform .fcntl
    if flags = false then return
    else
      let blocking : Bool ← perform .fcntl
      if blocking = false then return
      else
        let sent : Bool ← perform (.sendfileLoop fileSize)
        let _ ← perform .closeFile
        if sent = false then return
        else
          let restored : Bool ← perform .fcntl
          if restored = false then return
          else
            sendMsg .sendFileEnd
            let sender : ℤ ← perform .currentId
            let receiver ← stoi receiverId
            send .sendFileDatabase [("filename", .str filename), ("msgid", .msg .sendFileDatabase),
              ("receiver", .num receiver.toInt), ("sender", .num sender)]

def sendfile : Menu Unit := do
  tellServerWantToLookFriendList
  semWait .showFriendList
  let receiverId ← readNumber
  match receiverId with
  | none => return
  | some receiverId =>
    let filePath : String ← perform .readWord
    let kind : Option FileKind ← perform (.stat filePath)
    match kind with
    | none => return
    | some kind =>
      if kind.isReg = false then return
      else if kind.isLnk then return
      else
        let opened : Bool ← perform (.openFile filePath)
        if opened = false then return
        else sendOpenFile receiverId filePath

def receivefile : Menu Unit := do
  viewfile
  semWait .showFileList
  let filename : String ← perform .readWord
  if filename = "exit" then return
  else
    send .receiveFile [("filename", .str filename), ("msgid", .msg .receiveFile)]
    semWait .receiveFile

/-! ## The menus -/

/-- The function that the user chose in `EnterCommandMenu`. -/
def command (choice : Int32) : Menu Head :=
  match choice.toInt with
  | 1 => privateChat
  | 2 => groupChat
  | 3 => addFriend *> pure .enterCommandMenu
  | 4 => deleteFriend *> pure .enterCommandMenu
  | 5 => blockFriend *> pure .enterCommandMenu
  | 6 => unblockFriend *> pure .enterCommandMenu
  | 7 => tellServerWantToLookFriendList *> semWait .showFriendList *> pure .enterCommandMenu
  | 8 => addFriendRequest *> pure .enterCommandMenu
  | 9 => createGroup *> pure .enterCommandMenu
  | 10 => requestEnterGroup *> pure .enterCommandMenu
  | 11 => quitGroup *> pure .enterCommandMenu
  | 12 => masterDeleteGroup *> pure .enterCommandMenu
  | 13 => tellServerWantToLookAllGroupList *> semWait .showAllGroupList *> pure .enterCommandMenu
  | 14 => setGroupManager *> pure .enterCommandMenu
  | 15 => cancelGroupManager *> pure .enterCommandMenu
  | 16 => kickSomeoneInGroup *> pure .enterCommandMenu
  | 17 => groupMemberList *> pure .enterCommandMenu
  | 18 => addSomeoneToGroup *> pure .enterCommandMenu
  | 19 => sendfile *> pure .enterCommandMenu
  | 20 => viewfile *> semWait .showFileList *> pure .enterCommandMenu
  | 21 => receivefile *> pure .enterCommandMenu
  | 22 => .throw .exitChatRoom
  | _ => return .enterCommandMenu

/-- One round of `EnterChatRoom`. -/
def enterChatRoom : Menu Head := do
  let choice : Int32 ← perform .readInt
  match choice.toInt with
  | 1 =>
    reg passwordToSha256
    return .enterChatRoom
  | 2 =>
    let loggedIn ← login passwordToSha256
    if loggedIn then return .enterCommandMenu else return .enterChatRoom
  | 3 => .throw .exitChatRoom
  | _ => return .enterChatRoom

/-- One round of the loop at the head. -/
def round : Head → Menu Head
  | .enterChatRoom => enterChatRoom passwordToSha256
  | .enterCommandMenu => do
    let choice : Int32 ← perform .readInt
    command choice
  | .privateChat idToChat display => privateChatLoop idToChat display
  | .groupChat groupid display => groupChatLoop groupid display

end Menu

end Chatroom.Client
