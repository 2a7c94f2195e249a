import Chatroom.Lib.Pool
import Chatroom.Service.Footprint

/-!
# The server: who runs which function of `Service`

`Server::onJsonMessage` hands every message to the pool, whose workers run the handlers; the loops of the
connections call `setConnStatus` and `onConnection`, the loop of `main` calls `checkIfConnAlive`. `server` is
all of them interleaved, `serial` runs one to its end before the next, and restarts the process in between.
-/

namespace Chatroom.Service

open Lib

inductive Activity where
  /-- the task that `onJsonMessage` enqueues -/
  | request (conn : Conn) (msgid : ℤ) (js : Json) (time : String)
  | connStatus (conn : Conn) (status : Bool)
  | removeConnStatus (conn : Conn)
  /-- `onConnection` of a connection that is down -/
  | down (conn : Conn)
  | heartbeat

def Activity.body : Activity → Task Unit
  | .request conn msgid js time => getHandler msgid conn js time
  | .connStatus conn status => setConnStatus conn status
  | .removeConnStatus conn => Service.removeConnStatus conn
  | .down conn => do
    clientClose conn
    perform (.forceClose conn)
  | .heartbeat => checkIfConnAlive

/-- What an activity can change. -/
def Activity.areas : Activity → List Area
  | .request _ msgid _ _ => areasOf msgid
  | .connStatus _ _ => [.status]
  | .removeConnStatus _ => [.status]
  | .down _ => [.session, .status, .users]
  | .heartbeat => [.session, .status, .users]

/-- **An activity stays in its areas.** -/
theorem Activity.safe_body (a : Activity) :
    a.body.Safe (fun c => ∀ x, c.area = some x → x ∈ a.areas) (fun _ _ => True) fun _ => True := by
  cases a with
  | request conn msgid js time =>
    exact (within_getHandler msgid conn js time).mono (fun c hc => hc.area) (fun _ _ _ => trivial)
      fun _ _ => trivial
  | connStatus conn status => simp [body, areas, setConnStatus]
  | removeConnStatus conn => simp [body, areas, Service.removeConnStatus]
  | down conn =>
    simp only [body, areas, clientClose, Program.safe_bind, Program.safe_perform]
    refine ⟨by simp, fun it _ => ?_⟩
    cases it with
    | none => simp
    | some userId => simp [setOffline]
  | heartbeat =>
    simp only [body, areas, checkIfConnAlive, Program.safe_bind, Program.safe_perform]
    refine ⟨by simp, fun conns _ => Program.safe_forM (fun conn _ => safe_dropConn_of fun c hc => ?_) trivial⟩
    cases hc <;> simp

/-- The server with its threads. -/
abbrev Threads := Pool Ans Fault World Activity

def server (env : Environment) : Machine Threads (Pool.Action Activity) := Pool.machine Activity.body (exec env)

/-! ## One at a time -/

/-- The state after an activity that nothing interrupts. -/
def serve (env : Environment) (a : Activity) (w : World) : World := (a.body.run (exec env) w).2

/-- The constructor of `Server`. -/
def initServer : Task Unit := do
  groupUserListMapInit
  userstateInit

/-- A new process over the tables and caches of `w`. -/
def boot (env : Environment) (w : World) : World := (initServer.run (exec env) w.restart).2

/-- `none` is a restart of the process. -/
def serial (env : Environment) : Machine World (Option Activity) where
  step w a := match a with
    | some a => some (serve env a w)
    | none => some (boot env w)

/-- What a new process and every activity preserve holds throughout a run. -/
theorem serial_invariant {env : Environment} {ok : World → Option Activity → Prop} {Inv : World → Prop}
    (hboot : ∀ w, ok w none → Inv w → Inv (boot env w))
    (hserve : ∀ w a, ok w (some a) → Inv w → Inv (serve env a w)) {w₀ w : World} {l : List (Option Activity)}
    (h : (serial env).Run ok w₀ l w) : Inv w₀ → Inv w := by
  refine h.invariant ?_
  rintro s (_ | a) t hok hst hs
  · obtain rfl := Option.some.inj hst
    exact hboot s hok hs
  · obtain rfl := Option.some.inj hst
    exact hserve s a hok hs

/-! ## Messages of clients -/

def logsIn (conn : Conn) (name password : String) : Activity :=
  .request conn EnMsgType.loginMsg.code (.obj [("name", .str name), ("password", .str password)]) ""

def creates (conn : Conn) (groupname : String) : Activity :=
  .request conn EnMsgType.createGroup.code (.obj [("groupname", .str groupname)]) ""

def asksToJoin (conn : Conn) (groupid : ℤ) : Activity :=
  .request conn EnMsgType.requestGroup.code (.obj [("add_group_id", .num groupid)]) ""

/-- A message that names a group and one of its users. -/
def groupAction (m : EnMsgType) (conn : Conn) (groupid userid : ℤ) : Activity :=
  .request conn m.code (.obj [("groupid", .num groupid), ("userid", .num userid)]) ""

end Chatroom.Service
